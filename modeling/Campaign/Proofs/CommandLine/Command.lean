import Campaign.CommandLine.Command
import Campaign.Proofs.Sequences
/-!
# Commands of a single word

The words `validate` and `run` are followed by the file of a flow.  Where nothing else follows, a
word that is accepted is that file, and a run then has its defaults (`read_single`): an option does
not count as a file, whatever value comes with it, and neither does `--`.
-/
namespace Campaign.CommandLine

/-! ## Options leave the operand alone -/

theorem Choices.operand_take {c c' : Choices} {o : Opt} {value : String}
    (h : c.take o value = .ok c') : c'.operand = c.operand := by
  unfold take at h
  split at h
  · cases h
  · cases h
  · cases h
    rfl
  · cases h
    rfl
  · split at h
    · cases h
      rfl
    · cases h
  · split at h
    · cases h
      rfl
    · cases h

namespace Syntax

variable {s : Syntax} {c c' : Choices} {o : Opt} {name word : String} {value : Option String}
  {rest : List Word}

theorem operand_takeCluster {letters : List Char} (h : s.takeCluster c o letters = .ok c') :
    c'.operand = c.operand := by
  induction letters generalizing c o with
  | nil =>
    rw [takeCluster, bind_eq_ok_iff] at h
    obtain ⟨taken, htake, ⟨⟩⟩ := h
    exact Choices.operand_take htake
  | cons letter letters ih =>
    rw [takeCluster, bind_eq_ok_iff] at h
    obtain ⟨taken, htake, h⟩ := h
    dsimp only at h
    rw [← Choices.operand_take htake]
    split at h
    · exact ih h
    · cases h
      rfl

/-- An option that is the last word leaves no words, and the operand alone. -/
theorem takeOption_last (h : s.takeOption c o name value [] = .ok (c', rest)) :
    rest = [] ∧ c'.operand = c.operand := by
  cases value with
  | some value =>
    simp only [takeOption] at h
    split at h
    · obtain ⟨taken, htake, ⟨⟩⟩ := map_eq_ok_iff.1 h
      exact ⟨rfl, Choices.operand_take htake⟩
    · split at h
      · obtain ⟨taken, htake, ⟨⟩⟩ := map_eq_ok_iff.1 h
        exact ⟨rfl, operand_takeCluster htake⟩
      · cases h
  | none =>
    simp only [takeOption] at h
    split at h
    · cases h
    · obtain ⟨taken, htake, ⟨⟩⟩ := map_eq_ok_iff.1 h
      exact ⟨rfl, Choices.operand_take htake⟩

/-! ## Single words -/

/-- A word is what it was written as. -/
theorem text_of_classifyWord {w : Word} (h : s.classifyWord word = .ok w) : w.text = word := by
  simp only [classifyWord] at h
  repeat' split at h
  all_goals
    cases h
    try rfl

/-- A word in front of others is classified by itself, if it does not end the options. -/
theorem classify_cons_iff {words : List String} {ws : List Word} (h : word ≠ "--") :
    s.classify (word :: words) = .ok ws ↔
      ∃ w ws', s.classifyWord word = .ok w ∧ s.classify words = .ok ws' ∧ ws = w :: ws' := by
  rw [classify, bind_eq_ok_iff]
  · simp only [map_eq_ok_iff, exists_and_left, eq_comm (a := ws)]
  · exact h

/-- A single word is one word. -/
theorem classify_single {ws : List Word} (h : s.classify [word] = .ok ws) :
    ∃ w, ws = [w] ∧ w.text = word := by
  by_cases hdashes : word = "--"
  · subst hdashes
    cases h
    exact ⟨.dashes, rfl, rfl⟩
  · obtain ⟨w, ws', hw, hws, rfl⟩ := (classify_cons_iff hdashes).1 h
    cases hws
    exact ⟨w, rfl, text_of_classifyWord hw⟩

/-- Words are accepted if they can be classified and read and there is an operand. -/
theorem read_eq_ok_iff {words : List String} : s.read words = .ok c ↔
    ∃ ws, s.classify words = .ok ws ∧ s.readWords words.length {} ws = .ok c ∧
      c.operand.isSome = true := by
  unfold read
  cases s.classify words with
  | error m => simp
  | ok ws =>
    simp only [bind_eq_ok_iff, Except.ok.injEq, exists_eq_left']
    constructor
    · rintro ⟨taken, htaken, h⟩
      split at h
      · rename_i hoperand
        cases h
        exact ⟨htaken, hoperand⟩
      · cases h
    · rintro ⟨htaken, hoperand⟩
      exact ⟨c, htaken, if_pos hoperand⟩

/-- **A single word that is accepted is the operand.** -/
theorem read_single (hg : s.greedy = false) (hs : s.choices = none) (h : s.read [word] = .ok c) :
    c = { operand := some (word, []) } := by
  obtain ⟨ws, hclassify, hread, hoperand⟩ := read_eq_ok_iff.1 h
  obtain ⟨w, rfl, hw⟩ := classify_single hclassify
  simp only [List.length_cons, List.length_nil, Nat.zero_add] at hread
  cases w with
  | operand text =>
    obtain rfl : text = word := hw
    have htake : s.takeOperand {} [.operand text] =
        .ok (some ({ operand := some (text, []) }, [])) := by
      simp [takeOperand, splitOperand, hg, hs]
    simp only [readWords, htake, Except.bind, Except.ok.injEq] at hread
    exact hread.symm
  | dashes =>
    have hread : c = { unknown := ["--"] } := (Except.ok.inj hread).symm
    subst hread
    cases hoperand
  | option text o name value =>
    cases o with
    | none =>
      simp only [readWords, Except.ok.injEq] at hread
      subst hread
      cases hoperand
    | some o =>
      simp only [readWords, bind_eq_ok_iff] at hread
      obtain ⟨⟨taken, rest⟩, htake, hread⟩ := hread
      obtain ⟨rfl, htaken⟩ := takeOption_last htake
      cases hread
      rw [htaken] at hoperand
      cases hoperand

theorem classifyWord_of_plain (h : word.toList.head? ≠ some '-') :
    s.classifyWord word = .ok (.operand word) := by
  rw [classifyWord, if_pos h]

/-- An operand that takes the words after it along takes a single word as it was written. -/
theorem read_greedy {choices : List String} (hg : s.greedy = true) (hs : s.choices = some choices)
    (hname : name ∈ choices) (hplain : name.toList.head? ≠ some '-')
    (h : s.read [name, word] = .ok c) : c = { operand := some (name, [word]) } := by
  have hdashes : name ≠ "--" := by
    rintro rfl
    exact hplain (by decide)
  obtain ⟨ws, hclassify, hread, -⟩ := read_eq_ok_iff.1 h
  obtain ⟨w₀, ws', hw₀, hws', rfl⟩ := (classify_cons_iff hdashes).1 hclassify
  rw [classifyWord_of_plain hplain] at hw₀
  cases hw₀
  obtain ⟨w, rfl, hw⟩ := classify_single hws'
  have htake : s.takeOperand {} [.operand name, w] =
      .ok (some ({ operand := some (name, [word]) }, [])) := by
    simp [takeOperand, splitOperand, hg, hs, hname, hw]
  simp only [List.length_cons, List.length_nil, Nat.zero_add, Nat.reduceAdd, readWords, htake,
    Except.bind, Except.ok.injEq] at hread
  exact hread.symm

end Syntax

namespace Command

/-- What is asked for with the name of a command and the file of a flow. -/
inductive Plain (path : String) : String → Command → Prop
  | validate : Plain path "validate" (.validate path)
  | run : Plain path "run" (.run path EventKind.newOrder.name "\x7b\x7d" none false)

/-- **Where a single word follows the name of a command and is accepted, it is the file.** -/
theorem plain_of_read {name path : String} {command : Command}
    (hname : name = "validate" ∨ name = "run") (h : Command.read [name, path] = .ok command) :
    Plain path name command := by
  unfold Command.read at h
  split at h
  · cases h
  · rename_i outer houter
    have hchoice : name ∈ ["validate", "run"] := by simpa using hname
    have hplain : name.toList.head? ≠ some '-' := by
      rcases hname with rfl | rfl <;> decide
    obtain rfl := Syntax.read_greedy rfl rfl hchoice hplain houter
    dsimp only at h
    split at h
    · cases h
    · rename_i inner hinner
      have hsingle : inner = { operand := some (path, []) } := by
        split at hinner <;> exact Syntax.read_single rfl rfl hinner
      subst hsingle
      dsimp only [List.append_nil] at h
      cases h
      rcases hname with rfl | rfl
      · exact .validate
      · exact .run

end Command

end Campaign.CommandLine
