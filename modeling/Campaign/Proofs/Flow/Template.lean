import Campaign.Flow.Template
import Mathlib.Data.List.TakeWhile
/-!
# Templates part by part

A placeholder is a path between two pairs of braces, with blanks around it if one likes
(`Placeholder`); `Template.placeholder?` finds one at the start of a text just if it is there
(`placeholder?_append`, `exists_placeholder`).

There is no opening brace inside a placeholder, so none that begins in front of two opening braces
reaches beyond them (`placeholder?_append_braces`).  A text may therefore be cut in front of any
placeholder and behind it, and its parts be parsed one by one (`parse_append_placeholder`).

`Template.composes` says what this makes of rendering.
-/
namespace Campaign

/-- A code point in a set is in one of its ranges. -/
theorem Text.CodePoints.exists_of_contains {ranges : CodePoints} {n : Nat}
    (h : ranges.contains n = true) : ∃ r ∈ ranges, r.1 ≤ n ∧ n ≤ r.2 := by
  induction ranges with
  | nil => cases h
  | cons r ranges ih =>
    obtain ⟨low, high⟩ := r
    rw [contains] at h
    split at h
    · rename_i hhigh
      exact ⟨_, List.mem_cons_self, of_decide_eq_true h, hhigh⟩
    · obtain ⟨r, hr, hn⟩ := ih h
      exact ⟨r, List.mem_cons_of_mem _ hr, hn⟩

namespace Template

variable {s t cs path rest : List Char}

/-! ## Characters -/

/-- Whether the character of a code point may stand in a path. -/
def isPathCode (n : Nat) : Bool :=
  n == 0x2E || n == 0x2D || n == 0x5F || Text.alphanumerics.contains n

theorem isPathChar_eq (c : Char) : isPathChar c = isPathCode c.toNat := by
  have hcode (d : Char) : (c == d) = (c.toNat == d.toNat) := by
    rw [Bool.eq_iff_iff, beq_iff_eq, beq_iff_eq, Char.toNat_inj]
  simp only [isPathChar, isPathCode, Text.isWord, hcode, Bool.or_assoc]
  rfl

/-- A blank has no place in a path. -/
theorem isPathChar_of_isBlank {c : Char} (h : Text.isBlank c = true) : isPathChar c = false := by
  have hranges : ∀ r ∈ Text.blanks, ∀ i < 12, r.1 + i ≤ r.2 → isPathCode (r.1 + i) = false := by
    decide +kernel
  have hlength : ∀ r ∈ Text.blanks, r.2 < r.1 + 12 := by decide
  obtain ⟨r, hr, hlow, hhigh⟩ := Text.CodePoints.exists_of_contains h
  have hlt := hlength r hr
  have hcode := hranges r hr (c.toNat - r.1) (by omega) (by omega)
  rwa [Nat.add_sub_cancel' hlow, ← isPathChar_eq] at hcode

theorem isBlank_of_isPathChar {c : Char} (h : isPathChar c = true) : Text.isBlank c = false := by
  cases hblank : Text.isBlank c with
  | false => rfl
  | true =>
    rw [isPathChar_of_isBlank hblank] at h
    cases h

/-! ## Placeholders -/

/-- A placeholder: a path between two pairs of braces, with blanks around it if one likes. -/
structure Placeholder where
  before : List Char
  path : List Char
  after : List Char
  before_blank : ∀ c ∈ before, Text.isBlank c = true
  path_ne_nil : path ≠ []
  path_chars : ∀ c ∈ path, isPathChar c = true
  after_blank : ∀ c ∈ after, Text.isBlank c = true

/-- A placeholder as it is written. -/
def Placeholder.written (p : Placeholder) : List Char :=
  '{' :: '{' :: (p.before ++ (p.path ++ (p.after ++ ['}', '}'])))

theorem closing?_eq_some_iff : closing? cs = some rest ↔ cs = '}' :: '}' :: rest := by
  unfold closing?
  split
  · simp [eq_comm]
  · rename_i hnot
    refine iff_of_false (by simp) fun heq => hnot rest heq

theorem body?_eq_some_iff : body? cs = some (path, rest) ↔
    path ≠ [] ∧ (cs.dropWhile Text.isBlank).takeWhile isPathChar = path ∧
      ((cs.dropWhile Text.isBlank).dropWhile isPathChar).dropWhile Text.isBlank =
        '}' :: '}' :: rest := by
  simp only [body?, ← closing?_eq_some_iff]
  split
  · rename_i hnil
    rw [hnil]
    refine iff_of_false (by simp) ?_
    rintro ⟨hne, heq, -⟩
    exact hne heq.symm
  · rename_i hne
    rw [Option.map_eq_some_iff]
    constructor
    · rintro ⟨rest', hclosing, heq⟩
      obtain ⟨rfl, rfl⟩ := Prod.mk.inj heq
      exact ⟨hne, rfl, hclosing⟩
    · rintro ⟨-, rfl, hclosing⟩
      exact ⟨rest, hclosing, rfl⟩

theorem placeholder?_eq_some_iff : placeholder? cs = some (path, rest) ↔
    ∃ body, cs = '{' :: '{' :: body ∧ body? body = some (path, rest) := by
  unfold placeholder?
  split
  · rename_i body
    simp
  · rename_i hnot
    refine iff_of_false (by simp) ?_
    rintro ⟨body, heq, -⟩
    exact hnot body heq

/-- A run of characters is taken, and nothing of what follows it if that begins with another. -/
theorem span_run {q : Char → Bool} {run rest : List Char} (hrun : ∀ c ∈ run, q c = true)
    (hrest : ∀ c ∈ rest.head?, q c = false) :
    (run ++ rest).takeWhile q = run ∧ (run ++ rest).dropWhile q = rest := by
  rw [List.takeWhile_append_of_pos hrun, List.dropWhile_append_of_pos hrun]
  cases rest with
  | nil => simp
  | cons c rest =>
    have hc : q c = false := hrest c rfl
    simp [hc]

/-- **A placeholder is found where it is written.** -/
theorem placeholder?_append (p : Placeholder) (t : List Char) :
    placeholder? (p.written ++ t) = some (p.path, t) := by
  have hfirst : ∀ c ∈ (p.path ++ (p.after ++ '}' :: '}' :: t)).head?, Text.isBlank c = false := by
    intro c hc
    cases hpath : p.path with
    | nil => exact absurd hpath p.path_ne_nil
    | cons d path =>
      rw [hpath] at hc
      cases hc
      exact isBlank_of_isPathChar (p.path_chars c (hpath ▸ List.mem_cons_self))
  have hnext : ∀ c ∈ (p.after ++ '}' :: '}' :: t).head?, isPathChar c = false := by
    intro c hc
    cases hafter : p.after with
    | nil =>
      rw [hafter] at hc
      cases hc
      decide +kernel
    | cons d after =>
      rw [hafter] at hc
      cases hc
      exact isPathChar_of_isBlank (p.after_blank c (hafter ▸ List.mem_cons_self))
  have hlast : ∀ c ∈ ('}' :: '}' :: t).head?, Text.isBlank c = false := by
    rintro c ⟨⟩
    decide
  obtain ⟨-, hbefore⟩ := span_run p.before_blank hfirst
  obtain ⟨hpath, hafter⟩ := span_run p.path_chars hnext
  obtain ⟨-, hclosing⟩ := span_run p.after_blank hlast
  refine placeholder?_eq_some_iff.2 ⟨p.before ++ (p.path ++ (p.after ++ '}' :: '}' :: t)),
    by simp [Placeholder.written], body?_eq_some_iff.2 ⟨p.path_ne_nil, ?_⟩⟩
  rw [hbefore, hpath, hafter, hclosing]
  exact ⟨rfl, rfl⟩

/-- **What is found at the start of a text is written there.** -/
theorem exists_placeholder (h : placeholder? cs = some (path, rest)) :
    ∃ p : Placeholder, p.path = path ∧ cs = p.written ++ rest := by
  obtain ⟨body, rfl, hbody⟩ := placeholder?_eq_some_iff.1 h
  obtain ⟨hne, rfl, hclosing⟩ := body?_eq_some_iff.1 hbody
  refine ⟨⟨body.takeWhile Text.isBlank, _,
    ((body.dropWhile Text.isBlank).dropWhile isPathChar).takeWhile Text.isBlank,
    fun c => List.mem_takeWhile_imp, hne, fun c => List.mem_takeWhile_imp,
    fun c => List.mem_takeWhile_imp⟩, rfl, ?_⟩
  simp only [Placeholder.written, List.cons_append, List.append_assoc, List.nil_append,
    ← hclosing, List.takeWhile_append_dropWhile]

/-! ## Texts cut in front of opening braces -/

/-- Dropping and taking stop at a character of another kind, if not before. -/
theorem span_stop {q : Char → Bool} {stop : Char} (h : q stop = false) (cs rest : List Char) :
    (cs ++ stop :: rest).takeWhile q = cs.takeWhile q ∧
      (cs ++ stop :: rest).dropWhile q = cs.dropWhile q ++ stop :: rest := by
  induction cs with
  | nil => simp [h]
  | cons c cs ih =>
    by_cases hc : q c = true
    · simp [hc, ih]
    · simp [hc]

/-- A brace that opens does not close. -/
theorem closing?_append_brace (cs rest : List Char) :
    closing? (cs ++ '{' :: rest) = (closing? cs).map (· ++ '{' :: rest) := by
  ext after
  rw [closing?_eq_some_iff, Option.map_eq_some_iff]
  simp only [closing?_eq_some_iff]
  match cs with
  | [] => simp
  | [c] => simp
  | c :: d :: cs => simp [and_assoc]

/-- What follows opening braces ends in front of the next opening brace, if at all. -/
theorem body?_append_brace (cs rest : List Char) : body? (cs ++ '{' :: rest) =
    (body? cs).map fun found => (found.1, found.2 ++ '{' :: rest) := by
  have hblank : Text.isBlank '{' = false := by decide
  have hchar : isPathChar '{' = false := by decide +kernel
  unfold body?
  simp only [(span_stop hblank _ _).2, (span_stop hchar _ _).1, (span_stop hchar _ _).2,
    closing?_append_brace]
  split
  · rfl
  · simp [Function.comp_def]

/-- **A placeholder does not reach beyond opening braces in front of which it begins.** -/
theorem placeholder?_append_braces (hs : s ≠ []) (t : List Char) :
    placeholder? (s ++ '{' :: '{' :: t) =
      (placeholder? s).map fun found => (found.1, found.2 ++ '{' :: '{' :: t) := by
  match s with
  | [] => exact absurd rfl hs
  | [c] =>
    -- the first of the two braces may open with the character in front, the second opens no path
    have hnone : body? ('{' :: t) = none := body?_append_brace [] t
    by_cases hc : c = '{'
    · subst hc
      exact hnone
    · simp [placeholder?, hc]
  | c :: d :: cs =>
    by_cases hcd : c = '{' ∧ d = '{'
    · obtain ⟨rfl, rfl⟩ := hcd
      exact body?_append_brace cs ('{' :: t)
    · have hnone (cs : List Char) : placeholder? (c :: d :: cs) = none := by
        rw [Option.eq_none_iff_forall_ne_some]
        rintro ⟨path, rest⟩ hfound
        obtain ⟨body, heq, -⟩ := placeholder?_eq_some_iff.1 hfound
        cases heq
        exact hcd ⟨rfl, rfl⟩
      rw [List.cons_append, List.cons_append, hnone, hnone]
      rfl

/-! ## Parsing by parts -/

theorem parse_nil : parse [] = [] := by
  rw [parse]
  rfl

theorem parse_of_found (h : placeholder? cs = some (path, rest)) :
    parse cs = .placeholder path (cs.take (cs.length - rest.length)) :: parse rest := by
  rw [parse]
  split
  · rename_i path' rest' hfound
    rw [h] at hfound
    cases hfound
    rfl
  · rename_i hnone
    rw [h] at hnone
    cases hnone

theorem parse_cons {c : Char} (h : placeholder? (c :: cs) = none) :
    parse (c :: cs) = .char c :: parse cs := by
  rw [parse]
  split
  · rename_i path' rest' hfound
    rw [h] at hfound
    cases hfound
  · rfl

/-- **A text may be cut in front of opening braces.** -/
theorem parse_append_braces (s t : List Char) :
    parse (s ++ '{' :: '{' :: t) = parse s ++ parse ('{' :: '{' :: t) := by
  induction s using parse.induct with
  | case1 s path rest hfound ih =>
    have hs : s ≠ [] := by
      rintro rfl
      cases hfound
    have hfound' := placeholder?_append_braces hs t
    rw [hfound, Option.map_some] at hfound'
    have hlt := length_placeholder hfound
    have hlength : (s ++ '{' :: '{' :: t).length - (rest ++ '{' :: '{' :: t).length =
        s.length - rest.length := by
      simp only [List.length_append]
      omega
    rw [parse_of_found hfound', parse_of_found hfound, hlength,
      List.take_append_of_le_length (Nat.sub_le _ _), ih, List.cons_append]
  | case2 hnone => rw [parse_nil, List.nil_append, List.nil_append]
  | case3 c s hnone ih =>
    have hnone' := placeholder?_append_braces (List.cons_ne_nil c s) t
    rw [hnone, Option.map_none, List.cons_append] at hnone'
    rw [List.cons_append, parse_cons hnone', parse_cons hnone, ih, List.cons_append]

/-- **A text may be cut in front of a placeholder and behind it.** -/
theorem parse_append_placeholder (s t : List Char) (p : Placeholder) :
    parse (s ++ (p.written ++ t)) = parse s ++ .placeholder p.path p.written :: parse t := by
  have hfound := placeholder?_append p t
  have hparse : parse (p.written ++ t) = .placeholder p.path p.written :: parse t := by
    rw [parse_of_found hfound]
    simp
  rw [← hparse]
  exact parse_append_braces s _

/-- A text without placeholders is parsed character by character. -/
theorem parse_of_bare (h : ∀ p : Placeholder, ¬ p.written <:+: cs) : parse cs = cs.map .char := by
  induction cs with
  | nil => exact parse_nil
  | cons c cs ih =>
    have hnone : placeholder? (c :: cs) = none := by
      rw [Option.eq_none_iff_forall_ne_some]
      rintro ⟨path, rest⟩ hfound
      obtain ⟨p, -, heq⟩ := exists_placeholder hfound
      exact h p ⟨[], rest, heq.symm⟩
    rw [parse_cons hnone, List.map_cons, ih fun p hp => h p (List.infix_cons hp)]

/-! ## Rendering by parts -/

variable {context : Value}

theorem renderPieces_append (ps qs : List Piece) :
    renderPieces context (ps ++ qs) = (do
      let a ← renderPieces context ps
      let b ← renderPieces context qs
      return a ++ b) := by
  induction ps with
  | nil =>
    rw [List.nil_append, renderPieces]
    cases renderPieces context qs <;> rfl
  | cons p ps ih =>
    rw [List.cons_append, renderPieces, renderPieces, ih]
    cases p.render context with
    | error fault => rfl
    | ok a =>
      cases renderPieces context ps with
      | error fault => rfl
      | ok b =>
        cases renderPieces context qs with
        | error fault => rfl
        | ok c => exact congrArg Except.ok (List.append_assoc a b c).symm

theorem renderPieces_chars (cs : List Char) :
    renderPieces context (cs.map .char) = .ok cs := by
  induction cs with
  | nil => rfl
  | cons c cs ih =>
    rw [List.map_cons, renderPieces, ih]
    rfl

/-- What stands in the place of a placeholder: the text of what its path leads to, or the
placeholder itself where that is nothing or null. -/
def standIn (written : String) : Option Value → String
  | none | some .null => written
  | some v => v.shown

theorem render_placeholder (path written : List Char) :
    (Piece.placeholder path written).render context = (context.resolve (String.ofList path)).map
      fun found => (standIn (String.ofList written) found).toList := by
  rw [Piece.render]
  cases context.resolve (String.ofList path) with
  | error fault => rfl
  | ok found =>
    cases found with
    | none => simp [standIn, Except.map]
    | some v => cases v <;> simp [standIn, Except.map]

/-- **Templates are rendered part by part.**  A placeholder is replaced by the text of what its
path leads to, whatever stands in front of it and behind it, and both of these are rendered as if
they stood alone: neither they nor the text put in can make up another placeholder with each other.
The first faulty path counts.  A text without placeholders stays as it is. -/
theorem composes (context : Value) :
    (∀ (s t : String) (p : Placeholder),
      render (s ++ String.ofList p.written ++ t) context = (do
        let front ← render s context
        let found ← context.resolve (String.ofList p.path)
        let back ← render t context
        return front ++ standIn (String.ofList p.written) found ++ back)) ∧
    ∀ text : String, (∀ p : Placeholder, ¬ p.written <:+: text.toList) →
      render text context = .ok text := by
  constructor
  · intro s t p
    have htext : (s ++ String.ofList p.written ++ t).toList =
        s.toList ++ (p.written ++ t.toList) := by simp
    simp only [render]
    rw [htext, parse_append_placeholder, renderPieces_append, renderPieces, render_placeholder]
    cases renderPieces context (parse s.toList) with
    | error fault => rfl
    | ok front =>
      cases context.resolve (String.ofList p.path) with
      | error fault => rfl
      | ok found =>
        cases renderPieces context (parse t.toList) with
        | error fault => rfl
        | ok back =>
          refine congrArg Except.ok ?_
          simp [String.ofList_append, String.append_assoc]
  · intro text hbare
    rw [render, parse_of_bare hbare, renderPieces_chars]
    exact congrArg Except.ok (String.ofList_toList)

/-- A placeholder ends with closing braces. -/
theorem Placeholder.closes (p : Placeholder) : ['}', '}'] <:+: p.written :=
  ⟨'{' :: '{' :: (p.before ++ (p.path ++ p.after)), [], by simp [written]⟩

/-- A customer whose name looks like a placeholder. -/
def braced : Value := .object [("name", .text "\x7b\x7bcity\x7d\x7d"), ("city", .text "Rome")]

/-- The placeholder for a name, with a number of blanks on either side. -/
def nameTag (blanks : Nat) : Placeholder where
  before := List.replicate blanks ' '
  path := ['n', 'a', 'm', 'e']
  after := List.replicate blanks ' '
  before_blank := fun c hc => List.eq_of_mem_replicate hc ▸ by decide
  path_ne_nil := by simp
  path_chars := List.all_eq_true.1 (by decide +kernel)
  after_blank := fun c hc => List.eq_of_mem_replicate hc ▸ by decide

/-- Braces around placeholders, and in what is put in their places, stay as they are. -/
theorem braced_composes :
    (∀ p : Placeholder, ¬ p.written <:+: "\x7d \x7b\x7bcity\x7d".toList) ∧
      render "\x7b\x7b a \x7b\x7bname\x7d\x7d\x7b\x7b\x7b name \x7d\x7d\x7d \x7b\x7bcity\x7d"
        braced =
          .ok "\x7b\x7b a \x7b\x7bcity\x7d\x7d\x7b\x7b\x7bcity\x7d\x7d\x7d \x7b\x7bcity\x7d" := by
  obtain ⟨hparts, hbare⟩ := composes braced
  have hunclosed (text : String) (h : ¬ ['}', '}'] <:+: text.toList) (p : Placeholder) :
      ¬ p.written <:+: text.toList := fun hp => h (p.closes.trans hp)
  have hname (blanks : Nat) : braced.resolve (String.ofList (nameTag blanks).path) =
      .ok (some (.text "\x7b\x7bcity\x7d\x7d")) := by
    simp [Value.resolve, Text.split, Value.follow, Value.step, braced, nameTag]
  have hend := hunclosed "\x7d \x7b\x7bcity\x7d" (by decide +kernel)
  have hfront := hparts "\x7b\x7b a " "\x7b" (nameTag 0)
  rw [hbare _ (hunclosed "\x7b\x7b a " (by decide +kernel)),
    hbare _ (hunclosed "\x7b" (by decide +kernel)), hname] at hfront
  have hwhole := hparts ("\x7b\x7b a " ++ String.ofList (nameTag 0).written ++ "\x7b")
    "\x7d \x7b\x7bcity\x7d" (nameTag 1)
  rw [hfront, hbare _ hend, hname] at hwhole
  have hread : "\x7b\x7b a \x7b\x7bname\x7d\x7d\x7b\x7b\x7b name \x7d\x7d\x7d \x7b\x7bcity\x7d" =
      "\x7b\x7b a " ++ String.ofList (nameTag 0).written ++ "\x7b" ++
        String.ofList (nameTag 1).written ++ "\x7d \x7b\x7bcity\x7d" := by decide +kernel
  have hshown : "\x7b\x7b a \x7b\x7bcity\x7d\x7d\x7b\x7b\x7bcity\x7d\x7d\x7d \x7b\x7bcity\x7d" =
      "\x7b\x7b a " ++ "\x7b\x7bcity\x7d\x7d" ++ "\x7b" ++ "\x7b\x7bcity\x7d\x7d" ++
        "\x7d \x7b\x7bcity\x7d" := by decide +kernel
  rw [hread, hshown]
  exact ⟨hend, hwhole⟩

end Template

end Campaign
