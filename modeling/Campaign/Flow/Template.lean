import Campaign.Text.Blank
import Campaign.Text.Word
import Campaign.Value.Display
import Campaign.Value.Path
/-!
# Templates

A template is text with placeholders: a dotted path between two pairs of braces, with blanks
around it if one likes.  Rendering puts the text of the value at the path in its place; a
placeholder whose path leads nowhere, or to null, stays as it is.

`Template.parse` cuts a text into its pieces, taking the leftmost placeholder at every point, so
that what was put in is never looked at again.
-/
namespace Campaign.Template

/-- A piece of a template: a character that stands for itself, or a placeholder. -/
inductive Piece where
  | char (c : Char)
  /-- A placeholder, with its path and its text as written. -/
  | placeholder (path written : List Char)
  deriving DecidableEq

/-- Whether a character may stand in a path. -/
def isPathChar (c : Char) : Bool := c == '.' || c == '-' || Text.isWord c

/-- The closing braces at the start of a text. -/
def closing? : List Char → Option (List Char)
  | '}' :: '}' :: rest => some rest
  | _ => none

/-- What follows the opening braces of a placeholder: its path, and the text behind it. -/
def body? (cs : List Char) : Option (List Char × List Char) :=
  let cs := cs.dropWhile Text.isBlank
  match cs.takeWhile isPathChar with
  | [] => none
  | path => (closing? ((cs.dropWhile isPathChar).dropWhile Text.isBlank)).map fun rest =>
      (path, rest)

/-- The placeholder at the start of a text: its path, and the text behind it. -/
def placeholder? : List Char → Option (List Char × List Char)
  | '{' :: '{' :: cs => body? cs
  | _ => none

theorem length_dropWhile_le {p : Char → Bool} (cs : List Char) :
    (cs.dropWhile p).length ≤ cs.length := (List.dropWhile_sublist p).length_le

theorem length_closing {cs rest : List Char} (h : closing? cs = some rest) :
    rest.length < cs.length := by
  unfold closing? at h
  split at h
  · cases h; simp only [List.length_cons]; omega
  · cases h

theorem length_body {cs path rest : List Char} (h : body? cs = some (path, rest)) :
    rest.length < cs.length := by
  simp only [body?] at h
  split at h
  · cases h
  · obtain ⟨r, hr, he⟩ := Option.map_eq_some_iff.1 h
    cases he
    exact Nat.lt_of_lt_of_le (length_closing hr) (Nat.le_trans (length_dropWhile_le _)
      (Nat.le_trans (length_dropWhile_le _) (length_dropWhile_le _)))

theorem length_placeholder {cs path rest : List Char}
    (h : placeholder? cs = some (path, rest)) : rest.length < cs.length := by
  unfold placeholder? at h
  split at h
  · have := length_body h
    simp; omega
  · cases h

/-- The pieces of a text. -/
def parse (cs : List Char) : List Piece :=
  match _h : placeholder? cs with
  | some (path, rest) =>
    .placeholder path (cs.take (cs.length - rest.length)) :: parse rest
  | none =>
    match cs with
    | [] => []
    | c :: cs => .char c :: parse cs
termination_by cs.length
decreasing_by
  · exact length_placeholder _h
  · simp

/-- The text of a piece in a context. -/
def Piece.render (context : Value) : Piece → Except PathFault (List Char)
  | char c => .ok [c]
  | placeholder path written =>
    match context.resolve (String.ofList path) with
    | .ok none | .ok (some .null) => .ok written
    | .ok (some v) => .ok v.shown.toList
    | .error fault => .error fault

/-- The text of pieces in a context; the first faulty path counts. -/
def renderPieces (context : Value) : List Piece → Except PathFault (List Char)
  | [] => .ok []
  | p :: ps =>
    match p.render context with
    | .error fault => .error fault
    | .ok s =>
      match renderPieces context ps with
      | .error fault => .error fault
      | .ok rest => .ok (s ++ rest)

/-- A template rendered in a context. -/
def render (text : String) (context : Value) : Except PathFault String :=
  (renderPieces context (parse text.toList)).map String.ofList

end Campaign.Template
