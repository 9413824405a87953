/-!
# Splitting text

`split` cuts a text at every occurrence of a separator; there is always one piece more than there
are separators.  `join` puts pieces together again.
-/
namespace Campaign.Text

/-- The pieces of a text between the occurrences of a separator. -/
def split (separator : Char) : List Char → List (List Char)
  | [] => [[]]
  | c :: cs =>
    if c = separator then [] :: split separator cs
    else match split separator cs with
      | piece :: pieces => (c :: piece) :: pieces
      | [] => [[c]]

/-- The pieces of a string between the occurrences of a separator. -/
def pieces (separator : Char) (s : String) : List String :=
  (split separator s.toList).map String.ofList

/-- Cuts a text at the first occurrence of a character: what stands before it, and what stands
after it where it occurs. -/
def cut (separator : Char) : List Char → List Char × Option (List Char)
  | [] => ([], none)
  | c :: cs =>
    if c = separator then ([], some cs)
    else match cut separator cs with
      | (before, after) => (c :: before, after)

/-- Texts joined with a separator between them. -/
def join (separator : String) (parts : List String) : String := separator.intercalate parts

theorem split_ne_nil (separator : Char) (cs : List Char) : split separator cs ≠ [] := by
  cases cs with
  | nil => simp [split]
  | cons c cs =>
    simp only [split]
    split
    · simp
    · split <;> simp

end Campaign.Text
