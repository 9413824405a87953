import Campaign.Text.Quoted
/-!
# UTF-8

The octets of a text.  A character has one octet or begins with an octet that fixes how many follow
and which the next may be; those after it are from `0x80` to `0xBF`.

`Utf8.decode` reads a text, or names the first octets that are in the way; `Utf8.mend` marks them
and goes on.
-/
namespace Campaign.Utf8

/-- Why octets are in the way. -/
inductive Reason where
  /-- No character begins with the octet. -/
  | start
  /-- A character is broken off by what follows. -/
  | continuation
  /-- A character is broken off by the end. -/
  | ended
  deriving DecidableEq

/-- The text of a reason. -/
def Reason.text : Reason → String
  | start => "invalid start byte"
  | continuation => "invalid continuation byte"
  | ended => "unexpected end of data"

/-- Octets that are in the way: where they are, the first of them, their number, and the reason. -/
structure Fault where
  position : Nat
  first : UInt8
  count : Nat
  reason : Reason
  deriving DecidableEq

/-- What a fault says. -/
def Fault.message (f : Fault) : String :=
  "'utf-8' codec can't decode byte" ++
    (if f.count = 1 then
      " 0x" ++ String.ofList (Text.hex 2 f.first.toNat) ++ " in position " ++ toString f.position
    else "s in position " ++ toString f.position ++ "-" ++ toString (f.position + f.count - 1)) ++
    ": " ++ f.reason.text

/-- How a character goes on after its first octet: what the octet contributes, how many octets
follow, and the least and the greatest that may be next. -/
def shape? (octet : Nat) : Option (Nat × Nat × Nat × Nat) :=
  if octet < 0x80 then some (octet, 0, 0, 0)
  else if octet < 0xC2 then none
  else if octet ≤ 0xDF then some (octet - 0xC0, 1, 0x80, 0xBF)
  else if octet = 0xE0 then some (0, 2, 0xA0, 0xBF)
  else if octet = 0xED then some (0xD, 2, 0x80, 0x9F)
  else if octet ≤ 0xEF then some (octet - 0xE0, 2, 0x80, 0xBF)
  else if octet = 0xF0 then some (0, 3, 0x90, 0xBF)
  else if octet ≤ 0xF3 then some (octet - 0xF0, 3, 0x80, 0xBF)
  else if octet = 0xF4 then some (4, 3, 0x80, 0x8F)
  else none

/-- Reads the octets that follow the first; `taken` counts those that were read. -/
def readTail (code taken : Nat) : Nat → Nat → Nat → List UInt8 →
    Except (Nat × Reason) (Nat × List UInt8)
  | 0, _, _, rest => .ok (code, rest)
  | _ + 1, _, _, [] => .error (taken, .ended)
  | count + 1, low, high, b :: rest =>
    if low ≤ b.toNat ∧ b.toNat ≤ high then
      readTail (code * 64 + (b.toNat - 0x80)) (taken + 1) count 0x80 0xBF rest
    else .error (taken, .continuation)

/-- Reads one character that begins with an octet: the character, the number of octets that follow,
and the rest; or the number of octets that are in the way. -/
def readChar (first : UInt8) (rest : List UInt8) :
    Except (Nat × Reason) (Char × Nat × List UInt8) :=
  match shape? first.toNat with
  | none => .error (1, .start)
  | some (code, count, low, high) =>
    (readTail code 1 count low high rest).map fun (code, rest) => (Char.ofNat code, count, rest)

/-- Reads the characters from a position on; `fuel` is at least the number of octets. -/
def decodeFrom : Nat → Nat → List UInt8 → Except Fault (List Char)
  | fuel + 1, position, b :: rest =>
    match readChar b rest with
    | .error (taken, reason) => .error ⟨position, b, taken, reason⟩
    | .ok (c, count, rest) => (decodeFrom fuel (position + 1 + count) rest).map (c :: ·)
  | _, _, _ => .ok []

/-- Reads a text. -/
def decode (octets : List UInt8) : Except Fault String :=
  (decodeFrom octets.length 0 octets).map String.ofList

/-- Reads characters and puts a mark in the place of octets that are in the way; `fuel` is at least
the number of octets. -/
def mendFrom : Nat → List UInt8 → List Char
  | fuel + 1, b :: rest =>
    match readChar b rest with
    | .error (taken, _) => '\uFFFD' :: mendFrom fuel (rest.drop (taken - 1))
    | .ok (c, _, rest) => c :: mendFrom fuel rest
  | _, _ => []

/-- Reads a text and puts a mark in the place of octets that are in the way. -/
def mend (octets : List UInt8) : String := String.ofList (mendFrom octets.length octets)

/-- The octets of a text. -/
def encode (s : String) : List UInt8 := s.toUTF8.toList

end Campaign.Utf8

namespace Campaign.Text

/-- Lets every line end with a line feed: a carriage return before it is dropped, and one that
stands alone is replaced. -/
def unifyLines : List Char → List Char
  | '\r' :: '\n' :: cs => '\n' :: unifyLines cs
  | '\r' :: cs => '\n' :: unifyLines cs
  | c :: cs => c :: unifyLines cs
  | [] => []

/-- The text of a file. -/
def ofFile (octets : List UInt8) : Except Utf8.Fault String :=
  (Utf8.decode octets).map fun s => String.ofList (unifyLines s.toList)

end Campaign.Text
