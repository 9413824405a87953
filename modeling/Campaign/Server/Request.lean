import Campaign.Json.Reader
import Campaign.Schema.Issue
import Campaign.Text.Blank
import Campaign.Text.Quoted
import Campaign.Text.Split
import Campaign.Text.Utf8
/-!
# Requests

A request has a method, a target, headers and a body.  The target is a path with a query behind `?`;
a percent sign with two hexadecimal digits stands for an octet there.

* `Request.path` and `Request.parameter?` read the target;
* `Request.content` reads the body as JSON.
-/
namespace Campaign

/-- A request to the server. -/
structure Request where
  method : String
  target : String
  headers : List (String × String) := []
  body : String := ""

namespace Request

/-- A header by its name, in letters of either case. -/
def header? (r : Request) (name : String) : Option String :=
  let lower (s : String) : List Char := s.toList.map Char.toLower
  (r.headers.find? fun h => lower h.1 = lower name).map Prod.snd

/-! ## Targets -/

/-- The octets that a text with percent signs stands for. -/
def octets : List Char → List UInt8
  | [] => []
  | '%' :: a :: b :: cs =>
    match Json.hexValue? a, Json.hexValue? b with
    | some high, some low => UInt8.ofNat (16 * high + low) :: octets cs
    | _, _ => 0x25 :: octets (a :: b :: cs)
  | c :: cs => Utf8.encode c.toString ++ octets cs

/-- The text that a text with percent signs stands for. -/
def plain (cs : List Char) : String := Utf8.mend (octets cs)

/-- The characters, other than ASCII letters and digits, that stand for themselves in an address. -/
def addressSigns : List Char := "-._~:/%#?=@[]!$&'()*+,;".toList

/-- An address in which octets with a percent sign stand for all characters that need it. -/
def escaped (address : String) : String :=
  String.ofList (address.toList.flatMap fun c =>
    if c.isAlphanum ∨ c ∈ addressSigns then [c]
    else (Utf8.encode c.toString).flatMap fun octet =>
      '%' :: (Text.hex 2 octet.toNat).map Char.toUpper)

/-- The path and the query of a target, not yet decoded. -/
def parts (r : Request) : List Char × Option (List Char) :=
  Text.cut '?' (r.target.toList.takeWhile (· != '#'))

/-- The path. -/
def path (r : Request) : String := plain r.parts.1

/-- The parameters in the query, in order. -/
def parameters (r : Request) : List (String × String) :=
  let spaced (cs : List Char) : List Char := cs.map fun c => if c = '+' then ' ' else c
  ((Text.split '&' (r.parts.2.getD [])).filter fun piece => !piece.isEmpty).map fun piece =>
    let (name, value) := Text.cut '=' piece
    (plain (spaced name), plain (spaced (value.getD [])))

/-- The last value of a parameter. -/
def parameter? (r : Request) (name : String) : Option String := r.parameters.reverse.lookup name

/-! ## Bodies -/

/-- Why a body is not JSON: the cause, and the number of characters in front. -/
structure Unreadable where
  cause : Json.Cause
  position : Nat

/-- Whether a body of a type is JSON; a body without a type is. -/
def isJsonType (type : String) : Bool :=
  let (essence, _) := Text.cut ';' type.toList
  let essence := String.ofList ((Text.trimChars essence).map Char.toLower)
  type.isEmpty || match Text.pieces '/' essence with
    | ["application", kind] => kind == "json" || kind.endsWith "+json"
    | _ => false

/-- The value in the body; no value if the body is empty.  A body of another type than JSON is a
text, and a byte order mark in front does not count. -/
def content (r : Request) : Except Unreadable (Option Value) :=
  if r.body.isEmpty then .ok none
  else if isJsonType ((r.header? "content-type").getD "application/json") then
    let text := match r.body.toList with
      | '\uFEFF' :: rest => String.ofList rest
      | cs => String.ofList cs
    match Json.parse text with
    | .ok v => .ok (some v)
    | .error e => .error ⟨e.cause, e.position⟩
  else .ok (some (.text r.body))

end Request

end Campaign
