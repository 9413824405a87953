import Campaign.Text.Quoted
import Campaign.Text.Split
/-!
# Paths and files

A path is kept without superfluous parts: `./a//b` is `a/b`.  A `Directory` holds files, each with
its octets, and further directories; what cannot be read from it is a `Trouble`.
-/
namespace Campaign.CommandLine

/-- The names on a path, in order; empty ones and `.` do not count. -/
def namesOn (path : String) : List String :=
  (Text.pieces '/' path).filter fun name => !name.isEmpty && name != "."

/-- The start of a path that does not begin at the working directory; two slashes are kept. -/
def rootOf (path : String) : String :=
  match path.toList with
  | '/' :: '/' :: '/' :: _ => "/"
  | '/' :: '/' :: _ => "//"
  | '/' :: _ => "/"
  | _ => ""

/-- A path without superfluous parts. -/
def tidy (path : String) : String :=
  let tidied := rootOf path ++ Text.join "/" (namesOn path)
  if tidied.isEmpty then "." else tidied

/-- Why a file cannot be read. -/
inductive Trouble where
  | missing
  | notDirectory
  | directory
  | longName
  /-- The system says so in its own words. -/
  | other (text : String)
  deriving DecidableEq

/-- What is said about a trouble with a path. -/
def Trouble.message (path : String) : Trouble → String
  | missing => "[Errno 2] No such file or directory: " ++ Text.quoted path
  | notDirectory => "[Errno 20] Not a directory: " ++ Text.quoted path
  | directory => "[Errno 21] Is a directory: " ++ Text.quoted path
  | longName => "[Errno 36] File name too long: " ++ Text.quoted path
  | other text => text

/-- The files below a directory by their paths; a directory below it has no octets. -/
structure Directory where
  entries : List (String × Option (List UInt8))

namespace Directory

/-- What is at a place below the directory, given by the names that lead to it: nothing, or a file,
or a directory, which may be there only because something is below it. -/
def entry? (d : Directory) (names : List String) : Option (Option (List UInt8)) :=
  match names with
  | [] => some none
  | names =>
    match d.entries.find? fun e => namesOn e.1 = names with
    | some (_, content) => some content
    | none =>
      if d.entries.any fun e => names.isPrefixOf (namesOn e.1) then some none else none

/-- Walks down to a file; `above` is where the walk is, if it has not left the directory. -/
def walk (d : Directory) (above : List String) : List String → Except Trouble (List UInt8)
  | [] => .error .directory
  | name :: rest =>
    if 255 < name.utf8ByteSize then .error .longName
    else if name = ".." then
      if above.isEmpty then (if rest.isEmpty then .error .directory else .error .missing)
      else d.walk above.dropLast rest
    else
      let here := above ++ [name]
      match d.entry? here, rest with
      | none, _ => .error .missing
      | some none, rest => d.walk here rest
      | some (some octets), [] => .ok octets
      | some (some _), _ => .error .notDirectory

/-- The octets of the file at a path. -/
def file (d : Directory) (path : String) : Except Trouble (List UInt8) :=
  if (rootOf path).isEmpty then d.walk [] (namesOn path)
  else if (namesOn path).isEmpty then .error .directory
  else .error .missing

end Directory

end Campaign.CommandLine
