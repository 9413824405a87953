import Campaign.Text.Quoted
/-!
# Failures

What can go wrong at a node: a message is not sent, a value is not what it should be, something is
looked up that is not there, or whatever else a sender may fail with.  A failure is of some kind,
which has a name and a place where it is at home, and says something or nothing.
-/
namespace Campaign

/-- Something that went wrong at a node. -/
structure Failure where
  /-- The name of the kind of failure. -/
  name : String
  /-- The place where the kind of failure is at home, with a point behind it; nothing for the kinds
  that are known everywhere. -/
  home : String
  /-- What the failure says, which may be nothing. -/
  text : String
  /-- Every kind has a name. -/
  named : name ≠ ""
  deriving DecidableEq

namespace Failure

/-- A message was not sent. -/
def send (text : String) : Failure where
  name := "MessageSendError"
  home := "flowpilot.automation.workflow.actions."
  text := text
  named := by decide

/-- A value is not what it should be. -/
def value (text : String) : Failure where
  name := "ValueError"
  home := ""
  text := text
  named := by decide

/-- There is nothing under a key. -/
def absent (key : String) : Failure where
  name := "KeyError"
  home := ""
  text := Text.quoted key
  named := by decide

/-- What the failure says, or its name where it says nothing. -/
def reason (f : Failure) : String := if f.text.isEmpty then f.name else f.text

/-- The name with the place where the kind of failure is at home. -/
def fullName (f : Failure) : String := f.home ++ f.name

/-- The failure on one line. -/
def line (f : Failure) : String :=
  if f.text.isEmpty then f.fullName else f.fullName ++ ": " ++ f.text

end Failure

end Campaign
