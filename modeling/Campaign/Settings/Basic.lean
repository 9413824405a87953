import Campaign.Schema.Scalar
import Campaign.Sender.Basic
import Campaign.Settings.Assignments
import Campaign.Text.Split
import Campaign.Text.Uppercase
import Campaign.Text.Utf8
/-!
# Settings

Settings are taken from variables of the process and from a file of assignments; a variable goes
before an assignment, and names may be written in letters of either case.  What is set nowhere has
a default.

* `Settings.read` reads the settings of every program, `ServerSettings.read` those of a server;
* `Settings.sender` is the sender they ask for.
-/
namespace Campaign

/-- Where settings come from. -/
structure Environment where
  /-- The variables of the process. -/
  process : List (String × String) := []
  /-- The assignments of a file. -/
  assignments : List Assignments.Assignment := []

namespace Environment

/-- An environment with a file of assignments, if there is one. -/
def load (process : List (String × String)) (file : Option (List UInt8)) :
    Except Utf8.Fault Environment :=
  match file with
  | none => .ok { process }
  | some octets => (Text.ofFile octets).map fun text =>
    { process, assignments := Assignments.resolve process (Assignments.parse text) }

/-- The last entry whose name is the given one in letters of either case. -/
def last? {α : Type} (name : String) (entries : List (String × α)) : Option α :=
  let lower (s : String) : List Char := s.toList.map Char.toLower
  (entries.reverse.find? fun e => lower e.1 = lower name).map Prod.snd

/-- The value of a name. -/
def value? (e : Environment) (name : String) : Option String :=
  match last? name e.process with
  | some value => some value
  | none => (last? name e.assignments).join

/-- The values of some names as a document. -/
def document (e : Environment) (names : List String) : Value :=
  .object (names.filterMap fun name => (e.value? name).map fun value => (name, .text value))

end Environment

/-- The settings of every program. -/
structure Settings where
  /-- The name of the threshold of the log. -/
  logLevel : String := "INFO"
  /-- Where messages are posted; a blank address means that they are not. -/
  webhookUrl : String := ""
  webhookToken : String := ""
  /-- How many seconds to wait for an answer. -/
  timeout : Binary64 := Binary64.ofInt 10
  channel : String := "whatsapp"
  /-- How many milliseconds a mock sender takes. -/
  mockDelay : Int := 100

namespace Settings

/-- The names of the settings. -/
def names : List String :=
  ["LOG_LEVEL", "FLOWPILOT_MESSAGE_WEBHOOK_URL", "FLOWPILOT_MESSAGE_WEBHOOK_TOKEN",
    "FLOWPILOT_MESSAGE_TIMEOUT_SECONDS", "FLOWPILOT_MESSAGE_CHANNEL",
    "FLOWPILOT_MOCK_SEND_DELAY_MS"]

/-- The thresholds that may be set, in order. -/
def logLevels : List String := ["CRITICAL", "DEBUG", "ERROR", "INFO", "WARNING"]

/-- Reads the name of a threshold, in letters of either case. -/
def readLogLevel : Schema.Reader String := fun v =>
  (Schema.text v).andThen fun s =>
    let name := Text.uppercase s
    if name ∈ logLevels then .valid name
    else .fail (.rule ("LOG_LEVEL must be one of " ++ (Value.list (logLevels.map .text)).literal)) v

/-- Reads a number of seconds, which must be positive. -/
def readTimeout : Schema.Reader Binary64 := fun v =>
  (Schema.number v).andThen fun x =>
    if (Number.float x).greater (.int 0) then .valid x else .fail (.notAbove 0) v

/-- Reads a number of milliseconds, which must not be negative. -/
def readMockDelay : Schema.Reader Int := fun v =>
  (Schema.integer v).andThen fun i => if 0 ≤ i then .valid i else .fail (.below 0) v

/-- Reads settings from the fields of a document. -/
def ofRecord (r : Schema.Record) : Schema.Checked Settings :=
  let standard : Settings := {}
  Settings.mk <$> r.optional (.plain "LOG_LEVEL") standard.logLevel readLogLevel
    <*> r.optional (.plain "FLOWPILOT_MESSAGE_WEBHOOK_URL") standard.webhookUrl Schema.text
    <*> r.optional (.plain "FLOWPILOT_MESSAGE_WEBHOOK_TOKEN") standard.webhookToken Schema.text
    <*> r.optional (.plain "FLOWPILOT_MESSAGE_TIMEOUT_SECONDS") standard.timeout readTimeout
    <*> r.optional (.plain "FLOWPILOT_MESSAGE_CHANNEL") standard.channel Schema.text
    <*> r.optional (.plain "FLOWPILOT_MOCK_SEND_DELAY_MS") standard.mockDelay readMockDelay

/-- Reads the settings. -/
def read (e : Environment) : Schema.Checked Settings :=
  Schema.record .document "AutomationSettings" ofRecord (e.document names)

/-- The sender that is asked for: a webhook where there is an address, with the answers it will get,
and a mock sender otherwise. -/
def sender (s : Settings) (answers : List Answer) : Sender :=
  if Text.blankText s.webhookUrl then .mock s.channel (s.mockDelay * 1000)
  else .webhook
    { url := Text.trim s.webhookUrl
      token := s.webhookToken
      channel := s.channel
      timeout := .float s.timeout } answers []

end Settings

/-- The settings of a server. -/
structure ServerSettings extends Settings where
  /-- The origins from which pages may send requests, with commas between them. -/
  origins : String := "http://localhost:3000,http://127.0.0.1:3000"

namespace ServerSettings

/-- The name of the setting for origins. -/
def originsName : String := "FLOWPILOT_CORS_ORIGINS"

/-- Reads the settings. -/
def read (e : Environment) : Schema.Checked ServerSettings :=
  Schema.record .document "ServerSettings"
    (fun r =>
      ServerSettings.mk <$> Settings.ofRecord r
        <*> r.optional (.plain originsName) ({} : ServerSettings).origins Schema.text)
    (e.document (Settings.names ++ [originsName]))

/-- The origins, one by one. -/
def originList (s : ServerSettings) : List String :=
  ((Text.pieces ',' s.origins).map Text.trim).filter fun origin => !origin.isEmpty

end ServerSettings

end Campaign
