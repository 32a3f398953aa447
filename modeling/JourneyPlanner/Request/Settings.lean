import JourneyPlanner.Request.Params
import JourneyPlanner.Toml.Document

/-!
Settings: a TOML document in which every field is optional, and values of environment variables. The
fields of a document are read in its order, up to the first one that is refused or out of range.
-/

namespace JourneyPlanner

/-- What matters while a timetable is loaded. -/
structure LoadParams where
  /-- least transfer time of locations that give none -/
  defaultTransfer : Duration
deriving DecidableEq, Repr

def LoadParams.default : LoadParams := ⟨.clamp 2⟩

structure Settings where
  load : LoadParams
  request : RequestParams
  role : TimeRole
deriving DecidableEq, Repr

namespace Settings

open Toml

/-- Reads the fields of a record one after the other, in the order in which the value has them: a
table by name, an array from the first field on. -/
def record? {α : Type} (names : List String) (set : α → String → Value → OptionT Checked α)
    (base : α) : Value → OptionT Checked α
  | .table _ entries => entries.foldlM (fun r e => set r e.1 e.2) base
  | .array items => do
    let r ← (names.zip items).foldlM (fun r e => set r e.1 e.2) base
    if items.length ≤ names.length then return r else failure
  | _ => failure

def duration? (v : Value) : OptionT Checked Duration := do
  .mk (Duration.ofText? (← v.string?.getM))

def class? (v : Value) : Option ServiceClass := v.choice?.bind ServiceClass.named?

def role? (v : Value) : Option TimeRole := v.choice?.bind TimeRole.named?

def load? : Value → OptionT Checked LoadParams :=
  record? ["default_transfer_duration"] (fun p name v => match name with
    | "default_transfer_duration" => return { p with defaultTransfer := ← duration? v }
    | _ => failure) .default

def request? : Value → OptionT Checked RequestParams :=
  record? ["max_nb_of_transfers", "max_journey_duration", "require_bike_transport",
      "allowed_classes"] (fun p name v => match name with
    | "max_nb_of_transfers" => return { p with maxTransfers := ← (v.natural? 256).getM }
    | "max_journey_duration" => return { p with maxDuration := ← duration? v }
    | "require_bike_transport" => return { p with requireBikes := ← v.boolean?.getM }
    | "allowed_classes" =>
      return { p with allowedClasses := ← (v.array?.bind fun vs => vs.mapM class?).getM }
    | _ => failure) .default

def ofValue? : Value → OptionT Checked Settings :=
  record? ["launch_params", "request_params", "datetime_represent"] (fun s name v => match name with
    | "launch_params" => return { s with load := ← load? v }
    | "request_params" => return { s with request := ← request? v }
    | "datetime_represent" => return { s with role := ← (role? v).getM }
    | _ => failure) ⟨.default, .default, .departure⟩

/-- The settings of a document. The role may be given by a header alone. -/
def ofDocument? (d : Document) : OptionT Checked Settings :=
  match d.choice? "datetime_represent" with
  | some name => do return ⟨.default, .default, ← (TimeRole.named? name).getM⟩
  | none => do ofValue? (← d.table?.getM)

end Settings

/-- Why there are no settings. -/
inductive SettingsError where
  | malformed
  | fileUnreadable (path : String)
  | fileMalformed (path : String)
deriving DecidableEq, Repr

def SettingsError.message : SettingsError → String
  | malformed => "Could not parse the configuration"
  | fileUnreadable path => "Error opening config file " ++ path
  | fileMalformed path => "Error reading config file " ++ path

namespace Settings

open Toml

def ofText? (document : String) : OptionT Checked Settings := do
  ofDocument? (← (Document.read? document).getM)

/-- The settings of a text. -/
def parse (document : String) : Checked (Except SettingsError Settings) := do
  match ← (ofText? document).run with
  | some s => return .ok s
  | none => return .error .malformed

/-- The settings of a file, of which the content is given if the file can be read. -/
def ofFile (path : String) (content : Option String) : Checked (Except SettingsError Settings) :=
  match content with
  | none => return .error (.fileUnreadable path)
  | some document => do
    match ← parse document with
    | .ok s => return .ok s
    | .error _ => return .error (.fileMalformed path)

end Settings

/-- A value read from the environment: the fallback when the variable is not set, is not text, or is
not understood. -/
def fromEnvironment {α : Type} (fallback : α) (parse : String → Checked (Option α))
    (content : Option ByteArray) : Checked α :=
  match content.bind String.fromUTF8? with
  | some s => do return (← parse s).getD fallback
  | none => return fallback

/-- What matters while a timetable is loaded, from the variable that gives the transfer time. -/
def LoadParams.ofEnvironment (transfer : Option ByteArray) : Checked LoadParams := do
  return ⟨← fromEnvironment default.defaultTransfer Duration.ofText? transfer⟩

end JourneyPlanner
