import JourneyPlanner.Request.Params

/-!
The parameters of a request from the arguments of a command. An option is named after two dashes and
takes its value from the next argument, or after an equals sign; an argument that begins with a dash
is never a value, a lone dash apart. A number of transfers or a duration that is named without a
value keeps its default. Classes may be given several at a time, and several times.
-/

namespace JourneyPlanner

/-- Why a command is not carried out. -/
inductive ArgumentsError where
  | unknownArgument
  | helpDisplayed
  | versionDisplayed
  | emptyValue
  | valueValidation
  | unexpectedMultipleUsage
deriving DecidableEq, Repr

namespace Arguments

inductive Param where
  | maxTransfers
  | maxDuration
  | requireBikes
  | allowedClasses
deriving DecidableEq, Repr

namespace Param

def name : Param → String
  | maxTransfers => "max_nb_of_transfers"
  | maxDuration => "max_journey_duration"
  | requireBikes => "require_bike_transport"
  | allowedClasses => "allowed_classes"

def all : List Param := [maxTransfers, maxDuration, requireBikes, allowedClasses]

def named? (s : List Char) : Option Param := all.find? (·.name.toList == s)

def takesValue (p : Param) : Bool := p != requireBikes

def isRepeatable (p : Param) : Bool := p == allowedClasses

def hasDefault (p : Param) : Bool := p == maxTransfers || p == maxDuration

/-- A text is a value of the option. -/
def accepts (p : Param) (value : String) : Checked Bool :=
  match p with
  | maxTransfers => return (byte? value).isSome
  | maxDuration => do return (← Duration.ofText? value).isSome
  | requireBikes => return false
  | allowedClasses => return (ServiceClass.named? value).isSome

end Param

/-- What has been read of a command. -/
structure Reading where
  /-- the options named, each as often as it was named -/
  named : List Param
  values : List (Param × String)
  /-- the option that may take the next argument as its value -/
  pending : Option Param
  /-- two dashes alone were met: no option follows -/
  optionsOver : Bool

namespace Reading

def start : Reading := ⟨[], [], none, false⟩

def valuesOf (r : Reading) (p : Param) : List String :=
  (r.values.filter (·.1 == p)).map (·.2)

/-- An option is named, with the text from its equals sign on, if there is one. -/
def name (r : Reading) (p : Param) (value : Option (List Char)) : Reading :=
  let r := { r with named := r.named ++ [p], pending := none }
  if p.takesValue then
    match value with
    | some v => { r with values := r.values ++ [(p, String.ofList (v.dropWhile (· == '=')))] }
    | none => { r with pending := some p }
  else r

/-- An option by its name. -/
def long (r : Reading) (arg : List Char) : Except ArgumentsError Reading :=
  let body := arg.dropWhile (· == '-')
  let (word, rest) := body.span (· != '=')
  if word = "help".toList then .error .helpDisplayed
  else if word = "version".toList then .error .versionDisplayed
  else match Param.named? word with
    | some p => .ok (r.name p (if rest.isEmpty then none else some rest))
    | none => .error .unknownArgument

/-- An option by a letter; only help and version have one. -/
def short (letter : Char) : ArgumentsError :=
  if letter = 'h' then .helpDisplayed
  else if letter = 'V' then .versionDisplayed
  else .unknownArgument

/-- An argument that is no option is the value of the pending option. -/
def value (r : Reading) (arg : String) : Except ArgumentsError Reading :=
  match r.pending with
  | some p =>
    .ok { r with
      values := r.values ++ [(p, arg)]
      pending := if p.isRepeatable then some p else none }
  | none => .error .unknownArgument

/-- The next argument of a command. -/
def step (r : Reading) (arg : String) : Except ArgumentsError Reading :=
  if r.optionsOver then .error .unknownArgument
  else match arg.toList with
    | ['-', '-'] => .ok { r with optionsOver := true }
    | '-' :: '-' :: rest => r.long rest
    | '-' :: letter :: _ => .error (short letter)
    | _ => r.value arg

/-- An option needs a value and never had one. -/
def lacksValue (r : Reading) (p : Param) : Bool :=
  p.takesValue && !p.hasDefault && (r.valuesOf p).isEmpty

/-- A command does not end after an option that lacks a value. -/
def checkEnd (r : Reading) : Except ArgumentsError Unit :=
  if r.pending.any r.lacksValue then .error .emptyValue else .ok ()

/-- An option that is named does not lack a value, has only values that it accepts, and is named
once unless it may be repeated. -/
def check (r : Reading) (p : Param) : ExceptT ArgumentsError Checked Unit := do
  if r.named.contains p && r.lacksValue p then throw .emptyValue
  else if !(← ExceptT.lift ((r.valuesOf p).allM p.accepts)) then throw .valueValidation
  else if 1 < r.named.count p ∧ !p.isRepeatable then throw .unexpectedMultipleUsage

/-- The parameters of a command that was read and checked. -/
def params (r : Reading) : Checked RequestParams := do
  let base := RequestParams.default
  let maxDuration ← match (r.valuesOf .maxDuration).head? with
    | some s => Duration.ofText? s
    | none => pure none
  return {
    maxTransfers := ((r.valuesOf .maxTransfers).head?.bind byte?).getD base.maxTransfers
    maxDuration := maxDuration.getD base.maxDuration
    requireBikes := r.named.contains .requireBikes
    allowedClasses := (r.valuesOf .allowedClasses).filterMap ServiceClass.named? }

end Reading

end Arguments

open Arguments in
/-- The parameters that the arguments of a command stand for. -/
def RequestParams.ofArguments (args : List String) :
    Checked (Except ArgumentsError RequestParams) := ExceptT.run do
  let r ← MonadExcept.ofExcept (args.foldlM Reading.step .start)
  MonadExcept.ofExcept r.checkEnd
  Param.all.forM r.check
  ExceptT.lift r.params

end JourneyPlanner
