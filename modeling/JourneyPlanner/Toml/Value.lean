/-!
Values of a TOML document. Floating-point numbers and dates are not among them: no setting takes
one.
-/

namespace JourneyPlanner.Toml

inductive Value where
  | string (s : String)
  | integer (n : Int)
  | boolean (b : Bool)
  | array (items : List Value)
  /-- a table; one that is written inline takes no entries afterwards -/
  | table (inLine : Bool) (entries : List (String × Value))

namespace Value

/-- The entry of a key among others. -/
def lookup? (entries : List (String × Value)) (key : String) : Option Value :=
  (entries.find? (·.1 == key)).map (·.2)

/-- Replaces the entry of a key. -/
def replace (entries : List (String × Value)) (key : String) (v : Value) : List (String × Value) :=
  entries.map fun e => if e.1 == key then (key, v) else e

/-- Adds a value under a dotted key. Tables on the way are made when they are missing; a key that is
already there, and a way that leads through something else, are refused. -/
def insert? (v : Value) : List String → List (String × Value) → Option (List (String × Value))
  | [], _ => none
  | [key], entries =>
    if (lookup? entries key).isSome then none else some (entries ++ [(key, v)])
  | key :: path, entries =>
    match lookup? entries key with
    | none => (insert? v path []).map fun inner => entries ++ [(key, .table false inner)]
    | some (.table false inner) =>
      (insert? v path inner).map fun inner => replace entries key (.table false inner)
    | some _ => none

/-- The table of several entries under dotted keys. -/
def ofEntries? (entries : List (List String × Value)) : Option (List (String × Value)) :=
  entries.foldlM (fun table (path, v) => insert? v path table) []

def string? : Value → Option String
  | string s => some s
  | _ => none

/-- The name of a choice: a string, or an inline table with the name as its only key and an empty
table as its value. -/
def choice? : Value → Option String
  | string s => some s
  | table true [(name, table _ [])] => some name
  | _ => none

def boolean? : Value → Option Bool
  | boolean b => some b
  | _ => none

/-- A whole number below `limit`. -/
def natural? (limit : Nat) : Value → Option Nat
  | integer n => if 0 ≤ n ∧ n < limit then some n.toNat else none
  | _ => none

def array? : Value → Option (List Value)
  | array items => some items
  | _ => none

end Value

end JourneyPlanner.Toml
