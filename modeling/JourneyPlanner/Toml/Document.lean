import JourneyPlanner.Toml.Reader

/-!
TOML documents: the entries before the first header, and a section for each header. A document
stands for a table; one that is nothing but an empty section may also stand for a choice.
-/

namespace JourneyPlanner.Toml

/-- A header and the entries under it. -/
structure Section where
  path : List String
  /-- the section is an item of an array of tables -/
  isItem : Bool
  entries : List (String × Value)

structure Document where
  /-- the entries before the first header -/
  front : List (String × Value)
  sections : List Section

namespace Document

/-- The open section with the entries that some lines add to it, and the sections that they
begin. -/
def sectionsOf? (current : Section) : List Line → Option (List Section)
  | [] => some [current]
  | .header path isItem :: ls => do
    return current :: (← sectionsOf? ⟨path, isItem, []⟩ ls)
  | .entry path v :: ls => do
    sectionsOf? { current with entries := ← Value.insert? v path current.entries } ls

/-- The document of a text. -/
def read? (text : String) : Option Document := do
  match ← sectionsOf? ⟨[], false, []⟩ (← linesOf? text) with
  | front :: sections => return ⟨front.entries, sections⟩
  | [] => none

/-- Adds the table of a section, which must not be there. An array of tables is no setting, and is
refused. -/
def addSection? (entries : List (String × Value)) (s : Section) : Option (List (String × Value)) :=
  if s.isItem then none else Value.insert? (.table false s.entries) s.path entries

/-- The table that a document stands for. -/
def table? (d : Document) : Option Value :=
  (d.sections.foldlM addSection? d.front).map (.table false)

/-- The name that a document chooses for a field when it is nothing but an empty section under the
field: the last key of its header. The keys on the way, and the kind of the header, do not count. -/
def choice? (d : Document) (field : String) : Option String :=
  match d with
  | ⟨[], [⟨key :: path, _, []⟩]⟩ => if key = field then path.getLast? else none
  | _ => none

end Document

end JourneyPlanner.Toml
