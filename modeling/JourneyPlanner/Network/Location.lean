import JourneyPlanner.Data.Index
import JourneyPlanner.Time.Duration

/-!
Places where vehicles stop. A location is known by the feed that it comes from and its identifier
there; a track may have a station as its parent.
-/

namespace JourneyPlanner

structure LocationId where
  source : SourceIndex
  id : String
deriving DecidableEq, Repr

/-- The number of the feed and the identifier in it, as in `0:gare`. -/
def LocationId.text (i : LocationId) : String := toString i.source.val ++ ":" ++ i.id

inductive LocationKind where
  /-- a platform that no feed names -/
  | generatedTrack
  | track
  | station
deriving DecidableEq, Repr

structure Location where
  id : LocationId
  name : String
  kind : LocationKind
  parent : Option LocationIndex
  /-- name of the time zone -/
  timezone : Option String
  /-- least time needed to change vehicles here -/
  transferTime : Duration
deriving DecidableEq, Repr

/-- Locations in the order in which they were registered. -/
structure Locations where
  entries : Array Location
deriving DecidableEq, Repr

namespace Locations

def empty : Locations := ⟨#[]⟩

def size (ls : Locations) : Nat := ls.entries.size

def get? (ls : Locations) (l : LocationIndex) : Option Location := ls.entries[l.val]?

def toList (ls : Locations) : List LocationIndex := Index.firsts ls.size

/-- The location of an identifier. -/
def find? (ls : Locations) (id : LocationId) : Option LocationIndex :=
  (ls.entries.toList.findIdx? (·.id == id)).map Index.mk

/-- The index of a location, which is added unless its identifier is already there. -/
def register (ls : Locations) (location : Location) : LocationIndex × Locations :=
  match ls.find? location.id with
  | some l => (l, ls)
  | none => (⟨ls.size⟩, ⟨ls.entries.push location⟩)

/-- Least time needed to change vehicles at a location. -/
def transferTime (ls : Locations) (l : LocationIndex) : Duration :=
  ((ls.get? l).map (·.transferTime)).getD .zero

def name (ls : Locations) (l : LocationIndex) : String := ((ls.get? l).map (·.name)).getD ""

def parent? (ls : Locations) (l : LocationIndex) : Option LocationIndex :=
  (ls.get? l).bind (·.parent)

/-- The time zone of a location, or else that of its parent. -/
def timezone? (ls : Locations) (l : LocationIndex) : Option String :=
  ((ls.get? l).bind (·.timezone)).or
    ((ls.parent? l).bind fun p => (ls.get? p).bind (·.timezone))

/-- The first location whose parent does not exist, with that parent. -/
def danglingParent? (ls : Locations) : Option (LocationIndex × LocationIndex) :=
  ls.toList.findSome? fun l =>
    (ls.parent? l).bind fun p => if p.val < ls.size then none else some (l, p)

/-- Every location that has a parent, after its parent. -/
def parentEntries (ls : Locations) : List (LocationIndex × LocationIndex) :=
  ls.toList.filterMap fun l => (ls.parent? l).map fun p => (p, l)

/-- The index of a location that is registered is that of its identifier. -/
theorem find?_register (ls : Locations) (location : Location) :
    (ls.register location).2.find? location.id = some (ls.register location).1 := by
  unfold register
  cases h : ls.find? location.id with
  | some l => exact h
  | none =>
    rw [find?, Option.map_eq_none_iff] at h
    simp only [find?, Array.toList_push, List.findIdx?_append, h]
    simp [size]

/-- Every index keeps its location. -/
theorem get?_register_of_get? {ls : Locations} {l : LocationIndex} {old : Location}
    (h : ls.get? l = some old) (location : Location) :
    (ls.register location).2.get? l = some old := by
  unfold register
  split
  · exact h
  · obtain ⟨hl, heq⟩ := Array.getElem?_eq_some_iff.1 h
    rw [get?, Array.getElem?_push_lt hl, heq]

end Locations

end JourneyPlanner
