import JourneyPlanner.Data.BitSet

/-!
Classes of service, and sets of them.
-/

namespace JourneyPlanner

/-- The class of service of a section of a route. -/
inductive ServiceClass where
  | air
  | highSpeed
  | longDistance
  | coach
  | night
  | regionalFast
  | regional
  | metro
  | subway
  | tram
  | bus
  | ship
  | other
deriving DecidableEq, Repr

namespace ServiceClass

def all : List ServiceClass :=
  [air, highSpeed, longDistance, coach, night, regionalFast, regional, metro, subway, tram, bus,
    ship, other]

theorem mem_all (c : ServiceClass) : c ∈ all := by cases c <;> decide

/-- The place of a class in `all`. -/
def number : ServiceClass → Nat
  | air => 0
  | highSpeed => 1
  | longDistance => 2
  | coach => 3
  | night => 4
  | regionalFast => 5
  | regional => 6
  | metro => 7
  | subway => 8
  | tram => 9
  | bus => 10
  | ship => 11
  | other => 12

def text : ServiceClass → String
  | air => "air"
  | highSpeed => "high_speed"
  | longDistance => "long_distance"
  | coach => "coach"
  | night => "night"
  | regionalFast => "regional_fast"
  | regional => "regional"
  | metro => "metro"
  | subway => "subway"
  | tram => "tram"
  | bus => "bus"
  | ship => "ship"
  | other => "other"

/-- The class of a name. -/
def named? (name : String) : Option ServiceClass := all.find? (·.text == name)

/-- What is said of a name that no class has. -/
def unknownMessage (name : String) : String := "Bad clasz : `" ++ name ++ "`"

end ServiceClass

/-- A set of classes, one bit per class. -/
structure ClassSet where
  bits : BitSet
deriving DecidableEq, Repr

namespace ClassSet

def none : ClassSet := ⟨.empty ServiceClass.all.length⟩

def insert (s : ClassSet) (c : ServiceClass) : ClassSet := ⟨s.bits.insert c.number⟩

def ofList (cs : List ServiceClass) : ClassSet := cs.foldl insert none

def all : ClassSet := ofList ServiceClass.all

def contains (s : ClassSet) (c : ServiceClass) : Bool := s.bits.contains c.number

def isEmpty (s : ClassSet) : Bool := s.bits.isEmpty

/-- The members, in the order of `ServiceClass.all`. -/
def toList (s : ClassSet) : List ServiceClass := ServiceClass.all.filter s.contains

end ClassSet

end JourneyPlanner
