import JourneyPlanner.Data.BitSet
import JourneyPlanner.Data.Buckets
import JourneyPlanner.Network.Route

/-!
Where routes take bikes, in little room: two bits per route tell whether it takes bikes on all and
on some of its sections, and only a route whose sections differ has them listed.
-/

namespace JourneyPlanner

/-- Where a route takes bikes. The sections are told only where they differ. -/
inductive BikeAccess where
  | everywhere
  | nowhere
  | onSections (allowed : List Bool)
deriving DecidableEq, Repr

namespace BikeAccess

def onAll (b : BikeAccess) : Bool := b == everywhere

def onSome (b : BikeAccess) : Bool := b != nowhere

/-- A bike can be carried on a section. -/
def allows (b : BikeAccess) (position : Nat) : Bool :=
  match b with
  | everywhere => true
  | nowhere => false
  | onSections allowed => allowed[position]?.getD false

end BikeAccess

/-- What was said of bikes for the routes so far. -/
structure BikeRegister where
  /-- for each route, whether it takes bikes on all and on some of its sections -/
  summaries : Array (Bool × Bool)
  /-- the sections of the routes where they differ -/
  sections : Array (RouteIndex × Bool)
  sections_lt : ∀ x ∈ sections, x.1.val < summaries.size
deriving DecidableEq, Repr

namespace BikeRegister

def empty : BikeRegister := ⟨#[], #[], fun _ hx => absurd hx (Array.not_mem_empty _)⟩

/-- The number of routes. -/
def size (b : BikeRegister) : Nat := b.summaries.size

/-- The sections to be listed for a route. -/
def listed (r : RouteIndex) (s : Sections Bool) : List (RouteIndex × Bool) :=
  if s.toList.any id && !s.toList.all id then s.toList.map fun allowed => (r, allowed) else []

theorem eq_of_mem_listed {r : RouteIndex} {s : Sections Bool} {x : RouteIndex × Bool}
    (h : x ∈ listed r s) : x.1 = r := by
  unfold listed at h
  split at h
  · obtain ⟨allowed, _, rfl⟩ := List.mem_map.1 h
    rfl
  · exact absurd h List.not_mem_nil

/-- Adds the next route. -/
def register (b : BikeRegister) (s : Sections Bool) : BikeRegister where
  summaries := b.summaries.push (s.toList.all id, s.toList.any id)
  sections := b.sections ++ (listed ⟨b.size⟩ s).toArray
  sections_lt := by
    intro x hx
    rw [Array.size_push]
    rcases Array.mem_append.1 hx with hx | hx
    · exact Nat.lt_succ_of_lt (b.sections_lt x hx)
    · rw [eq_of_mem_listed (List.mem_toArray.1 hx)]
      exact Nat.lt_succ_self _

end BikeRegister

/-- The bits `2 * r` and `2 * r + 1` of the summary tell whether route number `r` takes bikes on all
and on some of its sections. -/
structure BikeTable where
  summary : BitSet
  sections : Buckets .route Bool
deriving DecidableEq, Repr

namespace BikeTable

def onAll (t : BikeTable) (r : RouteIndex) : Bool := t.summary.contains (2 * r.val)

def onSome (t : BikeTable) (r : RouteIndex) : Bool := t.summary.contains (2 * r.val + 1)

/-- Where a route takes bikes; beyond the last one, nowhere. -/
def access (t : BikeTable) (r : RouteIndex) : BikeAccess :=
  if t.onAll r then .everywhere
  else if t.onSome r then .onSections (t.sections.get r)
  else .nowhere

/-- Sets the two bits of the route at a position. -/
def setBits (summary : BitSet) (x : (Bool × Bool) × Nat) : BitSet :=
  let summary := if x.1.1 then summary.insert (2 * x.2) else summary
  if x.1.2 then summary.insert (2 * x.2 + 1) else summary

def ofRegister (b : BikeRegister) : BikeTable where
  summary := b.summaries.toList.zipIdx.foldl setBits (.empty (2 * b.size))
  sections := .ofKeyed b.size b.sections.toList

end BikeTable

end JourneyPlanner
