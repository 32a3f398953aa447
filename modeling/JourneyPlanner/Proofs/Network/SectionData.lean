import Mathlib
import JourneyPlanner.Proofs.Data.Keyed
import JourneyPlanner.Proofs.Network.Building
import JourneyPlanner.Proofs.Network.Sections
import JourneyPlanner.Proofs.Network.Verdicts

/-!
# What was registered for the sections of a route

Classes and lines are kept as they were given, one value or one per section. Bike permissions are
packed: two bits per route in one set for all routes, and the sections of the routes where they differ
in one table. What is read back for a section is what was given for it, whatever was registered
for other routes.
-/

namespace JourneyPlanner

/-- What was given for a section: the only value, or the one at its place. -/
def valueOn? {α : Type} (given : List α) (position : Nat) : Option α :=
  if given.length = 1 then given[0]? else given[position]?

namespace Sections

variable {α : Type} {n p : Nat} {given : List α} {s : Sections α} {a : α}

lemma at?_of_ofList? (h : ofList? n given = some s) (p : Nat) : s.at? p = valueOn? given p := by
  cases given with
  | nil => cases h
  | cons a as =>
    rw [ofList?] at h
    split at h
    · cases h
      cases as with
      | nil => rfl
      | cons b bs => simp [at?, valueOn?, toList]
    · cases h

lemma mem_of_at? (h : s.at? p = some a) : a ∈ s.toList := by
  unfold at? at h
  split at h
  · cases h
    exact List.mem_cons_self
  · exact List.mem_of_getElem? h

/-- The values of a route are those of its sections. -/
lemma Fits.mem_toList_iff (h : s.Fits n) (hn : 0 < n) :
    a ∈ s.toList ↔ ∃ p, p < n ∧ s.at? p = some a := by
  constructor
  · intro ha
    cases hothers : s.others with
    | nil =>
      rw [toList, hothers, List.mem_singleton] at ha
      exact ⟨0, hn, by rw [at?_zero, ha]⟩
    | cons b bs =>
      obtain ⟨p, hp, hget⟩ := List.mem_iff_getElem.1 ha
      have hlength : s.others.length + 1 = n := h.resolve_left (by rw [hothers]; exact Nat.succ_ne_zero _)
      refine ⟨p, hlength ▸ hp, ?_⟩
      rw [at?, hothers, List.isEmpty_cons, if_neg Bool.false_ne_true, ← hget]
      exact List.getElem?_eq_getElem hp
  · rintro ⟨p, _, hp⟩
    exact mem_of_at? hp

end Sections

namespace BikeRegister

variable {b : BikeRegister} {r : RouteIndex} {s : Sections Bool}

/-- A route was registered with these permissions. -/
structure Knows (b : BikeRegister) (r : RouteIndex) (s : Sections Bool) : Prop where
  summary : b.summaries[r.val]? = some (s.toList.all id, s.toList.any id)
  sections : Buckets.valuesOf b.sections.toList r = Buckets.valuesOf (listed r s) r

lemma Knows.lt_size (h : b.Knows r s) : r.val < b.size :=
  (Array.getElem?_eq_some_iff.1 h.summary).1

lemma valuesOf_register (b : BikeRegister) (s : Sections Bool) (r : RouteIndex) :
    Buckets.valuesOf (b.register s).sections.toList r =
      Buckets.valuesOf b.sections.toList r ++ Buckets.valuesOf (listed ⟨b.size⟩ s) r := by
  simp [register, Buckets.valuesOf]

lemma valuesOf_eq_nil {entries : List (RouteIndex × Bool)} (h : ∀ x ∈ entries, x.1 ≠ r) :
    Buckets.valuesOf entries r = [] := by
  rw [Buckets.valuesOf, List.filter_eq_nil_iff.2, List.map_nil]
  intro x hx hkey
  exact h x hx (beq_iff_eq.1 hkey)

lemma knows_register (b : BikeRegister) (s : Sections Bool) : (b.register s).Knows ⟨b.size⟩ s := by
  constructor
  · exact Array.getElem?_push_size
  · rw [valuesOf_register, valuesOf_eq_nil, List.nil_append]
    intro x hx hkey
    have hlt := b.sections_lt x (Array.mem_toList_iff.1 hx)
    rw [hkey] at hlt
    exact Nat.lt_irrefl _ hlt

/-- What is known of a route stays, whatever route comes next. -/
lemma Knows.register (h : b.Knows r s) (next : Sections Bool) : (b.register next).Knows r s := by
  constructor
  · exact Builder.getElem?_push_of_getElem? _ h.summary
  · have hnext : Buckets.valuesOf (listed ⟨b.size⟩ next) r = [] := valuesOf_eq_nil ?_
    · rw [valuesOf_register, h.sections, hnext, List.append_nil]
    intro x hx hkey
    have hlt := h.lt_size
    rw [← hkey, eq_of_mem_listed hx] at hlt
    exact Nat.lt_irrefl _ hlt

lemma valuesOf_listed (r : RouteIndex) (s : Sections Bool) :
    Buckets.valuesOf (listed r s) r =
      if s.toList.any id && !s.toList.all id then s.toList else [] := by
  unfold listed
  split
  · simp [Buckets.valuesOf, List.filter_map, Function.comp_def]
  · rfl

end BikeRegister

namespace BikeTable

lemma capacity_setBits (summary : BitSet) (x : (Bool × Bool) × Nat) :
    (setBits summary x).capacity = summary.capacity := by
  unfold setBits
  split <;> split <;> simp only [BitSet.capacity_insert]

/-- Two bits are set for a route, at most. -/
lemma contains_setBits (summary : BitSet) (x : (Bool × Bool) × Nat) (j : Nat) :
    (setBits summary x).contains j = true ↔ summary.contains j = true ∨ j < summary.capacity ∧
      (x.1.1 = true ∧ j = 2 * x.2 ∨ x.1.2 = true ∧ j = 2 * x.2 + 1) := by
  obtain ⟨⟨all, some⟩, r⟩ := x
  cases all <;> cases some <;> simp [setBits, BitSet.contains_insert] <;> grind

lemma contains_foldl_setBits (xs : List ((Bool × Bool) × Nat)) (summary : BitSet) (j : Nat) :
    (xs.foldl setBits summary).contains j = true ↔
      summary.contains j = true ∨ j < summary.capacity ∧
        ∃ x ∈ xs, x.1.1 = true ∧ j = 2 * x.2 ∨ x.1.2 = true ∧ j = 2 * x.2 + 1 := by
  induction xs generalizing summary with
  | nil => simp
  | cons x xs ih =>
    rw [List.foldl_cons, ih, capacity_setBits, contains_setBits]
    simp only [List.exists_mem_cons_iff]
    grind

/-- A bit is set for exactly one route, and says one thing of it. -/
lemma contains_summary (b : BikeRegister) (j : Nat) :
    (ofRegister b).summary.contains j = true ↔ ∃ r onAll onSome,
      b.summaries[r]? = some (onAll, onSome) ∧
        (onAll = true ∧ j = 2 * r ∨ onSome = true ∧ j = 2 * r + 1) := by
  rw [ofRegister, contains_foldl_setBits, BitSet.contains_empty, BitSet.capacity_empty]
  constructor
  · rintro (hempty | ⟨_, ⟨⟨onAll, onSome⟩, r⟩, hx, hbit⟩)
    · cases hempty
    · exact ⟨r, onAll, onSome, by simpa using List.mem_zipIdx_iff_getElem?.1 hx, hbit⟩
  · rintro ⟨r, onAll, onSome, hget, hbit⟩
    have hr : r < b.size := (Array.getElem?_eq_some_iff.1 hget).1
    refine Or.inr ⟨by omega, ⟨(onAll, onSome), r⟩, ?_, hbit⟩
    exact List.mem_zipIdx_iff_getElem?.2 (by simpa using hget)

variable {b : BikeRegister} {r : RouteIndex} {s : Sections Bool}

lemma onAll_ofRegister (h : b.Knows r s) : (ofRegister b).onAll r = s.toList.all id := by
  rw [Bool.eq_iff_iff, onAll, contains_summary]
  constructor
  · rintro ⟨r', all', some', hget, ⟨hall, hr⟩ | ⟨_, hr⟩⟩
    · rw [← Nat.mul_left_cancel Nat.two_pos hr, h.summary] at hget
      cases hget
      exact hall
    · omega
  · intro hall
    exact ⟨r.val, _, _, h.summary, Or.inl ⟨hall, rfl⟩⟩

lemma onSome_ofRegister (h : b.Knows r s) : (ofRegister b).onSome r = s.toList.any id := by
  rw [Bool.eq_iff_iff, onSome, contains_summary]
  constructor
  · rintro ⟨r', all', some', hget, ⟨_, hr⟩ | ⟨hsome, hr⟩⟩
    · omega
    · rw [← Nat.mul_left_cancel Nat.two_pos (Nat.succ.inj hr), h.summary] at hget
      cases hget
      exact hsome
  · intro hsome
    exact ⟨r.val, _, _, h.summary, Or.inr ⟨hsome, rfl⟩⟩

lemma sections_ofRegister (h : b.Knows r s) (hsome : s.toList.any id = true)
    (hall : s.toList.all id = false) : (ofRegister b).sections.get r = s.toList := by
  rw [ofRegister, Buckets.get_ofKeyed, if_pos h.lt_size, h.sections, BikeRegister.valuesOf_listed,
    hsome, hall]
  rfl

/-- What is read back for a section is what was registered for it. -/
lemma allows_ofRegister {n p : Nat} (h : b.Knows r s) (hfits : s.Fits n) (hp : p < n) :
    s.at? p = some (((ofRegister b).access r).allows p) := by
  obtain ⟨allowed, hat⟩ := hfits.exists_at? hp
  have hmem := Sections.mem_of_at? hat
  rw [hat, access, onAll_ofRegister h, onSome_ofRegister h]
  cases hall : s.toList.all id with
  | true =>
    have hallowed : allowed = true := List.all_eq_true.1 hall allowed hmem
    rw [hallowed]
    rfl
  | false =>
    cases hsome : s.toList.any id with
    | false =>
      have hallowed : allowed = false := by
        simpa using List.any_eq_false.1 hsome allowed hmem
      rw [hallowed]
      rfl
    | true =>
      -- sections that differ are not told by one value
      have hothers : s.others.isEmpty = false := by
        rw [Bool.eq_false_iff]
        intro hempty
        have hsame : s.toList.any id = s.toList.all id := by
          simp [Sections.toList, List.isEmpty_iff.1 hempty]
        exact Bool.false_ne_true (hall.symm.trans (hsame.symm.trans hsome))
      rw [Sections.at?, hothers, if_neg Bool.false_ne_true] at hat
      simp only [Bool.false_eq_true, if_false, if_true, BikeAccess.allows,
        sections_ofRegister h hsome hall, hat, Option.getD_some]

end BikeTable

namespace Builder

variable {b b' : Builder} {r : RouteIndex} {stops : Array RouteStop}
  {classes : Sections ServiceClass} {permissions : Sections Bool}

/-- The stops and the classes of a route, open or closed. -/
inductive Shapes (b : Builder) (r : RouteIndex) (stops : Array RouteStop)
    (classes : Sections ServiceClass) : Prop
  | opened {o : OpenRoute} : b.openRoute = some o → o.index = r → o.stops = stops →
      o.classes = classes → Shapes b r stops classes
  | closed {route : Route} : b.routes[r.val]? = some route → route.stops = stops →
      route.classes = classes → Shapes b r stops classes

/-- A route keeps its stops and its classes. -/
theorem Shapes.step (h : b.Shapes r stops classes) (hsound : b.Sound) (hstep : b.Step b') :
    b'.Shapes r stops classes := by
  cases h with
  | opened hopen hindex hstops hclasses =>
    cases hstep with
    | stay | location | days | late | spoiled | footpath | timedFootpath =>
      exact .opened hopen hindex hstops hclasses
    | opened hopens =>
      rw [hopens.closed] at hopen
      cases hopen
    | extended hadmits _ =>
      cases hopen.symm.trans hadmits.opened
      exact .opened rfl hindex hstops hclasses
    | closed hopen' hclose =>
      cases hopen.symm.trans hopen'
      have hcloses := OpenRoute.closes_of_close hclose
      refine .closed ?_ (hcloses.stops_eq.trans hstops) (hcloses.classes_eq.trans hclasses)
      rw [← hindex, (hsound.opened _ hopen).index_eq]
      exact Array.getElem?_push_size
  | closed hget hstops hclasses =>
    cases hstep with
    | stay | location | days | opened | late | extended | spoiled | footpath | timedFootpath =>
      exact .closed hget hstops hclasses
    | closed _ _ => exact .closed (getElem?_push_of_getElem? _ hget) hstops hclasses

/-- The number of routes, open or closed. -/
def nbOfRoutes (b : Builder) : Nat := b.routes.size + if b.openRoute.isSome then 1 else 0

/-- Bike permissions were registered for every route, closed or open. -/
structure Counts (b : Builder) : Prop where
  sound : b.Sound
  size_eq : b.bikes.size = b.nbOfRoutes

lemma counts_new (c : Calendar) : (new c).Counts := ⟨sound_new c, rfl⟩

theorem Counts.step (h : b.Counts) (hstep : b.Step b') : b'.Counts := by
  refine ⟨h.sound.step hstep, ?_⟩
  have hsize := h.size_eq
  unfold nbOfRoutes at hsize ⊢
  cases hstep with
  | stay | location | days | late | spoiled | footpath | timedFootpath => exact hsize
  | opened hopens =>
    rw [hopens.closed] at hsize
    change (b.bikes.summaries.push _).size = b.routes.size + 1
    rw [Array.size_push]
    exact congrArg Nat.succ hsize
  | extended hadmits _ =>
    rw [hadmits.opened] at hsize
    exact hsize
  | closed hopen _ =>
    rw [hopen] at hsize
    change b.bikes.size = (b.routes.push _).size + 0
    rw [Array.size_push]
    exact hsize

/-- What was registered for a route. -/
structure Registers (b : Builder) (r : RouteIndex) (stops : List RouteStop)
    (classes : List ServiceClass) (bikes : List Bool) : Prop where
  two_le : 2 ≤ stops.length
  shapes : ∃ cs, Sections.ofList? (stops.length - 1) classes = some cs ∧
    b.Shapes r stops.toArray cs
  bikes : ∃ bs, Sections.ofList? (stops.length - 1) bikes = some bs ∧ b.bikes.Knows r bs

lemma registers_of_outcome {stops : List RouteStop} {classes : List ServiceClass}
    {bikes : List Bool} (h : b.Counts)
    (houtcome : b.Outcome (.route stops classes bikes) (.ok (.route r)) b') :
    b'.Registers r stops classes bikes := by
  cases houtcome with
  | opened hnew =>
    obtain ⟨hopens, hstops, hclasses, hbikes⟩ := newRoute_ok hnew
    have hsize : b.bikes.size = b.routes.size := by
      rw [h.size_eq, nbOfRoutes, hopens.closed]
      rfl
    refine ⟨?_, ⟨_, hclasses, .opened rfl rfl hstops rfl⟩, _, hbikes, ?_⟩
    · have htwo := hopens.two_le
      rwa [hstops, List.size_toArray] at htwo
    · rw [Index.ext (hopens.index_eq.trans hsize.symm)]
      exact BikeRegister.knows_register _ _

theorem Registers.step {stops : List RouteStop} {classes : List ServiceClass} {bikes : List Bool}
    (h : b.Registers r stops classes bikes) (hsound : b.Sound) (hstep : b.Step b') :
    b'.Registers r stops classes bikes := by
  obtain ⟨cs, hclasses, hshapes⟩ := h.shapes
  obtain ⟨bs, hbikes, hknows⟩ := h.bikes
  refine ⟨h.two_le, ⟨cs, hclasses, hshapes.step hsound hstep⟩, bs, hbikes, ?_⟩
  cases hstep with
  | opened _ => exact hknows.register _
  | stay | location | days | late | extended | spoiled | closed | footpath | timedFootpath =>
    exact hknows

/-- A transport of a route, with its lines. -/
structure Carries (b : Builder) (t : TransportIndex) (r : RouteIndex) (lines : List String) :
    Prop where
  transport : ∃ x, b.transports[t.val]? = some x ∧ x.route = r ∧ x.lines = lines
  fits : ∃ stops classes, b.Shapes r stops classes ∧
    (lines.length ≤ 1 ∨ lines.length = stops.size - 1)

theorem Carries.step {t : TransportIndex} {lines : List String} (h : b.Carries t r lines)
    (hsound : b.Sound) (hstep : b.Step b') : b'.Carries t r lines := by
  obtain ⟨x, hx, hroute, hlines⟩ := h.transport
  obtain ⟨stops, classes, hshapes, hfits⟩ := h.fits
  refine ⟨⟨x, ?_, hroute, hlines⟩, stops, classes, hshapes.step hsound hstep, hfits⟩
  cases hstep with
  | extended _ _ => exact getElem?_push_of_getElem? _ hx
  | stay | location | days | opened | late | spoiled | closed | footpath | timedFootpath => exact hx

lemma carries_of_outcome {t : TransportIndex} {new : NewTransport}
    (houtcome : b.Outcome (.transport r new) (.ok (.transport t)) b') :
    b'.Carries t r new.lines := by
  cases houtcome with
  | extended hcheck _ =>
    have hadmits := admits_of_checkTransport hcheck
    exact ⟨⟨_, Array.getElem?_push_size, rfl, rfl⟩, _, _, .opened rfl hadmits.index_eq rfl rfl,
      hadmits.lines_fit⟩

/-- What a call establishes, and every later step keeps, holds at the end of the run. -/
theorem run_of_mem_history {P : Builder → Prop} {entry : Entry} {calls : List Call}
    (hmade : ∀ b b' : Builder, b.Counts → b.Outcome entry.1 entry.2 b' → P b')
    (hkept : ∀ b b' : Builder, b.Sound → b.Step b' → P b → P b') (h : b.Counts)
    (hentry : entry ∈ b.history calls) : P (b.run calls).2 := by
  induction calls generalizing b with
  | nil => exact absurd hentry List.not_mem_nil
  | cons call calls ih =>
    rw [run_cons]
    rw [history_cons] at hentry
    have hstep := b.step_apply call
    rcases List.mem_cons.1 hentry with rfl | hlater
    · have hmade := hmade _ _ h (b.outcome_apply call)
      exact (run_keeps (P := fun b => b.Sound ∧ P b)
        (fun _ _ hstep hb => ⟨hb.1.step hstep, hkept _ _ hb.1 hstep hb.2⟩)
        ⟨h.sound.step hstep, hmade⟩ calls).2
    · exact ih (h.step hstep) hlater

/-- In the end every route is closed. -/
lemma Shapes.exists_route (h : b.Shapes r stops classes) (hclosed : b.openRoute = none) :
    ∃ route, b.freeze.route? r = some route ∧ route.stops = stops ∧ route.classes = classes := by
  cases h with
  | opened hopen _ _ _ =>
    rw [hclosed] at hopen
    cases hopen
  | closed hget hstops hclasses => exact ⟨_, hget, hstops, hclasses⟩

end Builder

/-- What a timetable answers of a route and its sections is what was given for them. -/
structure Timetable.Describes (tt : Timetable) (r : RouteIndex) (stops : List RouteStop)
    (classes : List ServiceClass) (bikes : List Bool) : Prop where
  stops_eq : (tt.stops r).toList = stops
  class_eq : ∀ p, p + 1 < stops.length →
    ∃ c, tt.sectionClass? r p = some c ∧ valueOn? classes p = some c
  allows_eq : ∀ p, p + 1 < stops.length →
    valueOn? bikes p = some ((tt.bikeAccess r).allows p)
  onAll_iff : tt.bikes.onAll r = true ↔ ∀ p, p + 1 < stops.length → valueOn? bikes p = some true
  onSome_iff : tt.bikes.onSome r = true ↔
    ∃ p, p + 1 < stops.length ∧ valueOn? bikes p = some true

/-- What a timetable answers of the lines of a transport is what was given for it. -/
structure Timetable.Lists (tt : Timetable) (t : TransportIndex) (r : RouteIndex)
    (lines : List String) : Prop where
  routeOf_eq : tt.routeOf t = r
  line_eq : ∀ p, p + 1 < (tt.stops r).size → tt.lineOf? t p = valueOn? lines p
  exists_line : lines ≠ [] → ∀ p, p + 1 < (tt.stops r).size → ∃ line, tt.lineOf? t p = some line

namespace Builder

variable {b : Builder} {r : RouteIndex}

lemma describes_freeze {stops : List RouteStop} {classes : List ServiceClass} {bikes : List Bool}
    (h : b.Registers r stops classes bikes) (hclosed : b.openRoute = none) :
    b.freeze.Describes r stops classes bikes := by
  have hsections : 0 < stops.length - 1 := by
    have htwo := h.two_le
    omega
  obtain ⟨cs, hclasses, hshapes⟩ := h.shapes
  obtain ⟨bs, hbikes, hknows⟩ := h.bikes
  obtain ⟨route, hroute, hstops, hcs⟩ := hshapes.exists_route hclosed
  have hgiven := Sections.at?_of_ofList? hbikes
  have hfits := Sections.fits_of_ofList? hbikes
  have honAll : b.freeze.bikes.onAll r = bs.toList.all id := BikeTable.onAll_ofRegister hknows
  have honSome : b.freeze.bikes.onSome r = bs.toList.any id := BikeTable.onSome_ofRegister hknows
  constructor
  case stops_eq => rw [Timetable.stops, hroute, Option.map_some, Option.getD_some, hstops]
  case class_eq =>
    intro p hp
    obtain ⟨c, hc⟩ := (Sections.fits_of_ofList? hclasses).exists_at? (p := p) (by omega)
    refine ⟨c, ?_, ?_⟩
    · rw [Timetable.sectionClass?, hroute, Option.bind_some, hcs, hc]
    · rw [← Sections.at?_of_ofList? hclasses, hc]
  case allows_eq =>
    intro p hp
    rw [← hgiven]
    exact BikeTable.allows_ofRegister hknows hfits (by omega)
  case onAll_iff =>
    rw [honAll, List.all_eq_true]
    constructor
    · intro hall p hp
      obtain ⟨allowed, hat⟩ := hfits.exists_at? (p := p) (by omega)
      have hallowed : allowed = true := hall allowed (Sections.mem_of_at? hat)
      rw [← hgiven, hat, hallowed]
    · intro hall allowed hmem
      obtain ⟨p, hp, hat⟩ := (hfits.mem_toList_iff hsections).1 hmem
      have htrue := hall p (by omega)
      rw [← hgiven, hat] at htrue
      exact Option.some.inj htrue
  case onSome_iff =>
    rw [honSome, List.any_eq_true]
    constructor
    · rintro ⟨allowed, hmem, hallowed⟩
      obtain ⟨p, hp, hat⟩ := (hfits.mem_toList_iff hsections).1 hmem
      exact ⟨p, by omega, by rw [← hgiven, hat]; exact congrArg some hallowed⟩
    · rintro ⟨p, _, htrue⟩
      rw [← hgiven] at htrue
      exact ⟨true, Sections.mem_of_at? htrue, rfl⟩

lemma lists_freeze {t : TransportIndex} {lines : List String} (h : b.Carries t r lines)
    (hclosed : b.openRoute = none) : b.freeze.Lists t r lines := by
  obtain ⟨x, hx, hrouteOf, hlines⟩ := h.transport
  have hx : b.freeze.transport? t = some x := hx
  obtain ⟨stops, classes, hshapes, hfits⟩ := h.fits
  obtain ⟨route, hroute, hstops, _⟩ := hshapes.exists_route hclosed
  have hsize : b.freeze.stops r = stops := by
    rw [Timetable.stops, hroute, Option.map_some, Option.getD_some, hstops]
  have hline : ∀ p, b.freeze.lineOf? t p = valueOn? lines p := by
    intro p
    rw [Timetable.lineOf?, hx, Option.map_some, Option.getD_some, hlines, valueOn?]
    rcases lines with _ | ⟨first, _ | ⟨second, rest⟩⟩
    · rfl
    · rfl
    · rw [if_neg (by simp)]
  refine ⟨?_, fun p _ => hline p, ?_⟩
  · rw [Timetable.routeOf, hx, Option.map_some, Option.getD_some, hrouteOf]
  · intro hne p hp
    rw [hsize] at hp
    rw [hline, valueOn?]
    have hpositive := List.length_pos_iff.2 hne
    split
    · exact ⟨_, List.getElem?_eq_getElem hpositive⟩
    · exact ⟨_, List.getElem?_eq_getElem (by omega)⟩

end Builder

/-- Every section of a route, and every section of a transport of a route, has in a built timetable
what was given for it, and the two bits of a route tell whether all and whether some of its
sections take bikes, whatever else was registered before or after. -/
theorem section_data_of_build {c : Calendar} {calls : List Call} {tt : Timetable}
    (hbuild : ((Builder.new c).run calls).2.build = .ok tt) :
    (∀ r stops classes bikes,
      (Call.route stops classes bikes, .ok (.route r)) ∈ (Builder.new c).history calls →
        tt.Describes r stops classes bikes) ∧
    ∀ t r new, (Call.transport r new, .ok (.transport t)) ∈ (Builder.new c).history calls →
      tt.Lists t r new.lines := by
  obtain ⟨_, hclosed, _, rfl⟩ := Builder.build_eq_ok_iff.1 hbuild
  have hcounts := Builder.counts_new c
  constructor
  · intro r stops classes bikes hentry
    refine Builder.describes_freeze ?_ hclosed
    exact Builder.run_of_mem_history (P := fun b => b.Registers r stops classes bikes)
      (fun _ _ h houtcome => Builder.registers_of_outcome h houtcome)
      (fun _ _ hsound hstep h => h.step hsound hstep) hcounts hentry
  · intro t r new hentry
    refine Builder.lists_freeze ?_ hclosed
    exact Builder.run_of_mem_history (P := fun b => b.Carries t r new.lines)
      (fun _ _ _ houtcome => Builder.carries_of_outcome houtcome)
      (fun _ _ hsound hstep h => h.step hsound hstep) hcounts hentry

namespace MixedRoutes

def calendar : Calendar := ⟨⟨18262⟩, ⟨18266⟩, by decide, by decide⟩

def place (id : String) : Location := ⟨⟨⟨0⟩, id⟩, "", .station, none, none, .zero⟩

def serviceDays : ServiceDays := ([6].filterMap Day.ofNat?).foldl .insert (.empty calendar)

def stops : List RouteStop := [⟨⟨0⟩, true, true⟩, ⟨⟨1⟩, true, true⟩, ⟨⟨2⟩, true, true⟩]

def vehicle (name : String) (lines : List String) : NewTransport :=
  ⟨name, ⟨0⟩, [480, 490, 500].map fun time => ⟨.ofNat time, .ofNat time⟩, lines⟩

/-- Three routes over the same stops. The second one changes its class and its line on the way, and
takes bikes from there on. -/
def calls : List Call :=
  [.location (place "a"), .location (place "b"), .location (place "c"), .serviceDays serviceDays,
    .route stops [.metro] [true], .transport ⟨0⟩ (vehicle "first" []), .finishRoute,
    .route stops [.bus, .tram] [false, true], .transport ⟨1⟩ (vehicle "second" ["7", "8"]),
    .finishRoute,
    .route stops [.coach] [false], .transport ⟨2⟩ (vehicle "third" ["9"]), .finishRoute]

def builder : Builder := ((Builder.new calendar).run calls).2

lemma build_eq : builder.build = .ok builder.freeze :=
  Builder.build_eq_ok_iff.2 ⟨by cbv, by cbv, by cbv, rfl⟩

/-- The second route takes bikes on its second section only, which is of line 8. -/
theorem section_data_second : builder.build = .ok builder.freeze ∧
    builder.freeze.Describes ⟨1⟩ stops [.bus, .tram] [false, true] ∧
    builder.freeze.Lists ⟨1⟩ ⟨1⟩ ["7", "8"] := by
  have hdata := section_data_of_build build_eq
  exact ⟨build_eq, hdata.1 ⟨1⟩ _ _ _ (List.mem_of_getElem? (i := 7) (by cbv)),
    hdata.2 ⟨1⟩ ⟨1⟩ (vehicle "second" ["7", "8"]) (List.mem_of_getElem? (i := 8) (by cbv))⟩

end MixedRoutes

end JourneyPlanner
