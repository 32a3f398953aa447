import JourneyPlanner.Proofs.Network.WalkingBack
import JourneyPlanner.Proofs.Search.Reversing
import JourneyPlanner.Proofs.Search.Soundness
import JourneyPlanner.Proofs.Search.Spanning

/-!
# A way from its other end

The way by which a search has reached the destination can be gone from the destination back to the
start, and the search in the other direction covers it.
-/

namespace JourneyPlanner

namespace Search

variable {s : Search} {base : Day} {instant : Instant} {finish t : RelTime} {a b : Arrival}
  {l : LocationIndex} {v k n : Nat} {r : RouteIndex} {trip : Trip} {i j : Nat}

/-- A time of a search, told from another base day. -/
def image (s : Search) (base : Day) (t : RelTime) : RelTime :=
  match t.minutes? with
  | none => .infeasible
  | some n => .ofMinutes (s.baseDay.daysSince base * 1440 + n)

lemma image_of_minutes? {m : Int} (h : t.minutes? = some m) :
    s.image base t = .ofMinutes (s.baseDay.daysSince base * 1440 + m) := by
  unfold image
  rw [h]

/-- The time of an event is the same, told from another base day. -/
lemma eventTime_mirrored {position : Nat} {event : StopEvent} (instant : Instant)
    (h : (s.eventTime trip position event).isFeasible = true) :
    (s.mirrored base instant).eventTime trip position event =
      s.image base (s.eventTime trip position event) := by
  unfold eventTime Calendar.eventTime at *
  rw [image_of_minutes? (RelTime.minutes?_of_isFeasible h)]
  unfold Day.daysSince mirrored
  dsimp only
  congr 1
  omega

/-- What is added to the cost of a time that is told from the other end. -/
def turn (s : Search) (base : Day) : Int :=
  s.dir.opposite.sign (s.baseDay.daysSince base * 1440)

/-- A search from the finish of a way of another one, in the other direction. -/
structure Mirrors (s : Search) (base : Day) (instant : Instant) (finish : RelTime) : Prop where
  feasible : finish.isFeasible = true
  start_eq : (s.mirrored base instant).start = s.image base finish
  start_feasible : (s.image base finish).isFeasible = true
  finish_feasible : (s.image base s.start).isFeasible = true

/-- A time between the ends of a way can be told from the other end. -/
lemma Mirrors.image_feasible (h : s.Mirrors base instant finish)
    (hstart : s.dir.cost s.start ≤ s.dir.cost t) (hfinish : s.dir.cost t ≤ s.dir.cost finish) :
    (s.image base t).isFeasible = true := by
  have ht := Direction.isFeasible_of_le hfinish h.feasible
  obtain ⟨m, hm⟩ := Direction.exists_minutes ht
  obtain ⟨first, hfirst⟩ := Direction.exists_minutes (Direction.isFeasible_of_le hstart ht)
  obtain ⟨last, hlast⟩ := Direction.exists_minutes h.feasible
  have hstart' := h.start_feasible
  have hfinish' := h.finish_feasible
  rw [image_of_minutes? hlast, RelTime.isFeasible_ofMinutes_iff] at hstart'
  rw [image_of_minutes? hfirst, RelTime.isFeasible_ofMinutes_iff] at hfinish'
  rw [image_of_minutes? hm, RelTime.isFeasible_ofMinutes_iff]
  rw [Direction.cost_of_minutes? hm] at hstart hfinish
  rw [Direction.cost_of_minutes? hfirst] at hstart
  rw [Direction.cost_of_minutes? hlast] at hfinish
  cases hdir : s.dir <;> rw [hdir] at hstart hfinish <;>
    simp only [Direction.sign_forward, Direction.sign_backward] at hstart hfinish <;> omega

lemma Mirrors.cost_image (h : s.Mirrors base instant finish)
    (hstart : s.dir.cost s.start ≤ s.dir.cost t) (hfinish : s.dir.cost t ≤ s.dir.cost finish) :
    (s.mirrored base instant).dir.cost (s.image base t) = s.turn base - s.dir.cost t := by
  have hf := h.image_feasible hstart hfinish
  obtain ⟨m, hm⟩ := Direction.exists_minutes (Direction.isFeasible_of_le hfinish h.feasible)
  rw [image_of_minutes? hm] at hf ⊢
  rw [Direction.cost_ofMinutes hf, Direction.cost_of_minutes? hm, dir_mirrored]
  unfold turn
  cases s.dir <;> simp only [Direction.opposite, Direction.sign_forward, Direction.sign_backward] <;>
    omega

section Instants

variable {departure : Instant} {time : ServiceTime} {x : RelTime}

lemma midnight_mirrored (s : Search) (base : Day) (instant : Instant) :
    s.midnight = (s.mirrored base instant).midnight + s.baseDay.daysSince base * 1440 := by
  unfold midnight Calendar.midnight Day.daysSince
  rw [timetable_mirrored, baseDay_mirrored]
  omega

/-- A time of a search, told from another base day, is that of its instant. -/
lemma image_eq_relative (hx : x.minutes? = some (departure.minutes - s.midnight))
    (hge : s.timetable.calendar.midnight base ≤ instant.minutes) :
    s.image base x = s.timetable.calendar.relative base departure := by
  have hmidnight := midnight_mirrored s base instant
  have hbase : (s.mirrored base instant).midnight = s.timetable.calendar.midnight base := rfl
  rw [image_of_minutes? hx]
  rw [Calendar.relative_eq, Calendar.minutes_dayStart hge]
  congr 1
  omega

lemma Spans.mirrors (h : s.Spans finish departure instant)
    (hbase : s.timetable.calendar.split? instant = some (base, time))
    (hrange : (s.timetable.calendar.relative base departure).isFeasible = true) :
    s.Mirrors base instant finish := by
  obtain ⟨hge, hlt, _, _⟩ := Calendar.split?_sound hbase
  have hfinish := image_eq_relative h.finish_eq hge
  refine ⟨?_, hfinish.symm, ?_, ?_⟩
  · rw [RelTime.isFeasible, h.finish_eq]
    rfl
  · rw [hfinish]
    rw [Calendar.relative_eq, Calendar.minutes_dayStart hge, RelTime.isFeasible_ofMinutes_iff]
    omega
  · rw [image_eq_relative h.start_eq hge]
    exact hrange

/-- The way back spans the same instants. -/
lemma Spans.mirrored (h : s.Spans finish departure instant)
    (hbase : s.timetable.calendar.split? instant = some (base, time))
    (hrange : (s.timetable.calendar.relative base departure).isFeasible = true) :
    (s.mirrored base instant).Spans (s.image base s.start) instant departure := by
  obtain ⟨hge, _, _, _⟩ := Calendar.split?_sound hbase
  obtain ⟨hstart, _, _⟩ := minutes_of_at? (exists_at? (q := s.query.mirrored instant) hbase)
  refine ⟨hstart, ?_⟩
  rw [image_eq_relative h.start_eq hge]
  rw [Calendar.relative_eq] at hrange ⊢
  rw [RelTime.minutes?_of_isFeasible hrange, Calendar.minutes_dayStart hge]
  rfl

lemma Spans.sign_instantOf_mirrored (h : (s.mirrored base instant).Spans finish instant departure)
    (hstart : (s.mirrored base instant).dir.cost (s.mirrored base instant).start ≤
      (s.mirrored base instant).dir.cost x)
    (hfinish : (s.mirrored base instant).dir.cost x ≤ (s.mirrored base instant).dir.cost finish) :
    s.dir.sign ((s.mirrored base instant).instantOf x).minutes =
      s.dir.sign s.midnight + (s.turn base - (s.mirrored base instant).dir.cost x) := by
  have hsign := h.sign_instantOf hstart hfinish
  have hmidnight := midnight_mirrored s base instant
  rw [dir_mirrored] at hsign ⊢
  unfold turn
  cases hdir : s.dir <;> simp only [hdir, Direction.opposite, Direction.sign_forward,
    Direction.sign_backward] at hsign ⊢ <;> omega

end Instants

lemma Stands.level_lt {w : Option Walk} (h : s.Stands a w l v t) (ha : a.level < s.levels) :
    v < s.levels := by
  cases h with
  | here hstay => exact lt_levels_of_mem_stays hstay ha
  | walked hstay _ hstay' => exact lt_levels_of_mem_stays hstay' (lt_levels_of_mem_stays hstay ha)

lemma Readies.level_lt {approach : Approach} (h : s.Readies approach l v t)
    (ha : ∀ a w, approach = .fromVehicle a w → a.level < s.levels) : v < s.levels := by
  have hlevels : 0 < s.levels := Nat.succ_pos _
  cases h with
  | start _ hstay => exact lt_levels_of_mem_stays hstay hlevels
  | startOnFoot _ _ hstay => exact lt_levels_of_mem_stays hstay hlevels
  | transfer hstay => exact lt_levels_of_mem_stays hstay (ha _ _ rfl)
  | onFoot h => exact h.level_lt (ha _ _ rfl)

lemma Ride.level_lt (h : s.Ride r trip i j l v a) (hv : v < s.levels) : a.level < s.levels :=
  h.boarded.passes.lt_levels hv

lemma RidesBy.level_lt {ride : SearchLeg} (h : s.RidesBy l v t a ride) (hv : v < s.levels) :
    a.level < s.levels := by
  obtain ⟨r, trip, i, j, hride, _⟩ := h
  exact hride.level_lt hv

lemma Leads.level_lt {legs : List SearchLeg} (h : s.Leads k legs a) : a.level < s.levels := by
  induction h with
  | first hready hrides =>
    exact hrides.level_lt (hready.level_lt fun a w heq => by cases heq)
  | next hready hrides _ ih =>
    refine hrides.level_lt (hready.level_lt fun b w heq => ?_)
    cases heq
    exact ih

/-! ### Riding and changing from the other end -/

/-- A ride brings back whoever is ready when it ends. -/
lemma Mirrors.bringsNear (hm : s.Mirrors base instant finish) (hw : s.timetable.WellFormed)
    (h : s.Ride r trip i j l v a) (hv : v < s.levels) (hintime : s.InTime r trip i t)
    (hstart : s.dir.cost s.start ≤ s.dir.cost t) (hle : s.dir.cost a.time ≤ s.dir.cost finish)
    (hnear : (s.mirrored base instant).Near trip) :
    (s.mirrored base instant).BringsNear a.location (s.query.vias.length - a.level)
      (s.image base a.time) ⟨l, s.query.vias.length - v,
        s.image base (s.boardTime trip (s.positionAt r i))⟩ := by
  have ha := Direction.isFeasible_of_le hle hm.feasible
  have hcost := Brings.cost_le hw ⟨r, trip, i, j, h, hintime⟩
  have hride := h.mirrored (h.level_lt hv) base instant
  have halight : (s.mirrored base instant).alightTime trip (s.positionAt r i) =
      s.image base (s.boardTime trip (s.positionAt r i)) := by
    unfold alightTime Direction.alightEvent
    have hevent : (s.mirrored base instant).dir.opposite.boardEvent = s.dir.boardEvent := by
      rw [dir_mirrored]
      cases s.dir <;> rfl
    rw [hevent]
    exact eventTime_mirrored instant hintime.feasible
  have hboard : (s.mirrored base instant).boardTime trip (s.positionAt r j) =
      s.image base a.time := by
    rw [h.time_eq] at ha ⊢
    exact eventTime_mirrored instant ha
  rw [halight] at hride
  refine ⟨r, trip, _, _, hride, ⟨?_, ?_⟩, hnear⟩
  · rw [positionAt_mirrored base instant h.alight_lt, hboard]
    exact hm.image_feasible (Int.le_trans hstart hcost) hle
  · rw [positionAt_mirrored base instant h.alight_lt, hboard]

/-- The walks of legs are those of plain footpaths. -/
def Plain (s : Search) (legs : List SearchLeg) : Prop :=
  ∀ x ∈ legs, x.kind = .footpath → ∃ f, s.WalksOn x f

/-- Whoever walks as in some legs can walk back. -/
def WalksBack (s : Search) (base : Day) (instant : Instant) (finish : RelTime)
    (legs : List SearchLeg) : Prop :=
  ∀ l t w, w ∈ s.walks l t → w.leg ∈ legs → s.dir.cost s.start ≤ s.dir.cost t →
    s.dir.cost w.finish ≤ s.dir.cost finish → (s.mirrored base instant).WalksBy w.target l
      (s.turn base - s.dir.cost w.finish) (s.turn base - s.dir.cost t)

lemma WalksBack.mono {legs legs' : List SearchLeg} (h : s.WalksBack base instant finish legs)
    (hsub : legs' ⊆ legs) : s.WalksBack base instant finish legs' :=
  fun l t w hwalk hleg => h l t w hwalk (hsub hleg)

/-- On a plain footpath one walks back as long as there. -/
lemma Mirrors.walksBy_footpath (hm : s.Mirrors base instant finish) {target : LocationIndex}
    {d : Duration} {x y : RelTime}
    (hback : ⟨l, d⟩ ∈ s.timetable.footpaths s.dir.opposite target)
    (hstart : s.dir.cost s.start ≤ s.dir.cost x) (hlasts : s.dir.cost x + d.minutes ≤ s.dir.cost y)
    (hfinish : s.dir.cost y ≤ s.dir.cost finish) : (s.mirrored base instant).WalksBy target l
      (s.turn base - s.dir.cost y) (s.turn base - s.dir.cost x) := by
  have hx := hm.cost_image hstart (by omega)
  exact Search.walksBy_footpath (f := ⟨l, d⟩) hback (hm.image_feasible hstart (by omega))
    (by dsimp only; omega) (Int.le_of_eq hx.symm)

lemma Mirrors.walksBack_of_plain (hm : s.Mirrors base instant finish) (hw : s.timetable.WellFormed)
    {legs : List SearchLeg} (hplain : s.Plain legs) : s.WalksBack base instant finish legs := by
  intro l t w hwalk hleg hstart hfinish
  obtain ⟨f, hf⟩ := hplain w.leg hleg rfl
  have hback := hw.footpath_back hf.mem
  have hsource : w.leg.source = l := source_of_mem_walks hwalk
  have hlasts := hf.lasts
  have hbegins := (cost_of_mem_walks hwalk).1
  rw [hf.target_eq, hsource] at hback
  refine hm.walksBy_footpath hback hstart ?_ hfinish
  show s.dir.cost t + f.duration.minutes ≤ s.dir.cost w.leg.finish
  have hbegins' : s.dir.cost t ≤ s.dir.cost w.leg.start := hbegins
  omega

/-- A walk that one finds at a location is found at its other end as well, when one asks there after
it has ended, and lets one leave no earlier. -/
lemma exists_mem_walks_backward {tt : Timetable} (hw : tt.WellFormed) {target : LocationIndex}
    {ready back : Instant} {x : WaitingWalk}
    (hx : (target, x) ∈ TimedFootpath.walks .forward (tt.timedFootpaths .forward l) ready)
    (hpos : 0 < ready.minutes) (hle : ready.minutes + x.total.minutes ≤ back.minutes)
    (hlong : back.minutes < ready.minutes + 65535) : ∃ y,
      (l, y) ∈ TimedFootpath.walks .backward (tt.timedFootpaths .backward target) back ∧
        ready.minutes + y.total.minutes ≤ back.minutes := by
  rw [TimedFootpath.mem_walks_iff (hw.timed_sorted _ _),
    TimedFootpath.runTo_eq_entriesTo (hw.timed_sorted _ _)] at hx
  obtain ⟨y, hy, htotal⟩ := TimedFootpath.exists_walk?_backward l hx hpos hle hlong
  rw [← hw.timed_runs, ← TimedFootpath.runTo_eq_entriesTo (hw.timed_sorted _ _),
    ← TimedFootpath.mem_walks_iff (hw.timed_sorted _ _)] at hy
  exact ⟨y, hy, htotal⟩

/-- Whoever walks forward on a timed footpath, after the epoch, can walk back. -/
lemma Mirrors.walksBy_timed (hm : s.Mirrors base instant finish) (hw : s.timetable.WellFormed)
    {departure : Instant} (hspans : s.Spans finish departure instant)
    (hback : (s.mirrored base instant).Spans (s.image base s.start) instant departure)
    (hdir : s.dir = .forward) (hpos : 0 < departure.minutes) {ready : Instant}
    (hready : s.instant? t = some ready) {target : LocationIndex} {x : WaitingWalk}
    (hx : (target, x) ∈ TimedFootpath.walks s.dir (s.timetable.timedFootpaths s.dir l) ready)
    (hstart : s.dir.cost s.start ≤ s.dir.cost t)
    (hfinish : s.dir.cost (s.dir.add t x.total) ≤ s.dir.cost finish) :
    (s.mirrored base instant).WalksBy target l (s.turn base - s.dir.cost (s.dir.add t x.total))
      (s.turn base - s.dir.cost t) := by
  have hsign (n : Int) : s.dir.sign n = n := by rw [hdir]; rfl
  have hwalk : s.dir.cost t ≤ s.dir.cost (s.dir.add t x.total) := Direction.cost_le_add _ _
  have hbefore := Int.le_trans hwalk hfinish
  have hall := Int.le_trans hstart hbefore
  have hlasts := Direction.cost_add_of_isFeasible (Direction.isFeasible_of_le hfinish hm.feasible)
  have himage := hm.cost_image hstart hbefore
  have himage₀ := hm.cost_image (Int.le_refl _) hall
  have himage₁ := hm.cost_image hall (Int.le_refl _)
  have hf := hm.image_feasible hstart hbefore
  have hbegins := hspans.sign_instantOf hstart hbefore
  rw [instantOf, hready, Option.getD_some, hsign, hsign] at hbegins
  intro u hstart' hu
  have hends : (s.mirrored base instant).dir.cost u ≤
      (s.mirrored base instant).dir.cost (s.image base t) := by omega
  have hinstant' := instant?_eq (s := s.mirrored base instant) (Direction.isFeasible_of_le hends hf)
  have hbegins' := hback.sign_instantOf_mirrored hstart' (by omega)
  rw [hsign, hsign] at hbegins'
  generalize (s.mirrored base instant).instantOf u = back at hbegins' hinstant'
  -- the walk back begins when the walk there has ended, and not too late for one duration
  have hminutes : 0 < ready.minutes ∧ ready.minutes + x.total.minutes ≤ back.minutes ∧
      back.minutes < ready.minutes + 65535 := by
    have hlower : -32767 ≤ s.dir.cost s.start :=
      Direction.neg_costBound_le (Direction.isFeasible_of_le hall hm.feasible)
    have hupper : s.dir.cost finish < 32767 := by
      rw [hdir]
      exact Direction.cost_lt_costBound hm.feasible
    have hdeparture := hspans.cost_start
    rw [hsign] at hdeparture
    rw [hm.start_eq, himage₁] at hstart'
    omega
  obtain ⟨hpositive, hle, hlong⟩ := hminutes
  rw [hdir] at hx
  obtain ⟨y, hy, htotal⟩ := exists_mem_walks_backward hw hx hpositive hle hlong
  refine ⟨(s.mirrored base instant).timedWalk target u l y,
    mem_walks.2 (Or.inr ⟨back, hinstant', l, y, ?_, rfl⟩), rfl, ?_⟩
  · rw [dir_mirrored, hdir]
    exact hy
  · have hleaves : (s.mirrored base instant).dir.cost u + y.total.minutes ≤
        s.turn base - s.dir.cost t := by omega
    exact Int.le_trans (Direction.cost_add_le hf (Int.le_refl _) (by omega)) hleaves

/-- Whoever walks forward, after the epoch, can walk back. -/
lemma Mirrors.walksBack_of_forward (hm : s.Mirrors base instant finish)
    (hw : s.timetable.WellFormed) {departure : Instant} (hspans : s.Spans finish departure instant)
    (hback : (s.mirrored base instant).Spans (s.image base s.start) instant departure)
    (hdir : s.dir = .forward) (hpos : 0 < departure.minutes) (legs : List SearchLeg) :
    s.WalksBack base instant finish legs := by
  intro l t w hwalk _ hstart hfinish
  rcases mem_walks.1 hwalk with ⟨f, hf, rfl⟩ | ⟨ready, hready, target, x, hx, rfl⟩
  · have hlasts := Direction.cost_add_of_isFeasible (Direction.isFeasible_of_le hfinish hm.feasible)
    exact hm.walksBy_footpath (hw.footpath_back hf) hstart (Int.le_of_eq hlasts.symm) hfinish
  · exact hm.walksBy_timed hw hspans hback hdir hpos hready hx hstart hfinish

/-- Whoever changes vehicles can change back. -/
lemma Mirrors.readiesBy (hm : s.Mirrors base instant finish) {walk : Option Walk}
    {board : RelTime} (h : s.Readies (.fromVehicle b walk) l v t)
    (hb : b.level < s.levels) (hstart : s.dir.cost s.start ≤ s.dir.cost b.time)
    (hboard : s.dir.cost t ≤ s.dir.cost board) (hle : s.dir.cost board ≤ s.dir.cost finish)
    (hback : s.WalksBack base instant finish (Walk.legs walk)) :
    (s.mirrored base instant).ReadiesBy ⟨l, s.query.vias.length - v, s.image base board⟩
      b.location (s.query.vias.length - b.level) (s.image base b.time) := by
  have hbt : s.dir.cost b.time ≤ s.dir.cost t := h.cost_le
  have ht := Direction.isFeasible_of_le (Int.le_trans hboard hle) hm.feasible
  have hbefore : s.dir.cost b.time ≤ s.dir.cost finish := by omega
  have hcost := hm.cost_image hstart hbefore
  have hcost' := hm.cost_image (t := board) (by omega) hle
  have hf := hm.image_feasible hstart hbefore
  have hlevel := h.level_lt fun a w heq => by
    cases heq
    exact hb
  cases h with
  | transfer hstay =>
    have hlasts := Direction.cost_add_of_isFeasible ht
    refine readiesBy_transfer (mem_stays_mirrored base instant hstay hlevel) hf ?_
    rw [hcost, hcost', timetable_mirrored]
    dsimp only
    omega
  | onFoot hstands =>
    cases hstands with
    | walked hstay hwalk hstay' =>
      have hfinish := Direction.cost_add_of_isFeasible ht
      have hwalked := cost_of_mem_walks hwalk
      have hleaves := Direction.isFeasible_of_le
        (Int.le_trans hwalked.1 hwalked.2) (Direction.isFeasible_of_add ht)
      have hstayed := Direction.cost_add_of_isFeasible hleaves
      have hwalks := hback _ _ _ hwalk List.mem_cons_self (by omega) (by omega)
      refine readiesBy_onFoot (mem_stays_mirrored base instant hstay' hlevel) hwalks
        (mem_stays_mirrored base instant hstay (lt_levels_of_mem_stays hstay hb)) hf ?_ (by omega) ?_
      · dsimp only
        omega
      · omega

/-- Whoever got ready at the start can arrive there. -/
lemma Mirrors.arrivesBy_start (hm : s.Mirrors base instant finish) {o : Offset}
    {walk : Option Walk} {board : RelTime} {l' : LocationIndex} {v' : Nat} {t' : RelTime}
    (h : s.Readies (.fromStart o walk) l v t) (hboard : s.dir.cost t ≤ s.dir.cost board)
    (hle : s.dir.cost board ≤ s.dir.cost finish)
    (hback : s.WalksBack base instant finish (Walk.legs walk))
    (hready : (s.mirrored base instant).ReadyAfter n l' v' t')
    (hbrings : (s.mirrored base instant).BringsNear l' v' t'
      ⟨l, s.query.vias.length - v, s.image base board⟩) :
    (s.mirrored base instant).ArrivesBy n (s.image base s.start) := by
  have hst : s.dir.cost (s.seedTime o) ≤ s.dir.cost t := h.cost_le
  have hstart : s.dir.cost s.start ≤ s.dir.cost (s.seedTime o) := Direction.cost_le_add _ _
  have ht := Direction.isFeasible_of_le (Int.le_trans hboard hle) hm.feasible
  have hseed : s.dir.cost (s.seedTime o) = s.dir.cost s.start + o.duration.minutes :=
    Direction.cost_add_of_isFeasible (Direction.isFeasible_of_le hst ht)
  have hbefore : s.dir.cost (s.seedTime o) ≤ s.dir.cost finish := by omega
  have hcost := hm.cost_image hstart hbefore
  have hcost' := hm.cost_image (t := board) (by omega) hle
  have hcost₀ := hm.cost_image (t := s.start) (Int.le_refl _) (by omega)
  have hf := hm.image_feasible hstart hbefore
  have hlevel := h.level_lt fun a w heq => by cases heq
  have hlast : s.query.vias.length - 0 + 1 = (s.mirrored base instant).levels := rfl
  have hlasts : (s.mirrored base instant).dir.cost (s.image base (s.seedTime o)) +
      o.duration.minutes ≤ (s.mirrored base instant).dir.cost (s.image base s.start) := by
    rw [hcost, hcost₀]
    omega
  cases h with
  | start ho hstay =>
    have hstayed := Direction.cost_add_of_isFeasible ht
    have hstands : (s.mirrored base instant).StandsBy
        ⟨o.location, s.query.vias.length - v, s.image base board⟩ o.location
          (s.query.vias.length - 0) (s.image base (s.seedTime o)) := by
      refine standsBy_here (mem_stays_mirrored base instant hstay hlevel) hf ?_
      rw [hcost, hcost']
      omega
    exact arrivesBy_of_standsBy hready hbrings hstands hlast ho rfl hm.finish_feasible hlasts
  | startOnFoot ho hwalk hstay =>
    rename_i w stay
    have hfinish := Direction.cost_add_of_isFeasible ht
    have hwalked := cost_of_mem_walks hwalk
    have hwalks := hback _ _ _ hwalk List.mem_cons_self hstart (by omega)
    have hstands : (s.mirrored base instant).StandsBy
        ⟨w.target, s.query.vias.length - v, s.image base board⟩ o.location
          (s.query.vias.length - 0) (s.image base (s.seedTime o)) := by
      refine standsBy_walked (mem_stays_mirrored base instant hstay hlevel) hwalks
        (self_mem_stays _ _) hf ?_ (by omega) ?_
      · dsimp only
        omega
      · rw [Duration.minutes_zero]
        omega
    exact arrivesBy_of_standsBy hready hbrings hstands hlast ho rfl hm.finish_feasible hlasts

lemma exists_kind_rideLeg (s : Search) (r : RouteIndex) (trip : Trip) (i j : Nat)
    (l : LocationIndex) (a : Arrival) : ∃ board alight,
      (s.rideLeg r trip i j l a).kind = .ride trip.transport trip.day board alight := by
  unfold rideLeg
  cases s.dir <;> exact ⟨_, _, rfl⟩

/-- The trips of legs that are rides are looked at. -/
def AllNear (s : Search) (legs : List SearchLeg) : Prop :=
  ∀ x ∈ legs, ∀ transport day board alight, x.kind = .ride transport day board alight →
    s.Near ⟨transport, day⟩

lemma AllNear.mono {legs legs' : List SearchLeg} (h : s.AllNear legs) (hsub : legs' ⊆ legs) :
    s.AllNear legs' :=
  fun x hx => h x (hsub hx)

/-- The ride that ends at an arrival brings back whoever is ready there. -/
lemma Mirrors.bringsNear_of_ridesBy (hm : s.Mirrors base instant finish)
    (hw : s.timetable.WellFormed) {ride : SearchLeg} (h : s.RidesBy l v t a ride)
    (hv : v < s.levels) (hstart : s.dir.cost s.start ≤ s.dir.cost t)
    (hle : s.dir.cost a.time ≤ s.dir.cost finish)
    (hnear : (s.mirrored base instant).AllNear [ride]) : ∃ board,
      (s.mirrored base instant).BringsNear a.location (s.query.vias.length - a.level)
        (s.image base a.time) ⟨l, s.query.vias.length - v, s.image base board⟩ ∧
          s.dir.cost t ≤ s.dir.cost board ∧ s.dir.cost board ≤ s.dir.cost finish := by
  obtain ⟨r, trip, i, j, hride, hintime, rfl⟩ := h
  obtain ⟨first, last, hkind⟩ := exists_kind_rideLeg s r trip i j l a
  have hboard := cost_boardTime_le_alightTime hw hride.boarded.runs hride.boarded.goes_on
    hride.alight_lt hintime.feasible
  rw [← hride.time_eq] at hboard
  refine ⟨s.boardTime trip (s.positionAt r i), ?_, hintime.cost_le, Int.le_trans hboard hle⟩
  exact hm.bringsNear hw hride hv hintime hstart hle
    (hnear _ List.mem_cons_self _ _ _ _ hkind)

/-- Legs that lead to an arrival lead back from it. -/
lemma Mirrors.arrivesBy (hm : s.Mirrors base instant finish) (hw : s.timetable.WellFormed)
    {legs : List SearchLeg} (h : s.Leads k legs a) (hle : s.dir.cost a.time ≤ s.dir.cost finish)
    (hback : s.WalksBack base instant finish legs)
    (hnear : (s.mirrored base instant).AllNear legs)
    (hready : (s.mirrored base instant).ReadyAfter n a.location (s.query.vias.length - a.level)
      (s.image base a.time)) :
    (s.mirrored base instant).ArrivesBy (n + k - 1) (s.image base s.start) := by
  induction h generalizing n with
  | first happroach hrides =>
    rename_i o walk l level t a ride
    have hlevel := happroach.level_lt fun a w heq => by cases heq
    have hstart := Int.le_trans (Direction.cost_le_add s.start o.duration) happroach.cost_le
    have hride : [ride] ⊆ ride :: Walk.legs walk ++ [s.accessLeg o] := by
      intro x hx
      rw [List.mem_singleton.1 hx]
      exact List.mem_cons_self
    have hwalk : Walk.legs walk ⊆ ride :: Walk.legs walk ++ [s.accessLeg o] := fun x hx =>
      List.mem_append_left _ (List.mem_cons_of_mem _ hx)
    obtain ⟨board, hbrings, hboard, hfinish⟩ :=
      hm.bringsNear_of_ridesBy hw hrides hlevel hstart hle (hnear.mono hride)
    exact hm.arrivesBy_start happroach hboard hfinish (hback.mono hwalk) hready hbrings
  | next happroach hrides hleads ih =>
    rename_i k b walk l level t a ride legs
    have hb := hleads.level_lt
    have hlevel := happroach.level_lt fun a w heq => by
      cases heq
      exact hb
    have hbefore := hleads.start_le hw
    have hchange : s.dir.cost b.time ≤ s.dir.cost t := happroach.cost_le
    have hstart := Int.le_trans hbefore hchange
    have hride : [ride] ⊆ ride :: Walk.legs walk ++ legs := by
      intro x hx
      rw [List.mem_singleton.1 hx]
      exact List.mem_cons_self
    have hwalk : Walk.legs walk ⊆ ride :: Walk.legs walk ++ legs := fun x hx =>
      List.mem_append_left _ (List.mem_cons_of_mem _ hx)
    have hlegs : legs ⊆ ride :: Walk.legs walk ++ legs := List.subset_append_right _ _
    obtain ⟨board, hbrings, hboard, hfinish⟩ :=
      hm.bringsNear_of_ridesBy hw hrides hlevel hstart hle (hnear.mono hride)
    have hreadies := hm.readiesBy happroach hb hbefore hboard hfinish (hback.mono hwalk)
    have hway := ih (Int.le_trans hchange (Int.le_trans hboard hfinish)) (hback.mono hlegs)
      (hnear.mono hlegs) (.change hready hbrings hreadies)
    have heq : n + 1 + k - 1 = n + (k + 1) - 1 := by omega
    rw [heq] at hway
    exact hway

/-- Whoever has reached the destination can get ready there to go back. -/
lemma Mirrors.readyAfter (hm : s.Mirrors base instant finish) {h : Hit}
    (harrives : s.Arrives h) (hfinish : h.destinationTime = finish)
    (hstart : s.dir.cost s.start ≤ s.dir.cost h.arrival.time)
    (hback : s.WalksBack base instant finish (Walk.legs h.walk))
    (hend : ∀ w ∈ h.walk, ∀ via ∈ s.query.searchVias.getLast?, via.location ≠ w.target) :
    (s.mirrored base instant).ReadyAfter 0 h.arrival.location
      (s.query.vias.length - h.arrival.level) (s.image base h.arrival.time) := by
  subst hfinish
  obtain ⟨level, hlevel, hstands⟩ := harrives.stands
  obtain ⟨hegress, hlocation⟩ := egress?_sound harrives.egress_eq
  have hf := harrives.feasible
  rw [harrives.time_eq] at hf
  have hlasts := Direction.cost_add_of_isFeasible hf
  have hreached := Direction.isFeasible_of_add hf
  rw [← harrives.time_eq] at hlasts
  have hbefore := hstands.cost_le
  have hall : s.dir.cost s.start ≤ s.dir.cost h.destinationTime := by omega
  have hle : s.dir.cost h.arrival.time ≤ s.dir.cost h.destinationTime := by omega
  have hcost := hm.cost_image hstart hle
  have hcost' := hm.cost_image hall (Int.le_refl _)
  have hf' := hm.image_feasible hstart hle
  have hlevels : s.query.vias.length - level = 0 := Nat.sub_eq_zero_of_le (by
    have heq : level = s.query.vias.length := Nat.succ.inj hlevel
    omega)
  generalize h.walk = walk at hstands hback hend
  generalize h.location = l at hstands hlocation
  generalize h.time = reached at *
  cases hstands with
  | here hstay =>
    rename_i stay
    have hstayed := Direction.cost_add_of_isFeasible hreached
    have hstay' := mem_stays_mirrored base instant hstay (by omega)
    rw [hlevels, ← hlocation] at hstay'
    rw [← hlocation]
    refine readyAfter_start hegress hstay' hf' ?_
    rw [hm.start_eq, hcost, hcost']
    omega
  | walked hstay hwalk hstay' =>
    rename_i level₁ stay stay' w
    obtain ⟨rfl, rfl⟩ := eq_of_mem_stays_last hstay' hlevel (hend w rfl)
    rw [Direction.add_zero] at hreached hlasts
    have hwalked := cost_of_mem_walks hwalk
    have hleaves := Direction.isFeasible_of_le (Int.le_trans hwalked.1 hwalked.2) hreached
    have hstayed := Direction.cost_add_of_isFeasible hleaves
    have hwalks := hback _ _ _ hwalk List.mem_cons_self (by omega) (by omega)
    have hback' := mem_stays_mirrored base instant hstay (by omega)
    rw [hlevels] at hback'
    rw [← hlocation] at hwalks
    refine readyAfter_startOnFoot hegress hwalks hback' hf' ?_ (by omega) (by omega)
    rw [hm.start_eq, hcost']
    omega

end Search

end JourneyPlanner
