import JourneyPlanner.Proofs.Network.Calls

/-!
# What every construction keeps

A builder is sound when its routes, its open route, its service days and its footpaths
fit each other. A new builder is sound and every call keeps it so, whether it fails or not.
-/

namespace JourneyPlanner

namespace Builder

/-- A closed route fits the locations and the transports of its builder. -/
structure RouteFits (locations : Nat) (transports : Array Transport) (index : Nat) (r : Route) :
    Prop where
  two_le : 2 ≤ r.stops.size
  known : ∀ stop ∈ r.stops, stop.location.val < locations
  served : ∀ t : TransportIndex, r.transports.contains t = true →
    ∃ x, transports[t.val]? = some x ∧ x.route.val = index
  inOrder : r.InOrder

/-- The open route fits the locations and the transports of its builder. -/
structure OpenRouteFits (locations : Nat) (transports : Array Transport) (index : Nat)
    (o : OpenRoute) : Prop where
  index_eq : o.index.val = index
  two_le : 2 ≤ o.stops.size
  known : ∀ stop ∈ o.stops, stop.location.val < locations
  last : o.firstTransport.val + o.schedules.size = transports.size
  served : ∀ i, o.firstTransport.val ≤ i → i < transports.size →
    ∃ x, transports[i]? = some x ∧ x.route.val = index
  timed : ∀ ts ∈ o.schedules, NewTransport.IsSchedule o.stops.size ts

/-- A transport belongs to a closed route, or to the open one. -/
def Placed (b : Builder) (i : Nat) (x : Transport) : Prop :=
  (∃ route, b.routes[x.route.val]? = some route ∧ route.transports.contains ⟨i⟩ = true) ∨
    ∃ o, b.openRoute = some o ∧ x.route = o.index ∧ o.firstTransport.val ≤ i

structure Sound (b : Builder) : Prop where
  routes : ∀ (i : Nat) (r : Route), b.routes[i]? = some r →
    RouteFits b.locations.size b.transports i r
  opened : ∀ o, b.openRoute = some o →
    OpenRouteFits b.locations.size b.transports b.routes.size o
  serviceDays : ∀ (i : ServiceDaysIndex) (days : ServiceDays), b.serviceDays.get? i = some days →
    days.capacity = b.calendar.nbOfDays
  footpaths : ∀ x ∈ b.footpaths,
    x.1.val < b.locations.size ∧ x.2.target.val < b.locations.size
  timedFootpaths : ∀ x ∈ b.timedFootpaths,
    x.1.val < b.locations.size ∧ x.2.target.val < b.locations.size
  placed : ∀ (i : Nat) (x : Transport), b.transports[i]? = some x → b.Placed i x

theorem sound_new (c : Calendar) : (new c).Sound := by
  refine ⟨?_, ?_, ?_, ?_, ?_, ?_⟩
  · intro i r h
    simp [new] at h
  · intro o h
    simp [new] at h
  · intro i days h
    simp [new, ServiceDaysStore.get?, ServiceDaysStore.empty] at h
  · intro x h
    simp [new] at h
  · intro x h
    simp [new] at h
  · intro i x h
    simp [new] at h

lemma size_le_register (ls : Locations) (location : Location) :
    ls.size ≤ (ls.register location).2.size := by
  unfold Locations.register
  split
  · exact Nat.le_refl _
  · simp [Locations.size]

lemma get?_intern_cases {s : ServiceDaysStore} {days found : ServiceDays} {i : ServiceDaysIndex}
    (h : (s.intern days).2.get? i = some found) : s.get? i = some found ∨ found = days := by
  rcases s.intern_cases days with ⟨_, _, heq⟩ | ⟨_, heq⟩
  · rw [heq] at h
    exact Or.inl h
  · rw [heq, ServiceDaysStore.get?_push] at h
    split at h
    · exact Or.inr (Option.some.inj h).symm
    · exact Or.inl h

lemma getElem?_push_of_getElem? {α : Type} {xs : Array α} {i : Nat} {x : α} (y : α)
    (h : xs[i]? = some x) : (xs.push y)[i]? = some x := by
  have hi := (Array.getElem?_eq_some_iff.1 h).1
  rw [Array.getElem?_push_lt hi]
  exact (Array.getElem?_eq_getElem hi).symm.trans h

lemma RouteFits.mono {n m i : Nat} {ts us : Array Transport} {r : Route}
    (h : RouteFits n ts i r) (hnm : n ≤ m)
    (hts : ∀ (j : Nat) (x : Transport), ts[j]? = some x → us[j]? = some x) : RouteFits m us i r := by
  refine ⟨h.two_le, ?_, ?_, h.inOrder⟩
  · intro stop hstop
    exact Nat.lt_of_lt_of_le (h.known stop hstop) hnm
  · intro t ht
    obtain ⟨x, hx, hroute⟩ := h.served t ht
    exact ⟨x, hts _ _ hx, hroute⟩

namespace Sound

variable {b : Builder}

lemma location (h : b.Sound) (location : Location) :
    Sound { b with locations := (b.locations.register location).2 } := by
  have hle := size_le_register b.locations location
  refine ⟨?_, ?_, h.serviceDays, ?_, ?_, h.placed⟩
  · intro i r hr
    exact (h.routes i r hr).mono hle fun _ _ hx => hx
  · intro o ho
    have hfits := h.opened o ho
    exact ⟨hfits.index_eq, hfits.two_le,
      fun stop hstop => Nat.lt_of_lt_of_le (hfits.known stop hstop) hle,
      hfits.last, hfits.served, hfits.timed⟩
  · intro x hx
    have hb := h.footpaths x hx
    exact ⟨Nat.lt_of_lt_of_le hb.1 hle, Nat.lt_of_lt_of_le hb.2 hle⟩
  · intro x hx
    have hb := h.timedFootpaths x hx
    exact ⟨Nat.lt_of_lt_of_le hb.1 hle, Nat.lt_of_lt_of_le hb.2 hle⟩

/-- Sets of days of the right capacity may be added at any time. -/
lemma intern (h : b.Sound) {days : ServiceDays} (hcap : days.capacity = b.calendar.nbOfDays) :
    (b.intern days).Sound := by
  refine ⟨h.routes, h.opened, ?_, h.footpaths, h.timedFootpaths, h.placed⟩
  intro i found hfound
  rcases get?_intern_cases hfound with hold | rfl
  · exact h.serviceDays i found hold
  · exact hcap

lemma openRoute (h : b.Sound) {o : OpenRoute} (permissions : Sections Bool) (hopens : b.Opens o) :
    Sound { b with openRoute := some o, bikes := b.bikes.register permissions } := by
  refine ⟨h.routes, ?_, h.serviceDays, h.footpaths, h.timedFootpaths, ?_⟩
  · intro o' ho'
    cases ho'
    refine ⟨hopens.index_eq, hopens.two_le, hopens.known, ?_, ?_, ?_⟩
    · rw [hopens.first_eq, hopens.schedules_eq]
      rfl
    · intro i hi hi'
      rw [hopens.first_eq] at hi
      exact absurd hi' (Nat.not_lt_of_le hi)
    · rw [hopens.schedules_eq]
      intro ts hts
      simp at hts
  · intro i x hx
    rcases h.placed i x hx with hplaced | ⟨o', ho', _⟩
    · exact Or.inl hplaced
    · rw [hopens.closed] at ho'
      cases ho'

variable {r : RouteIndex} {t : NewTransport} {o : OpenRoute} {days : ServiceDays}

lemma capacity_eq (h : b.Sound) (hadmits : b.Admits r t o days) :
    days.capacity = b.calendar.nbOfDays := by
  obtain ⟨given, hgiven, rfl⟩ := hadmits.shifted
  rw [ServiceDays.capacity_shift]
  exact h.serviceDays _ _ hgiven

lemma extend (h : b.Sound) (hadmits : b.Admits r t o days)
    (hspan : NewTransport.beyondSpan? t.normalized = none) : (b.extend r t o days).Sound := by
  have hfits := h.opened o hadmits.opened
  have hkept := h.intern (h.capacity_eq hadmits)
  have hschedule : NewTransport.IsSchedule o.stops.size t.normalized :=
    NewTransport.isSchedule_of_checked (t.length_schedule.trans hadmits.length_eq) hadmits.rises
      hspan
  refine ⟨?_, ?_, hkept.serviceDays, h.footpaths, h.timedFootpaths, ?_⟩
  · intro i route hroute
    exact (h.routes i route hroute).mono (Nat.le_refl _)
      fun j x hx => getElem?_push_of_getElem? _ hx
  · intro o' ho'
    cases ho'
    refine ⟨hfits.index_eq, hfits.two_le, hfits.known, ?_, ?_, ?_⟩
    · have hlast := hfits.last
      simp only [Builder.extend, Array.size_push]
      omega
    · intro i hi hi'
      simp only [Builder.extend, Array.size_push] at hi'
      by_cases hlt : i < b.transports.size
      · obtain ⟨x, hx, hroute⟩ := hfits.served i hi hlt
        exact ⟨x, getElem?_push_of_getElem? _ hx, hroute⟩
      · have heq : i = b.transports.size := by omega
        subst heq
        refine ⟨_, Array.getElem?_push_size, ?_⟩
        change r.val = b.routes.size
        rw [← hadmits.index_eq]
        exact hfits.index_eq
    · intro ts hts
      rcases Array.mem_push.1 hts with hts | rfl
      · exact hfits.timed ts hts
      · exact hschedule
  · intro i x hx
    simp only [Builder.extend, Array.getElem?_push] at hx
    split at hx
    · rename_i heq
      cases hx
      have hlast := hfits.last
      exact Or.inr ⟨_, rfl, hadmits.index_eq.symm, by dsimp only; omega⟩
    · rcases h.placed i x hx with hplaced | ⟨o', ho', hroute, hfirst⟩
      · exact Or.inl hplaced
      · rw [hadmits.opened] at ho'
        cases ho'
        exact Or.inr ⟨_, rfl, hroute, hfirst⟩

lemma closeRoute (h : b.Sound) (hopen : b.openRoute = some o) {route : Route}
    (hcloses : o.Closes route) :
    Sound { b with routes := b.routes.push route, openRoute := none } := by
  have hfits := h.opened o hopen
  refine ⟨?_, ?_, h.serviceDays, h.footpaths, h.timedFootpaths, ?_⟩
  · intro i route' hroute
    rw [Array.getElem?_push] at hroute
    split at hroute
    · rename_i heq
      subst heq
      cases hroute
      refine ⟨?_, ?_, ?_, hcloses.inOrder hfits.two_le hfits.timed⟩
      · rw [hcloses.stops_eq]
        exact hfits.two_le
      · rw [hcloses.stops_eq]
        exact hfits.known
      · intro t ht
        rw [hcloses.transports_eq, IndexRange.contains_iff] at ht
        have hlast := hfits.last
        exact hfits.served t.val ht.1 (by simpa only [hlast] using ht.2)
    · exact h.routes i route' hroute
  · intro o' ho'
    cases ho'
  · intro i x hx
    left
    rcases h.placed i x hx with ⟨route', hroute, hcontains⟩ | ⟨o', ho', hroute, hfirst⟩
    · exact ⟨route', getElem?_push_of_getElem? _ hroute, hcontains⟩
    · rw [hopen] at ho'
      cases ho'
      have hlt := (Array.getElem?_eq_some_iff.1 hx).1
      have hlast := hfits.last
      refine ⟨route, ?_, ?_⟩
      · rw [hroute, hfits.index_eq]
        exact Array.getElem?_push_size
      · rw [hcloses.transports_eq, IndexRange.contains_iff]
        exact ⟨hfirst, by simpa only [hlast] using hlt⟩

lemma footpath (h : b.Sound) {source target : LocationIndex} {duration : Duration}
    (hsource : source.val < b.locations.size) (htarget : target.val < b.locations.size) :
    Sound { b with footpaths := b.footpaths.push (source, ⟨target, duration⟩) } := by
  refine ⟨h.routes, h.opened, h.serviceDays, ?_, h.timedFootpaths, h.placed⟩
  intro x hx
  rcases Array.mem_push.1 hx with hx | rfl
  · exact h.footpaths x hx
  · exact ⟨hsource, htarget⟩

lemma timedFootpath (h : b.Sound) {source target : LocationIndex} {validFrom : Instant}
    {duration : Duration} (hsource : source.val < b.locations.size)
    (htarget : target.val < b.locations.size) :
    Sound { b with
      timedFootpaths := b.timedFootpaths.push (source, ⟨target, validFrom, duration⟩) } := by
  refine ⟨h.routes, h.opened, h.serviceDays, h.footpaths, ?_, h.placed⟩
  intro x hx
  rcases Array.mem_push.1 hx with hx | rfl
  · exact h.timedFootpaths x hx
  · exact ⟨hsource, htarget⟩

theorem step {b' : Builder} (h : b.Sound) (hstep : b.Step b') : b'.Sound := by
  cases hstep with
  | stay => exact h
  | location location => exact h.location location
  | days hcap => exact h.intern hcap
  | opened hopens => exact h.openRoute _ hopens
  | late hadmits _ => exact h.intern (h.capacity_eq hadmits)
  | extended hadmits hspan => exact h.extend hadmits hspan
  | spoiled _ _ => exact ⟨h.routes, h.opened, h.serviceDays, h.footpaths, h.timedFootpaths, h.placed⟩
  | closed hopen hclose => exact h.closeRoute hopen (OpenRoute.closes_of_close hclose)
  | footpath hsource htarget => exact h.footpath hsource htarget
  | timedFootpath hsource htarget => exact h.timedFootpath hsource htarget

end Sound

theorem sound_run {b : Builder} (h : b.Sound) (calls : List Call) : (b.run calls).2.Sound :=
  run_keeps (P := Sound) (fun _ _ hstep hsound => hsound.step hstep) h calls

/-- A built timetable is the frozen state of a sound builder with no open route. -/
theorem exists_sound_of_isBuilt {tt : Timetable} (h : tt.IsBuilt) :
    ∃ b : Builder, b.Sound ∧ b.openRoute = none ∧ tt = b.freeze := by
  obtain ⟨c, calls, hbuild⟩ := h
  obtain ⟨_, hclosed, _, hfreeze⟩ := build_eq_ok_iff.1 hbuild
  exact ⟨_, sound_run (sound_new c) calls, hclosed, hfreeze.symm⟩

end Builder
end JourneyPlanner
