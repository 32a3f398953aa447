import Mathlib.Data.List.Chain
import Mathlib.Tactic.Common
import JourneyPlanner.Network.Builder

/-!
# Tables of times

The times of one transport never decrease from one event to the next, and the times of
one event never decrease from one transport to the next. Both hold of every route that
could be closed.
-/

namespace JourneyPlanner

namespace StopEvent

/-- The events in the order of their rows: each departure is followed by an arrival. -/
lemma all_eq (m : Nat) :
    all (m + 2) = (List.range (m + 1)).flatMap fun p => [(p, departure), (p + 1, arrival)] := by
  have hinner : ∀ k, (List.range (k + 1)).flatMap
      (fun p => (if p = 0 then [] else [(p, arrival)]) ++ [(p, departure)]) =
        ((List.range k).flatMap fun p => [(p, departure), (p + 1, arrival)]) ++
          [(k, departure)] := by
    intro k
    induction k with
    | zero => rfl
    | succ k ih =>
      rw [List.range_succ, List.flatMap_append, ih]
      conv => rhs; rw [List.range_succ, List.flatMap_append]
      simp
  have hlast : (List.range (m + 1)).flatMap (fun p => (if p = 0 then [] else [(p, arrival)]) ++
        (if p + 1 = m + 2 then [] else [(p, departure)])) =
      (List.range (m + 1)).flatMap
        fun p => (if p = 0 then [] else [(p, arrival)]) ++ [(p, departure)] := by
    rw [List.flatMap_def, List.flatMap_def]
    congr 1
    apply List.map_congr_left
    intro p hp
    have hlt := List.mem_range.1 hp
    rw [if_neg (show ¬p + 1 = m + 2 by omega)]
  unfold all
  rw [List.range_succ, List.flatMap_append, hlast, hinner]
  conv => rhs; rw [List.range_succ, List.flatMap_append]
  simp

lemma length_pairs {α : Type} (a b : Nat → α) (k : Nat) :
    ((List.range k).flatMap fun p => [a p, b p]).length = 2 * k := by
  induction k with
  | zero => rfl
  | succ k ih =>
    rw [List.range_succ, List.flatMap_append, List.length_append, ih]
    rfl

lemma getElem?_pairs {α : Type} (a b : Nat → α) (k i : Nat) :
    ((List.range k).flatMap fun p => [a p, b p])[i]? =
      if i < 2 * k then some (if i % 2 = 0 then a (i / 2) else b (i / 2)) else none := by
  induction k with
  | zero => simp
  | succ k ih =>
    rw [List.range_succ, List.flatMap_append, List.getElem?_append, length_pairs, ih]
    by_cases hlt : i < 2 * k
    · have hlt' : i < 2 * (k + 1) := by omega
      rw [if_pos hlt, if_pos hlt, if_pos hlt']
    · rw [if_neg hlt]
      by_cases h0 : i = 2 * k
      · subst h0
        rw [if_pos (by omega), if_pos (by omega)]
        simp
      · by_cases h1 : i = 2 * k + 1
        · subst h1
          have hdiv : (2 * k + 1) / 2 = k := by omega
          have hone : 2 * k + 1 - 2 * k = 1 := by omega
          rw [if_pos (by omega), if_neg (by omega), hdiv, hone]
          rfl
        · obtain ⟨d, hd⟩ : ∃ d, i - 2 * k = d + 2 := ⟨i - 2 * k - 2, by omega⟩
          rw [if_neg (by omega), hd]
          rfl

lemma getElem?_all {n : Nat} (hn : 2 ≤ n) (i : Nat) :
    (all n)[i]? = if i < 2 * (n - 1) then
      some (if i % 2 = 0 then (i / 2, departure) else (i / 2 + 1, arrival)) else none := by
  obtain ⟨m, rfl⟩ : ∃ m, n = m + 2 := ⟨n - 2, by omega⟩
  rw [all_eq, getElem?_pairs]
  rfl

lemma length_all {n : Nat} (hn : 2 ≤ n) : (all n).length = 2 * (n - 1) := by
  obtain ⟨m, rfl⟩ : ∃ m, n = m + 2 := ⟨n - 2, by omega⟩
  rw [all_eq, length_pairs]
  omega

lemma getElem?_all_row {n i : Nat} {e : Nat × StopEvent} (hn : 2 ≤ n)
    (h : (all n)[i]? = some e) : e.2.row e.1 = i := by
  rw [getElem?_all hn] at h
  split at h
  · cases h
    split
    · exact Nat.mul_div_cancel' (Nat.dvd_of_mod_eq_zero ‹_›)
    · change 2 * (i / 2 + 1) - 1 = i
      omega
  · cases h

lemma mem_all_iff {n p : Nat} {event : StopEvent} : (p, event) ∈ all n ↔
    p < n ∧ (event = arrival → p ≠ 0) ∧ (event = departure → p + 1 ≠ n) := by
  simp only [all, List.mem_flatMap, List.mem_range, List.mem_append]
  cases event <;> grind

lemma row_lt {n p : Nat} {event : StopEvent} (h : (p, event) ∈ all n) :
    event.row p < 2 * (n - 1) ∧ (all n)[event.row p]? = some (p, event) := by
  have hn : 2 ≤ n := by
    obtain ⟨hp, harrival, hdeparture⟩ := mem_all_iff.1 h
    cases event with
    | arrival => have := harrival rfl; omega
    | departure => have := hdeparture rfl; omega
  obtain ⟨i, hi⟩ := List.getElem?_of_mem h
  have hrow := getElem?_all_row hn hi
  have hlt := (List.getElem?_eq_some_iff.1 hi).1
  rw [length_all hn] at hlt
  rw [hrow]
  exact ⟨hlt, hi⟩

end StopEvent

namespace NewTransport

/-- The times of a transport that may stand in a route of `n` stops. -/
structure IsSchedule (n : Nat) (schedule : List StopTime) : Prop where
  length_eq : schedule.length = n
  stay : ∀ (p : Nat) (s : StopTime), schedule[p]? = some s → s.arrival ≤ s.departure
  ride : ∀ (p : Nat) (s t : StopTime), schedule[p]? = some s → schedule[p + 1]? = some t →
    s.departure ≤ t.arrival
  in_span : ∀ s ∈ schedule, s.departure.minutes < maxDaysInTrip * minutesPerDay

/-- The time of an event, or midnight when the schedule has no such event. -/
def eventAt (schedule : List StopTime) (e : Nat × StopEvent) : ServiceTime :=
  ((schedule[e.1]?).map (·.time e.2)).getD .midnight

namespace IsSchedule

variable {n : Nat} {schedule : List StopTime}

lemma eventAt_le_succ (h : IsSchedule n schedule) (hn : 2 ≤ n) {i : Nat} {e f : Nat × StopEvent}
    (he : (StopEvent.all n)[i]? = some e) (hf : (StopEvent.all n)[i + 1]? = some f) :
    eventAt schedule e ≤ eventAt schedule f := by
  have hlen := h.length_eq
  rw [StopEvent.getElem?_all hn] at he hf
  have hi : i + 1 < 2 * (n - 1) := by
    by_contra hge
    rw [if_neg hge] at hf
    cases hf
  rw [if_pos (by omega)] at he
  rw [if_pos hi] at hf
  by_cases heven : i % 2 = 0
  · have hodd : ¬(i + 1) % 2 = 0 := by omega
    have hdiv : (i + 1) / 2 = i / 2 := by omega
    have hp : i / 2 < schedule.length := by omega
    have hp' : i / 2 + 1 < schedule.length := by omega
    rw [if_pos heven] at he
    rw [if_neg hodd, hdiv] at hf
    cases he
    cases hf
    have hride := h.ride _ _ _ (List.getElem?_eq_getElem hp) (List.getElem?_eq_getElem hp')
    simpa [eventAt, List.getElem?_eq_getElem hp, List.getElem?_eq_getElem hp', StopTime.time]
      using hride
  · have hodd : (i + 1) % 2 = 0 := by omega
    have hdiv : (i + 1) / 2 = i / 2 + 1 := by omega
    have hp : i / 2 + 1 < schedule.length := by omega
    rw [if_neg heven] at he
    rw [if_pos hodd, hdiv] at hf
    cases he
    cases hf
    have hstay := h.stay _ _ (List.getElem?_eq_getElem hp)
    simpa [eventAt, List.getElem?_eq_getElem hp, StopTime.time] using hstay

/-- The events of a transport come in the order of their rows. -/
lemma eventAt_le (h : IsSchedule n schedule) (hn : 2 ≤ n) {i j : Nat} (hij : i ≤ j)
    {e f : Nat × StopEvent} (he : (StopEvent.all n)[i]? = some e)
    (hf : (StopEvent.all n)[j]? = some f) : eventAt schedule e ≤ eventAt schedule f := by
  induction hij generalizing f with
  | refl =>
    cases he.symm.trans hf
    exact Nat.le_refl _
  | step hle ih =>
    rename_i m
    have hm : m < (StopEvent.all n).length := by
      have := (List.getElem?_eq_some_iff.1 hf).1
      omega
    have hg := List.getElem?_eq_getElem hm
    exact Nat.le_trans (ih hg) (h.eventAt_le_succ hn hg hf)

lemma eventAt_lt (h : IsSchedule n schedule) (e : Nat × StopEvent) :
    (eventAt schedule e).minutes < maxDaysInTrip * minutesPerDay := by
  unfold eventAt
  cases hs : schedule[e.1]? with
  | none => exact Nat.mul_pos (by decide) (by decide)
  | some s =>
    have hmem := List.mem_of_getElem? hs
    have hspan := h.in_span s hmem
    have hstay : s.arrival.minutes ≤ s.departure.minutes := h.stay _ _ hs
    rw [Option.map_some, Option.getD_some]
    cases e.2 with
    | arrival => exact Nat.lt_of_le_of_lt hstay hspan
    | departure => exact hspan

end IsSchedule

lemma length_withoutFirstArrival (ts : List StopTime) :
    (withoutFirstArrival ts).length = ts.length := by
  cases ts <;> rfl

lemma length_withoutLastDeparture (ts : List StopTime) :
    (withoutLastDeparture ts).length = ts.length := by
  fun_induction withoutLastDeparture ts with
  | case1 => rfl
  | case2 => rfl
  | case3 s rest _ ih => rw [List.length_cons, List.length_cons, ih]

lemma length_schedule (t : NewTransport) : t.schedule.length = t.stopTimes.length := by
  rw [schedule, length_withoutLastDeparture, length_withoutFirstArrival]

/-- Times that decrease nowhere grow at every stop and from every stop to the next one. -/
lemma le_of_decrease?_eq_none {ts : List StopTime} (hdec : decrease? ts = none) {p : Nat}
    {s : StopTime} (hs : ts[p]? = some s) :
    s.arrival ≤ s.departure ∧ ∀ u, ts[p + 1]? = some u → s.departure ≤ u.arrival := by
  have hp : p < ts.length := (List.getElem?_eq_some_iff.1 hs).1
  have hnot := List.find?_eq_none.1 hdec p (List.mem_range.2 hp)
  rw [hs] at hnot
  obtain ⟨hstay, hride⟩ := Bool.or_eq_false_iff.1 (Bool.eq_false_iff.2 hnot)
  constructor
  · exact Nat.le_of_not_lt (of_decide_eq_false hstay)
  · intro u hu
    rw [hu] at hride
    exact Nat.le_of_not_lt (of_decide_eq_false hride)

/-- Times that decrease nowhere and stay in the span are a schedule, counted from any day. -/
lemma isSchedule_of_checked {n days : Nat} {ts : List StopTime} (hlen : ts.length = n)
    (hdec : decrease? ts = none)
    (hspan : beyondSpan? (ts.map (·.earlierByDays days)) = none) :
    IsSchedule n (ts.map (·.earlierByDays days)) := by
  refine ⟨by rw [List.length_map, hlen], ?_, ?_, ?_⟩
  · intro p s hs
    rw [List.getElem?_map] at hs
    obtain ⟨u, hu, rfl⟩ := Option.map_eq_some_iff.1 hs
    exact Nat.sub_le_sub_right (le_of_decrease?_eq_none hdec hu).1 _
  · intro p s t hs ht
    rw [List.getElem?_map] at hs ht
    obtain ⟨u, hu, rfl⟩ := Option.map_eq_some_iff.1 hs
    obtain ⟨v, hv, rfl⟩ := Option.map_eq_some_iff.1 ht
    exact Nat.sub_le_sub_right ((le_of_decrease?_eq_none hdec hu).2 v hv) _
  · intro s hs
    have h := List.findIdx?_eq_none_iff.1 hspan s hs
    exact Nat.lt_of_not_le (of_decide_eq_false h)

end NewTransport

namespace OpenRoute

lemma pairwise_of_isSorted {row : List ServiceTime} (h : isSorted row = true) :
    row.Pairwise fun a b => a.minutes ≤ b.minutes := by
  have hchain : row.IsChain fun a b => a.minutes ≤ b.minutes := by
    fun_induction isSorted row with
    | case1 a b rest ih =>
      obtain ⟨hab, hrest⟩ := Bool.and_eq_true_iff.1 h
      exact List.IsChain.cons_cons (of_decide_eq_true hab) (ih hrest)
    | case2 row hrow =>
      match row with
      | [] => exact List.IsChain.nil
      | [a] => exact List.IsChain.singleton a
      | a :: b :: rest => exact absurd rfl (hrow a b rest)
  have : IsTrans ServiceTime fun a b => a.minutes ≤ b.minutes := ⟨fun _ _ _ => Nat.le_trans⟩
  exact List.isChain_iff_pairwise.1 hchain

/-- What is known of a route that could be closed. -/
structure Closes (o : OpenRoute) (r : Route) : Prop where
  stops_eq : r.stops = o.stops
  classes_eq : r.classes = o.classes
  transports_eq : r.transports = ⟨o.firstTransport, o.schedules.size⟩
  sorted : ∀ row ∈ o.rows, isSorted row = true
  times_eq : r.times = .ofRows o.schedules.size .midnight o.rows

lemma closes_of_close {o : OpenRoute} {r : Route} (h : o.close = .ok r) : Closes o r := by
  unfold close at h
  split at h
  · cases h
  · split at h
    · cases h
    · rename_i hrows
      cases h
      refine ⟨rfl, rfl, rfl, ?_, rfl⟩
      intro row hrow
      have hs := List.findIdx?_eq_none_iff.1 hrows row hrow
      simpa using hs

lemma Closes.rows_eq {o : OpenRoute} {r : Route} (h : Closes o r) (hn : 2 ≤ o.stops.size) :
    r.times.rows = 2 * (r.stops.size - 1) := by
  rw [h.times_eq, h.stops_eq, Grid.rows_ofRows, rows, List.length_map, StopEvent.length_all hn]

lemma Closes.columns_eq {o : OpenRoute} {r : Route} (h : Closes o r) :
    r.times.columns = r.transports.size := by
  rw [h.times_eq, h.transports_eq, Grid.columns_ofRows]

/-- The cell of a closed route: an event of the schedule of its column. -/
lemma Closes.get?_times {o : OpenRoute} {r : Route} (h : Closes o r) (hn : 2 ≤ o.stops.size)
    {i c : Nat} (hi : i < 2 * (o.stops.size - 1)) (hc : c < o.schedules.size) :
    ∃ e, (StopEvent.all o.stops.size)[i]? = some e ∧
      r.times.get? i c = some (NewTransport.eventAt o.schedules[c] e) := by
  have hlen := StopEvent.length_all hn
  have hi' : i < (StopEvent.all o.stops.size).length := by rw [hlen]; exact hi
  refine ⟨_, List.getElem?_eq_getElem hi', ?_⟩
  have hrow : i < o.rows.length := by rw [rows, List.length_map]; exact hi'
  rw [h.times_eq, Grid.get?_ofRows hrow hc]
  simp [rows, eventTimes, NewTransport.eventAt, hc]

end OpenRoute

/-- The table of a route: times grow down every column and along every row, and no event is
too late. -/
structure Route.InOrder (r : Route) : Prop where
  along : ∀ {i j c : Nat}, i ≤ j → j < 2 * (r.stops.size - 1) → c < r.transports.size →
    ∃ t u, r.times.get? i c = some t ∧ r.times.get? j c = some u ∧ t.minutes ≤ u.minutes
  across : ∀ {i c d : Nat}, i < 2 * (r.stops.size - 1) → c ≤ d → d < r.transports.size →
    ∃ t u, r.times.get? i c = some t ∧ r.times.get? i d = some u ∧ t.minutes ≤ u.minutes
  in_span : ∀ {i c : Nat} {t : ServiceTime}, r.times.get? i c = some t →
    t.minutes < maxDaysInTrip * minutesPerDay

namespace OpenRoute

lemma Closes.inOrder {o : OpenRoute} {r : Route} (h : Closes o r) (hn : 2 ≤ o.stops.size)
    (hs : ∀ ts ∈ o.schedules, NewTransport.IsSchedule o.stops.size ts) : r.InOrder := by
  have hschedule : ∀ {c : Nat} (hc : c < o.schedules.size),
      NewTransport.IsSchedule o.stops.size o.schedules[c] :=
    fun hc => hs _ (Array.getElem_mem hc)
  refine ⟨?_, ?_, ?_⟩
  · intro i j c hij hj hc
    rw [h.stops_eq] at hj
    rw [h.transports_eq] at hc
    obtain ⟨e, he, het⟩ := h.get?_times hn (i := i) (by omega) hc
    obtain ⟨f, hf, hft⟩ := h.get?_times hn hj hc
    exact ⟨_, _, het, hft, (hschedule hc).eventAt_le hn hij he hf⟩
  · intro i c d hi hcd hd
    rw [h.stops_eq] at hi
    have hd : d < o.schedules.size := by
      rw [h.transports_eq] at hd
      exact hd
    have hc : c < o.schedules.size := Nat.lt_of_le_of_lt hcd hd
    obtain ⟨e, he, het⟩ := h.get?_times hn hi hc
    obtain ⟨f, hf, hft⟩ := h.get?_times hn hi hd
    cases he.symm.trans hf
    refine ⟨_, _, het, hft, ?_⟩
    have hrow : o.eventTimes e ∈ o.rows :=
      List.mem_map.2 ⟨e, List.mem_of_getElem? he, rfl⟩
    have hpair := pairwise_of_isSorted (h.sorted _ hrow)
    rcases Nat.eq_or_lt_of_le hcd with rfl | hlt
    · exact Nat.le_refl _
    · have hlen : (o.eventTimes e).length = o.schedules.size := by simp [eventTimes]
      have hcd' := List.pairwise_iff_getElem.1 hpair c d (by omega) (by omega) hlt
      simpa [eventTimes, NewTransport.eventAt] using hcd'
  · intro i c t ht
    have hin := Grid.get?_isSome_iff.1 (Option.isSome_of_eq_some ht)
    rw [h.rows_eq hn, h.columns_eq, h.stops_eq, h.transports_eq] at hin
    obtain ⟨e, _, het⟩ := h.get?_times hn hin.1 hin.2
    cases ht.symm.trans het
    exact (hschedule hin.2).eventAt_lt e

end OpenRoute
end JourneyPlanner
