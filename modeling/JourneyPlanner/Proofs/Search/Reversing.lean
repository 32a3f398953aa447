import JourneyPlanner.Proofs.Search.Recovery
import JourneyPlanner.Proofs.Search.Leeway

/-!
# Searching in the other direction

A search in the other direction meets the same stops, stays and via stops from the other end.
-/

namespace JourneyPlanner

namespace Search

/-- The search in the other direction from an instant of a day, between the same places. -/
def mirrored (s : Search) (base : Day) (t : Instant) : Search :=
  ⟨s.timetable, s.query.mirrored t, base, s.timetable.calendar.relative base t⟩

variable {s : Search} {base : Day} {instant : Instant} {l : LocationIndex} {u v w : Nat}
  {r : RouteIndex} {i j n : Nat}

@[simp] lemma timetable_mirrored (s : Search) (base : Day) (t : Instant) :
    (s.mirrored base t).timetable = s.timetable := rfl

@[simp] lemma baseDay_mirrored (s : Search) (base : Day) (t : Instant) :
    (s.mirrored base t).baseDay = base := rfl

@[simp] lemma dir_mirrored (s : Search) (base : Day) (t : Instant) :
    (s.mirrored base t).dir = s.dir.opposite := rfl

lemma searchVias_mirrored (q : Query) (t : Instant) :
    (q.mirrored t).searchVias = q.searchVias.reverse := by
  unfold Query.searchVias Query.mirrored
  cases q.direction with
  | forward => rfl
  | backward => exact List.reverse_reverse _ ▸ rfl

lemma length_searchVias (q : Query) : q.searchVias.length = q.vias.length := by
  unfold Query.searchVias
  split
  · rfl
  · exact List.length_reverse

/-- A stay at a location serves via stops that come one after the other. -/
lemma mem_staysAt_iff {vias : List ViaStop} {stay d : Duration} :
    (w, d) ∈ staysAt l v stay vias ↔ ∃ k ≤ vias.length, w = v + k ∧
      (∀ via ∈ vias.take k, via.location = l) ∧
        d = (vias.take k).foldl (fun stay via => stay.add via.stay) stay := by
  induction vias generalizing v stay with
  | nil =>
    rw [staysAt, List.mem_singleton, Prod.mk.injEq]
    constructor
    · rintro ⟨rfl, rfl⟩
      exact ⟨0, Nat.le_refl _, rfl, fun _ hvia => absurd hvia List.not_mem_nil, rfl⟩
    · rintro ⟨k, hk, rfl, _, rfl⟩
      have hzero : k = 0 := Nat.le_zero.1 hk
      subst hzero
      exact ⟨rfl, rfl⟩
  | cons via rest ih =>
    rw [staysAt, List.mem_cons, Prod.mk.injEq]
    constructor
    · rintro (⟨rfl, rfl⟩ | h)
      · exact ⟨0, Nat.zero_le _, rfl, fun _ hvia => absurd hvia List.not_mem_nil, rfl⟩
      · split at h
        · rename_i hl
          obtain ⟨k, hk, rfl, hlocations, rfl⟩ := ih.1 h
          refine ⟨k + 1, Nat.succ_le_succ hk, by omega, ?_, rfl⟩
          intro other hother
          rcases List.mem_cons.1 hother with rfl | hother
          · exact hl
          · exact hlocations other hother
        · cases h
    · rintro ⟨k, hk, rfl, hlocations, rfl⟩
      cases k with
      | zero => exact Or.inl ⟨rfl, rfl⟩
      | succ k =>
        rw [if_pos (hlocations via List.mem_cons_self)]
        exact Or.inr (ih.2 ⟨k, Nat.le_of_succ_le_succ hk, by omega,
          fun other hother => hlocations other (List.mem_cons_of_mem _ hother), rfl⟩)

lemma foldl_stay_reverse (vias : List ViaStop) (stay : Duration) :
    vias.reverse.foldl (fun stay via => stay.add via.stay) stay =
      vias.foldl (fun stay via => stay.add via.stay) stay := by
  refine (List.reverse_perm vias).foldl_eq' (fun x _ y _ z => ?_) stay
  rw [Duration.add_assoc, Duration.add_comm x.stay, ← Duration.add_assoc]

/-- What is stayed from one level to another is stayed back from the other end. -/
lemma mem_stays_mirrored (base : Day) (t : Instant) {d : Duration} (h : (w, d) ∈ s.stays l v)
    (hw : w < s.levels) :
    (s.query.vias.length - v, d) ∈ (s.mirrored base t).stays l (s.query.vias.length - w) := by
  obtain ⟨k, hk, rfl, hlocations, rfl⟩ := mem_staysAt_iff.1 h
  have hlength := length_searchVias s.query
  have hlevels : v + k < s.query.vias.length + 1 := hw
  have htake : ((s.query.searchVias.reverse).drop (s.query.vias.length - (v + k))).take k =
      ((s.query.searchVias.drop v).take k).reverse := by
    rw [List.drop_reverse, List.take_reverse, List.length_take, List.drop_take, hlength]
    congr 1
    have h₁ : s.query.vias.length - (s.query.vias.length - (v + k)) = v + k := by omega
    have h₂ : min (v + k) s.query.vias.length - k = v := by omega
    have h₃ : v + k - v = k := by omega
    rw [h₁, h₂, h₃]
  unfold stays
  refine mem_staysAt_iff.2 ⟨k, ?_, by omega, ?_, ?_⟩
  · show k ≤ ((s.query.mirrored t).searchVias.drop _).length
    rw [searchVias_mirrored, List.length_drop, List.length_reverse, hlength]
    omega
  · show ∀ via ∈ ((s.query.mirrored t).searchVias.drop _).take k, _
    rw [searchVias_mirrored, htake]
    exact fun via hvia => hlocations via (List.mem_reverse.1 hvia)
  · show _ = (((s.query.mirrored t).searchVias.drop _).take k).foldl _ _
    rw [searchVias_mirrored, htake, foldl_stay_reverse]

/-- Where the last via stop is not, nobody comes to the last level. -/
lemma eq_of_mem_stays_last {d : Duration} (h : (w, d) ∈ s.stays l v) (hw : w + 1 = s.levels)
    (hlast : ∀ via ∈ s.query.searchVias.getLast?, via.location ≠ l) : v = w ∧ d = .zero := by
  obtain ⟨k, hk, rfl, hlocations, rfl⟩ := mem_staysAt_iff.1 h
  have hlength := length_searchVias s.query
  have hlevels : v + k + 1 = s.query.vias.length + 1 := hw
  cases k with
  | zero => exact ⟨rfl, rfl⟩
  | succ k =>
    have hlt : v + k < s.query.searchVias.length := by omega
    have hmem : s.query.searchVias[v + k] ∈ (s.query.searchVias.drop v).take (k + 1) := by
      refine List.mem_of_getElem? (i := k) ?_
      rw [List.getElem?_take_of_lt (Nat.lt_succ_self k), List.getElem?_drop]
      exact List.getElem?_eq_getElem hlt
    have hget : s.query.searchVias.getLast? = some s.query.searchVias[v + k] := by
      rw [List.getLast?_eq_getElem?, ← List.getElem?_eq_getElem hlt]
      congr 1
      omega
    exact absurd (hlocations _ hmem) (hlast _ hget)

lemma viaAt?_mirrored (base : Day) (t : Instant) (h : v < s.query.vias.length) :
    (s.mirrored base t).viaAt? (s.query.vias.length - 1 - v) l = s.viaAt? v l := by
  have hlength := length_searchVias s.query
  unfold viaAt?
  show ((s.query.mirrored t).searchVias[_]?).filter _ = _
  rw [searchVias_mirrored, List.getElem?_reverse (by omega), hlength]
  congr 2
  omega

lemma PassesAt.mirrored (h : s.PassesAt l u v) (hv : v < s.levels) (base : Day) (t : Instant) :
    (s.mirrored base t).PassesAt l (s.query.vias.length - v) (s.query.vias.length - u) := by
  obtain ⟨hle, hvias⟩ := h
  have hlevels : v < s.query.vias.length + 1 := hv
  refine ⟨by omega, fun x hx hxu => ?_⟩
  obtain ⟨via, hvia, hstay⟩ := hvias (s.query.vias.length - 1 - x) (by omega) (by omega)
  refine ⟨via, ?_, hstay⟩
  rw [← viaAt?_mirrored base t (by omega)] at hvia
  have heq : s.query.vias.length - 1 - (s.query.vias.length - 1 - x) = x := by omega
  rw [heq] at hvia
  exact hvia

lemma nbOfStops_mirrored (base : Day) (t : Instant) (r : RouteIndex) :
    (s.mirrored base t).nbOfStops r = s.nbOfStops r := rfl

lemma positionAt_mirrored (base : Day) (t : Instant) (h : i < s.nbOfStops r) :
    (s.mirrored base t).positionAt r (s.nbOfStops r - 1 - i) = s.positionAt r i := by
  unfold positionAt
  rw [dir_mirrored, nbOfStops_mirrored]
  cases s.dir with
  | forward =>
    simp only [Direction.opposite, Direction.position]
    omega
  | backward => rfl

lemma stopAt?_mirrored (base : Day) (t : Instant) (h : i < s.nbOfStops r) :
    (s.mirrored base t).stopAt? r (s.nbOfStops r - 1 - i) = s.stopAt? r i := by
  unfold stopAt?
  rw [positionAt_mirrored base t h, timetable_mirrored]

lemma canFinish_mirrored (base : Day) (t : Instant) (stop : RouteStop) :
    stop.canFinish (s.mirrored base t).dir = stop.canStart s.dir := by
  unfold RouteStop.canFinish
  rw [dir_mirrored]
  cases s.dir <;> rfl

/-- The section between two stops is the same from both. -/
lemma canLeave_mirrored (base : Day) (t : Instant) (h : i + 1 < s.nbOfStops r) :
    (s.mirrored base t).query.canLeave s.timetable r
        ((s.mirrored base t).positionAt r (s.nbOfStops r - 1 - (i + 1))) =
      s.query.canLeave s.timetable r (s.positionAt r i) := by
  rw [positionAt_mirrored base t h]
  have hsection : (s.mirrored base t).dir.sectionFrom (s.positionAt r (i + 1)) =
      s.dir.sectionFrom (s.positionAt r i) := by
    unfold positionAt
    rw [dir_mirrored]
    cases s.dir <;> simp only [Direction.opposite, Direction.position, Direction.sectionFrom] <;>
      omega
  unfold Query.canLeave
  show (!s.query.requireBikes || (s.timetable.bikeAccess r).allows
    ((s.mirrored base t).dir.sectionFrom _)) = _
  rw [hsection]
  rfl

lemma PassesVias.cons {first : Nat} {stop : RouteStop} (hstop : s.stopAt? r first = some stop)
    (hat : s.PassesAt stop.location u v) (h : s.PassesVias r (first + 1) v n w) :
    s.PassesVias r first u n w := by
  induction h with
  | nil => exact PassesVias.nil.snoc hstop hat
  | snoc _ hnext hpasses ih => exact ih.snoc hnext hpasses

lemma PassesVias.mirrored (h : s.PassesVias r i u j v) (hj : j ≤ s.nbOfStops r)
    (hv : v < s.levels) (base : Day) (t : Instant) :
    (s.mirrored base t).PassesVias r (s.nbOfStops r - j) (s.query.vias.length - v)
      (s.nbOfStops r - i) (s.query.vias.length - u) := by
  induction h with
  | nil => exact .nil
  | snoc hbefore hstop hat ih =>
    rename_i step x y stop
    have hlt : step < s.nbOfStops r := hj
    have hstop' : (s.mirrored base t).stopAt? r (s.nbOfStops r - (step + 1)) = some stop := by
      rw [← hstop, ← stopAt?_mirrored base t hlt]
      congr 1
      omega
    have hx : x < s.levels := Nat.lt_of_le_of_lt hat.1 hv
    have hrest := ih (by omega) hx
    have heq : s.nbOfStops r - step = s.nbOfStops r - (step + 1) + 1 := by omega
    rw [heq] at hrest
    exact hrest.cons hstop' (hat.mirrored hv base t)

lemma Ride.mirrored {trip : Trip} {a : Arrival}
    (h : s.Ride r trip i j l v a) (ha : a.level < s.levels) (base : Day) (t : Instant) :
    (s.mirrored base t).Ride r trip (s.nbOfStops r - 1 - j) (s.nbOfStops r - 1 - i) a.location
      (s.query.vias.length - a.level) ⟨l, s.query.vias.length - v,
        (s.mirrored base t).alightTime trip (s.positionAt r i)⟩ := by
  have hgoes := h.boarded.goes_on
  have hlt := h.alight_lt
  obtain ⟨start, hstart, hsource, hcan⟩ := h.boarded.begins
  obtain ⟨stop, hstop, htarget, hends⟩ := h.ends
  refine ⟨h.admitted, ⟨⟨h.boarded.runs.of_route, h.boarded.runs.active⟩, by omega,
    ⟨stop, ?_, htarget, hends⟩, ?_, ?_⟩, ?_, ⟨start, ?_, hsource, ?_⟩, ?_⟩
  · rw [stopAt?_mirrored base t hlt]
    exact hstop
  · intro step hle hstep
    have hleave := h.boarded.continues (s.nbOfStops r - 2 - step) (by omega) (by omega)
    rw [← canLeave_mirrored base t (by omega)] at hleave
    have heq : s.nbOfStops r - 1 - (s.nbOfStops r - 2 - step + 1) = step := by omega
    rw [heq] at hleave
    exact hleave
  · have hpasses := h.boarded.passes.mirrored (Nat.le_of_lt hlt) ha base t
    have hfirst : s.nbOfStops r - j = s.nbOfStops r - 1 - j + 1 := by omega
    have hlast : s.nbOfStops r - (i + 1) = s.nbOfStops r - 1 - i := by omega
    rw [hfirst, hlast] at hpasses
    exact hpasses
  · rw [nbOfStops_mirrored]
    omega
  · rw [stopAt?_mirrored base t (by omega)]
    exact hstart
  · rw [canFinish_mirrored]
    exact hcan
  · rw [positionAt_mirrored base t (by omega)]

end Search

end JourneyPlanner
