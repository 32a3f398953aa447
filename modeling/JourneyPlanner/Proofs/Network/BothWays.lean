import Mathlib
import JourneyPlanner.Proofs.Network.Verdicts
import JourneyPlanner.Proofs.Network.WellFormed

/-!
# Footpaths read from both of their ends

Footpaths are sorted and collected by the location where they begin, and once more by the location where
they end. Both tables hold what was added, as often as it was added; the timed footpaths from one location
to another are the same run in both, because every sort on the way is stable.
-/

namespace JourneyPlanner

namespace Entry

/-- The footpath that a call has added. -/
def footpath? : Entry → Option (LocationIndex × Footpath)
  | (.footpath source target duration, .ok _) => some (source, ⟨target, duration⟩)
  | _ => none

/-- The timed footpath that a call has added. -/
def timedFootpath? : Entry → Option (LocationIndex × TimedFootpath)
  | (.timedFootpath source target validFrom duration, .ok _) =>
    some (source, ⟨target, validFrom, duration⟩)
  | _ => none

end Entry

namespace History

/-- The footpaths that were added, in order. -/
def footpaths (h : History) : List (LocationIndex × Footpath) := h.filterMap Entry.footpath?

/-- The timed footpaths that were added, in order. -/
def timedFootpaths (h : History) : List (LocationIndex × TimedFootpath) :=
  h.filterMap Entry.timedFootpath?

end History

namespace Builder

variable {b b' : Builder} {call : Call} {answer : Except TimetableError Registered}

lemma Outcome.footpaths_eq (h : b.Outcome call answer b') :
    b'.footpaths.toList = b.footpaths.toList ++ (Entry.footpath? (call, answer)).toList := by
  cases h with
  | footpath _ _ => exact Array.toList_push
  | refused _ => cases call <;> exact (List.append_nil _).symm
  | _ => exact (List.append_nil _).symm

lemma Outcome.timedFootpaths_eq (h : b.Outcome call answer b') :
    b'.timedFootpaths.toList =
      b.timedFootpaths.toList ++ (Entry.timedFootpath? (call, answer)).toList := by
  cases h with
  | timedFootpath _ _ => exact Array.toList_push
  | refused _ => cases call <;> exact (List.append_nil _).symm
  | _ => exact (List.append_nil _).symm

/-- A builder that keeps everything in order has what the entries added to it. -/
lemma added_run {α : Type} (kept : Builder → List α) {adds : Entry → Option α}
    (hstep : ∀ {b b' : Builder} {call answer}, b.Outcome call answer b' →
      kept b' = kept b ++ (adds (call, answer)).toList) (b : Builder) (calls : List Call) :
    kept (b.run calls).2 = kept b ++ (b.history calls).filterMap adds := by
  induction calls generalizing b with
  | nil => exact (List.append_nil _).symm
  | cons call calls ih =>
    rw [run_cons, ih, hstep (b.outcome_apply call), history_cons, List.append_assoc]
    congr 1
    cases hadds : adds (call, (b.apply call).1) with
    | none => rw [List.filterMap_cons_none hadds, Option.toList_none, List.nil_append]
    | some a => rw [List.filterMap_cons_some hadds, Option.toList_some, List.singleton_append]

lemma footpaths_run (c : Calendar) (calls : List Call) :
    ((new c).run calls).2.footpaths.toList = ((new c).history calls).footpaths :=
  added_run (fun b => b.footpaths.toList) Outcome.footpaths_eq (new c) calls

lemma timedFootpaths_run (c : Calendar) (calls : List Call) :
    ((new c).run calls).2.timedFootpaths.toList = ((new c).history calls).timedFootpaths :=
  added_run (fun b => b.timedFootpaths.toList) Outcome.timedFootpaths_eq (new c) calls

lemma footpathLe_iff {x y : LocationIndex × Footpath} :
    footpathLe x y = true ↔
      x.1.val < y.1.val ∨ x.1.val = y.1.val ∧ x.2.target.val ≤ y.2.target.val := by
  simp only [footpathLe, Bool.or_eq_true, Bool.and_eq_true, decide_eq_true_eq, beq_iff_eq]
  exact or_congr Iff.rfl (and_congr ⟨congrArg Index.val, Index.ext⟩ Iff.rfl)

lemma footpathLe_trans (x y z : LocationIndex × Footpath) (hxy : footpathLe x y = true)
    (hyz : footpathLe y z = true) : footpathLe x z = true := by
  rw [footpathLe_iff] at *
  omega

lemma footpathLe_total (x y : LocationIndex × Footpath) :
    (footpathLe x y || footpathLe y x) = true := by
  rw [Bool.or_eq_true, footpathLe_iff, footpathLe_iff]
  omega

lemma pairwise_target_get (n : Nat) (entries : List (LocationIndex × Footpath))
    (l : LocationIndex) :
    ((Buckets.ofKeyed n (entries.mergeSort footpathLe)).get l).Pairwise
      fun f g => f.target ≤ g.target := by
  have hsorted := List.pairwise_mergeSort footpathLe_trans footpathLe_total entries
  refine Buckets.pairwise_get_ofKeyed (hsorted.imp fun {x y} hxy hkey => ?_) n l
  have hval : x.1.val = y.1.val := congrArg Index.val hkey
  rw [footpathLe_iff] at hxy
  exact (hxy.resolve_left (by omega)).2

lemma count_map_reversed (entries : List (LocationIndex × Footpath))
    (x : LocationIndex × Footpath) : (entries.map reversed).count (reversed x) = entries.count x :=
  List.count_map_of_injective entries reversed reversed_involutive.injective x

lemma count_footpaths_forward (hb : b.Sound) (l m : LocationIndex) (duration : Duration) :
    (b.freeze.footpaths .forward l).count ⟨m, duration⟩ =
      b.footpaths.toList.count (l, ⟨m, duration⟩) := by
  change ((Buckets.ofKeyed b.locations.size _).get l).count _ = _
  rw [Buckets.get_ofKeyed_of_lt, Buckets.count_valuesOf, (List.mergeSort_perm _ _).count_eq]
  intro x hx
  exact (hb.footpaths x (by simpa using hx)).1

lemma count_footpaths_backward (hb : b.Sound) (l m : LocationIndex) (duration : Duration) :
    (b.freeze.footpaths .backward m).count ⟨l, duration⟩ =
      b.footpaths.toList.count (l, ⟨m, duration⟩) := by
  change ((Buckets.ofKeyed b.locations.size _).get m).count _ = _
  rw [Buckets.get_ofKeyed_of_lt, Buckets.count_valuesOf, (List.mergeSort_perm _ _).count_eq]
  · exact (count_map_reversed _ (l, ⟨m, duration⟩)).trans ((List.mergeSort_perm _ _).count_eq _)
  · intro x hx
    rw [List.mem_mergeSort, List.mem_map] at hx
    obtain ⟨y, hy, rfl⟩ := hx
    exact (hb.footpaths y (by simpa using hy)).2

/-- Timed footpaths to one target are in the order of the instants from which they hold. -/
lemma pairwise_validFrom_freeze (hb : b.Sound) (l m : LocationIndex) :
    (TimedFootpath.entriesTo (b.freeze.timedFootpaths .forward l) m).Pairwise
      fun f g => f.validFrom ≤ g.validFrom := by
  rw [entriesTo_forward hb, List.pairwise_map]
  exact pairwise_entriesBetween _ l m

/-- Timed footpaths that hold from one instant on are in the order in which they were added. -/
lemma filter_validFrom_freeze (hb : b.Sound) (l m : LocationIndex) (t : Instant) :
    (TimedFootpath.entriesTo (b.freeze.timedFootpaths .forward l) m).filter (·.validFrom == t) =
      (TimedFootpath.entriesTo (Buckets.valuesOf b.timedFootpaths.toList l) m).filter
        (·.validFrom == t) := by
  rw [entriesTo_forward hb, entriesTo_valuesOf, List.filter_map, List.filter_map]
  congr 1
  unfold entriesBetween
  rw [List.filter_filter, List.filter_filter]
  refine filter_mergeSort_of_pairwise timedFootpathLe_trans timedFootpathLe_total _ ?_
  -- entries with all of these in common are equal to the sort
  refine List.Pairwise.imp_of_mem (R := fun _ _ => True) ?_
    (List.pairwise_of_forall fun _ _ => trivial)
  intro x y hx hy _
  obtain ⟨hx, hxbetween⟩ := List.mem_filter.1 hx
  obtain ⟨hy, hybetween⟩ := List.mem_filter.1 hy
  rw [Bool.and_eq_true] at hxbetween hybetween
  refine (timedFootpathLe_iff_of_between (List.mem_filter.2 ⟨hx, hxbetween.2⟩)
    (List.mem_filter.2 ⟨hy, hybetween.2⟩)).2 ?_
  rw [beq_iff_eq.1 hxbetween.1, beq_iff_eq.1 hybetween.1]
  exact Int.le_refl _

/-- Children are listed after their parents in the order of their indices. -/
lemma pairwise_parentEntries (ls : Locations) :
    ls.parentEntries.Pairwise fun x y => x.2 < y.2 := by
  unfold Locations.parentEntries Locations.toList Index.firsts
  rw [List.pairwise_filterMap, List.pairwise_map]
  refine List.pairwise_lt_range.imp fun hlt x hx y hy => ?_
  obtain ⟨_, _, rfl⟩ := Option.map_eq_some_iff.1 hx
  obtain ⟨_, _, rfl⟩ := Option.map_eq_some_iff.1 hy
  exact hlt

lemma mem_parentEntries {ls : Locations} {l parent : LocationIndex} :
    (parent, l) ∈ ls.parentEntries ↔ ls.parent? l = some parent := by
  unfold Locations.parentEntries Locations.toList
  rw [List.mem_filterMap]
  constructor
  · rintro ⟨l', _, hl'⟩
    obtain ⟨p, hp, heq⟩ := Option.map_eq_some_iff.1 hl'
    cases heq
    exact hp
  · intro hparent
    refine ⟨l, Index.mem_firsts.2 ?_, by rw [hparent]; rfl⟩
    obtain ⟨location, hget, _⟩ := Option.bind_eq_some_iff.1 hparent
    exact (Array.getElem?_eq_some_iff.1 hget).1

end Builder

/-- A timetable reads the footpaths of a history in both directions, and knows its children. -/
structure Timetable.ReadsBothWays (tt : Timetable) (h : History) : Prop where
  count_forward : ∀ l m duration, (tt.footpaths .forward l).count ⟨m, duration⟩ =
    h.footpaths.count (l, ⟨m, duration⟩)
  count_backward : ∀ l m duration, (tt.footpaths .backward m).count ⟨l, duration⟩ =
    h.footpaths.count (l, ⟨m, duration⟩)
  contiguous : ∀ dir l m, ∃ before after, tt.timedFootpaths dir l =
    before ++ (TimedFootpath.entriesTo (tt.timedFootpaths dir l) m ++ after) ∧
      (∀ f ∈ before, f.target ≠ m) ∧ ∀ f ∈ after, f.target ≠ m
  same_run : ∀ l m, (TimedFootpath.entriesTo (tt.timedFootpaths .backward m) l).map
      (fun f => (f.validFrom, f.duration)) =
    (TimedFootpath.entriesTo (tt.timedFootpaths .forward l) m).map
      (fun f => (f.validFrom, f.duration))
  in_order : ∀ l m, (TimedFootpath.entriesTo (tt.timedFootpaths .forward l) m).Pairwise
    fun f g => f.validFrom ≤ g.validFrom
  as_added : ∀ l m t,
    (TimedFootpath.entriesTo (tt.timedFootpaths .forward l) m).filter (·.validFrom == t) =
      (TimedFootpath.entriesTo (Buckets.valuesOf h.timedFootpaths l) m).filter (·.validFrom == t)
  by_target : ∀ dir l, (tt.footpaths dir l).Pairwise (fun f g => f.target ≤ g.target) ∧
    (tt.timedFootpaths dir l).Pairwise fun f g => f.target ≤ g.target
  children_in_order : ∀ l, (tt.children.get l).Pairwise (· < ·)
  mem_children : ∀ l child, child ∈ tt.children.get l ↔ tt.locations.parent? child = some l

/-- The timed footpaths to one target stand together. -/
lemma TimedFootpath.contiguous {fs : List TimedFootpath} (hs : SortedByTarget fs)
    (l : LocationIndex) : ∃ before after, fs = before ++ (entriesTo fs l ++ after) ∧
      (∀ f ∈ before, f.target ≠ l) ∧ ∀ f ∈ after, f.target ≠ l := by
  refine ⟨_, _, eq_append_of_sorted hs l, ?_, ?_⟩
  · intro f hf heq
    have hlt := target_lt_of_mem hf
    rw [heq] at hlt
    exact Nat.lt_irrefl _ hlt
  · intro f hf heq
    have hlt := lt_target_of_mem hf
    rw [heq] at hlt
    exact Nat.lt_irrefl _ hlt

namespace Builder

variable {b : Builder}

lemma mem_children_freeze (hparents : b.locations.danglingParent? = none)
    {l child : LocationIndex} :
    child ∈ b.freeze.children.get l ↔ b.locations.parent? child = some l := by
  change child ∈ (Buckets.ofKeyed b.locations.size b.locations.parentEntries).get l ↔ _
  rw [Buckets.mem_get_ofKeyed, mem_parentEntries]
  refine and_iff_right_of_imp fun hparent => ?_
  -- a parent that is not known would have stopped the build
  by_contra hmissing
  exact Locations.danglingParent?_eq_none_iff.1 hparents child l ⟨hparent, hmissing⟩

theorem readsBothWays_freeze (hb : b.Sound) (hparents : b.locations.danglingParent? = none)
    {h : History} (hplain : b.footpaths.toList = h.footpaths)
    (htimed : b.timedFootpaths.toList = h.timedFootpaths) : b.freeze.ReadsBothWays h where
  count_forward l m duration := hplain ▸ count_footpaths_forward hb l m duration
  count_backward l m duration := hplain ▸ count_footpaths_backward hb l m duration
  contiguous dir l m := by
    cases dir with
    | forward => exact TimedFootpath.contiguous (sortedByTarget_get _ _ _) m
    | backward => exact TimedFootpath.contiguous (sortedByTarget_get _ _ _) m
  same_run l m := by
    rw [timed_runs_freeze hb, List.map_map]
    rfl
  in_order := pairwise_validFrom_freeze hb
  as_added l m t := htimed ▸ filter_validFrom_freeze hb l m t
  by_target dir l := by
    cases dir with
    | forward => exact ⟨pairwise_target_get _ _ _, sortedByTarget_get _ _ _⟩
    | backward => exact ⟨pairwise_target_get _ _ _, sortedByTarget_get _ _ _⟩
  children_in_order l := by
    refine Buckets.pairwise_get_ofKeyed ?_ _ l
    exact (pairwise_parentEntries b.locations).imp fun {x y} hlt (_ : x.1 = y.1) => hlt
  mem_children _ _ := mem_children_freeze hparents

end Builder

/-- Both directions of every built timetable read the footpaths that were added, and the children of
a location are those that name it as their parent. -/
theorem readsBothWays_of_build {c : Calendar} {calls : List Call} {tt : Timetable}
    (hbuild : ((Builder.new c).run calls).2.build = .ok tt) :
    tt.ReadsBothWays ((Builder.new c).history calls) := by
  obtain ⟨_, _, hparents, rfl⟩ := Builder.build_eq_ok_iff.1 hbuild
  exact Builder.readsBothWays_freeze (Builder.sound_run (Builder.sound_new c) calls) hparents
    (Builder.footpaths_run c calls) (Builder.timedFootpaths_run c calls)

namespace Footbridge

def calendar : Calendar := ⟨⟨18262⟩, ⟨18269⟩, by decide, by decide⟩

def place (id : String) (parent : Option LocationIndex) : Location :=
  ⟨⟨⟨0⟩, id⟩, "", .track, parent, none, .zero⟩

/-- A bridge from one track to the other, which a call adds twice. The stairs beside it are told to
be closed and open again from one instant on. -/
def calls : List Call :=
  [.location (place "station" none), .location (place "track 1" (some ⟨0⟩)),
    .location (place "track 2" (some ⟨0⟩)),
    .footpath ⟨1⟩ ⟨2⟩ (.clamp 3), .footpath ⟨1⟩ ⟨2⟩ (.clamp 3), .footpath ⟨1⟩ ⟨7⟩ (.clamp 3),
    .timedFootpath ⟨1⟩ ⟨2⟩ (.clamp 90) .unusable, .timedFootpath ⟨1⟩ ⟨2⟩ (.clamp 90) (.clamp 2),
    .timedFootpath ⟨1⟩ ⟨2⟩ (.clamp 60) (.clamp 5)]

def builder : Builder := ((Builder.new calendar).run calls).2

lemma build_eq : builder.build = .ok builder.freeze :=
  Builder.build_eq_ok_iff.2 ⟨by cbv, by cbv, by cbv, rfl⟩

/-- The bridge is found twice at both of its ends, the stairs are open in the end, and the station has
both tracks. -/
theorem reads_bridge_twice : builder.build = .ok builder.freeze ∧
    (builder.freeze.footpaths .forward ⟨1⟩).count ⟨⟨2⟩, .clamp 3⟩ = 2 ∧
    (builder.freeze.footpaths .backward ⟨2⟩).count ⟨⟨1⟩, .clamp 3⟩ = 2 ∧
    (TimedFootpath.entriesTo (builder.freeze.timedFootpaths .forward ⟨1⟩) ⟨2⟩).filter
      (·.validFrom == .clamp 90) =
        [⟨⟨2⟩, .clamp 90, .unusable⟩, ⟨⟨2⟩, .clamp 90, .clamp 2⟩] ∧
    (⟨2⟩ : LocationIndex) ∈ builder.freeze.children.get ⟨0⟩ := by
  have hreads := readsBothWays_of_build build_eq
  refine ⟨build_eq, ?_, ?_, ?_, ?_⟩
  · exact (hreads.count_forward ⟨1⟩ ⟨2⟩ _).trans (by cbv)
  · exact (hreads.count_backward ⟨1⟩ ⟨2⟩ _).trans (by cbv)
  · exact (hreads.as_added ⟨1⟩ ⟨2⟩ _).trans (by cbv)
  · exact (hreads.mem_children ⟨0⟩ ⟨2⟩).2 (by cbv)

end Footbridge

end JourneyPlanner
