import Mathlib.Data.List.TakeDrop
import Mathlib.Tactic.Common
import JourneyPlanner.Data.Checked
import JourneyPlanner.Proofs.Data.Keyed

/-!
# Lists in one array are a list of lists

`Buckets.Represents` says that every question about `Buckets` has the answer that a list of lists
gives. What `get?` answers decides the rest, because the stretches of the array cover it from its
beginning to its end. Collecting by key gives the lists of values by key, and whatever is added
afterwards stands behind them under the next keys.
-/

namespace JourneyPlanner
namespace Buckets

variable {k : Entity} {α : Type} {b : Buckets k α} {lists : List (List α)}

/-- All that can be asked of `b` is answered as by `lists`. A checked look-up fails where there is
no list. -/
structure Represents (b : Buckets k α) (lists : List (List α)) : Prop where
  size_eq : b.size = lists.length
  isEmpty_eq : b.isEmpty = lists.isEmpty
  nbOfValues_eq : b.nbOfValues = lists.flatten.length
  get?_eq : ∀ i : Index k, b.get? i = lists[i.val]?
  get?_eq_none : ∀ i : Index k, b.get? i = none ↔ lists.length ≤ i.val
  toOption_getM_eq : ∀ i : Index k, (b.getM i).toOption = lists[i.val]?
  toList_eq : b.toList = lists.zipIdx.map fun x => (⟨x.2⟩, x.1)

/-- What adding a list does: it is stored under the next key, and the lists before it stay. -/
structure Appends (b : Buckets k α) (bucket : List α) (r : Index k × Buckets k α) : Prop where
  key_eq : r.1 = ⟨b.size⟩
  size_eq : r.2.size = b.size + 1
  get?_key : r.2.get? r.1 = some bucket
  get?_of_lt : ∀ i : Index k, i.val < b.size → r.2.get? i = b.get? i

/-- The first lists fill the array up to the place where the next one begins. -/
lemma flatten_take (hget : ∀ i : Index k, b.get? i = lists[i.val]?) {n : Nat} (h : n ≤ b.size) :
    (lists.take n).flatten = (b.values.extract 0 (b.startOf n)).toList := by
  induction n with
  | zero => simp [startOf]
  | succ n ih =>
    have hend : b.ends[n]? = some b.ends[n] := Array.getElem?_eq_getElem h
    have hlist : lists[n]? = some (b.values.extract (b.startOf n) b.ends[n]).toList := by
      rw [← hget ⟨n⟩, get?, hend, Option.map_some]
    rw [List.take_add_one, List.flatten_append, ih (Nat.le_of_succ_le h), hlist,
      b.startOf_succ hend]
    -- the stretch of this list continues the stretch of those before it
    rw [Option.toList_some, List.flatten_singleton, ← Array.toList_append,
      Array.extract_append_extract, Nat.min_eq_left (Nat.zero_le _),
      Nat.max_eq_right (b.startOf_le_end hend)]

lemma toList_values (hget : ∀ i : Index k, b.get? i = lists[i.val]?) (hsize : b.size = lists.length) :
    b.values.toList = lists.flatten := by
  have hall := flatten_take hget (Nat.le_refl b.size)
  rw [startOf_size, Array.extract_size, hsize, List.take_length] at hall
  exact hall.symm

lemma represents_of_get?_eq (hget : ∀ i : Index k, b.get? i = lists[i.val]?) :
    b.Represents lists := by
  have hnone : ∀ i : Index k, b.get? i = none ↔ lists.length ≤ i.val := by
    intro i
    rw [hget, List.getElem?_eq_none_iff]
  -- neither length has an index that the other one lacks
  have hsize : b.size = lists.length := by
    refine Nat.le_antisymm ?_ ?_
    · exact get?_eq_none_iff.1 ((hnone ⟨lists.length⟩).2 (Nat.le_refl _))
    · exact (hnone ⟨b.size⟩).1 (get?_eq_none_iff.2 (Nat.le_refl _))
  constructor
  case size_eq => exact hsize
  case isEmpty_eq =>
    rw [isEmpty, hsize]
    cases lists <;> rfl
  case nbOfValues_eq => rw [← toList_values hget hsize, Array.length_toList, nbOfValues]
  case get?_eq => exact hget
  case get?_eq_none => exact hnone
  case toOption_getM_eq =>
    intro i
    rw [toOption_getM, hget]
  case toList_eq =>
    apply List.ext_getElem?
    intro n
    rw [getElem?_toList, hget, List.getElem?_map, List.getElem?_zipIdx, Option.map_map, Nat.zero_add]
    rfl

lemma appends_add (b : Buckets k α) (bucket : List α) : b.Appends bucket (b.add bucket) where
  key_eq := rfl
  size_eq := size_push b bucket
  get?_key := (get?_push b bucket b.nextKey).trans (if_pos rfl)
  get?_of_lt i hi := (get?_push b bucket i).trans (if_neg (Nat.ne_of_lt hi))

lemma Represents.add (h : b.Represents lists) (bucket : List α) :
    (b.add bucket).2.Represents (lists ++ [bucket]) := by
  apply represents_of_get?_eq
  intro i
  rw [Buckets.add, get?_push, h.size_eq]
  split
  · rename_i hi
    rw [hi, List.getElem?_concat_length]
  · rename_i hi
    rw [h.get?_eq, List.getElem?_append]
    split
    · rfl
    · rename_i hle
      have hbeyond : [bucket].length ≤ i.val - lists.length := by
        rw [List.length_singleton]
        omega
      rw [List.getElem?_eq_none (Nat.le_of_not_lt hle), List.getElem?_eq_none hbeyond]

/-- Lists that are added one after the other stand behind the others under the next keys. -/
lemma Represents.addAll (h : b.Represents lists) (added : List (List α)) :
    (b.addAll added).1 = (List.range' lists.length added.length).map Index.mk ∧
      (b.addAll added).2.Represents (lists ++ added) := by
  induction added generalizing b lists with
  | nil => exact ⟨rfl, by rwa [List.append_nil]⟩
  | cons bucket rest ih =>
    obtain ⟨hkeys, hlists⟩ := ih (h.add bucket)
    rw [List.append_assoc, List.singleton_append] at hlists
    refine ⟨?_, hlists⟩
    have hkey : (b.add bucket).1 = ⟨lists.length⟩ := by
      rw [← h.size_eq]
      exact (appends_add b bucket).key_eq
    rw [List.length_append, List.length_singleton] at hkeys
    rw [Buckets.addAll, List.length_cons, List.range'_succ, List.map_cons, ← hkeys, ← hkey]

lemma represents_ofKeyed (n : Nat) (entries : List (Index k × α)) :
    (ofKeyed n entries).Represents ((Index.firsts n).map (valuesOf entries)) := by
  apply represents_of_get?_eq
  intro i
  rw [get?_ofKeyed, Index.firsts, List.map_map, List.getElem?_map]
  split
  · rename_i hi
    rw [List.getElem?_range hi]
    rfl
  · rename_i hi
    rw [List.getElem?_eq_none (by rw [List.length_range]; omega)]
    rfl

lemma cut_eq_nil {n : Nat} {entries : List (Index k × α)} (h : ∀ e ∈ entries, e.1.val < n) :
    (cut n entries).2 = [] := by
  rw [(collects_cut n entries).left_eq, List.filter_eq_nil_iff]
  intro e he hle
  have := h e (List.mem_mergeSort.1 he)
  have := of_decide_eq_true hle
  omega

/-- What is collected by key is the list of the lists of values by key, with nothing left over. Lists
added to it answer the next keys and stand behind it, and each of them leaves those before it as
they are. -/
theorem represents_addAll_ofKeyed {n : Nat} {entries : List (Index k × α)}
    (h : ∀ e ∈ entries, e.1.val < n) (added : List (List α)) :
    let lists := (Index.firsts n).map (valuesOf entries)
    let r := (ofKeyed n entries).addAll added
    (cut n entries).2 = [] ∧ (ofKeyed n entries).Represents lists ∧
      r.1 = (List.range' n added.length).map Index.mk ∧ r.2.Represents (lists ++ added) ∧
      ∀ bucket, r.2.Appends bucket (r.2.add bucket) := by
  intro lists r
  have hcollected : (ofKeyed n entries).Represents lists := represents_ofKeyed n entries
  have hlength : lists.length = n := by
    rw [← hcollected.size_eq, size_ofKeyed]
  obtain ⟨hkeys, hadded⟩ := hcollected.addAll added
  rw [hlength] at hkeys
  exact ⟨cut_eq_nil h, hcollected, hkeys, hadded, appends_add r.2⟩

/-- Lists that are only added, without keys, are the case of no key. -/
example : ofKeyed 0 ([] : List (RouteIndex × LocationIndex)) = empty := rfl

namespace Junction

/-- Routes by location: one of them calls twice at location 2, and none calls at 1 and 3. -/
def routeEntries : List (LocationIndex × RouteIndex) :=
  [(⟨2⟩, ⟨0⟩), (⟨0⟩, ⟨0⟩), (⟨2⟩, ⟨1⟩), (⟨0⟩, ⟨2⟩), (⟨2⟩, ⟨0⟩)]

theorem represents_addAll_routeEntries :
    (cut 4 routeEntries).2 = [] ∧
      (ofKeyed 4 routeEntries).Represents [[⟨0⟩, ⟨2⟩], [], [⟨0⟩, ⟨1⟩, ⟨0⟩], []] ∧
      ((ofKeyed 4 routeEntries).addAll [[⟨3⟩], []]).1 = [⟨4⟩, ⟨5⟩] ∧
      ((ofKeyed 4 routeEntries).addAll [[⟨3⟩], []]).2.Represents
        [[⟨0⟩, ⟨2⟩], [], [⟨0⟩, ⟨1⟩, ⟨0⟩], [], [⟨3⟩], []] ∧
      ((ofKeyed 4 routeEntries).addAll [[⟨3⟩], []]).2.Appends [⟨2⟩]
        (((ofKeyed 4 routeEntries).addAll [[⟨3⟩], []]).2.add [⟨2⟩]) := by
  have hkeys : ∀ e ∈ routeEntries, e.1.val < 4 := by decide
  obtain ⟨hleft, hcollected, hnext, hadded, happends⟩ :=
    represents_addAll_ofKeyed hkeys [[⟨3⟩], []]
  exact ⟨hleft, hcollected, hnext, hadded, happends [⟨2⟩]⟩

end Junction

end Buckets
end JourneyPlanner
