import JourneyPlanner.Data.BitSet
import JourneyPlanner.Data.Bisect
import JourneyPlanner.Data.Buckets
import JourneyPlanner.Data.Grid

/-!
Look-ups that tell when they leave the table. A total look-up answers something neutral beyond the
end of a table; a checked one answers what is wrong, and so does a difference of natural numbers
that would be negative, and a number that its word cannot hold. A checked computation that ends well
has asked for nothing that is not there.

The checked form of a function `f` is called `fM`, as the monadic forms of the functions on lists
are. What is stated below is when a checked look-up answers what the total one does.
-/

namespace JourneyPlanner

/-- What was asked for and is not there. -/
inductive OutOfRange where
  /-- a place of an array or a list -/
  | place (i size : Nat)
  /-- an entry of a table -/
  | entry (i j rows columns : Nat)
  /-- a stretch of a list -/
  | stretch (first stop size : Nat)
  /-- the difference of two natural numbers -/
  | difference (a b : Nat)
  /-- a number in a word of `size` values -/
  | word (n size : Nat)
deriving DecidableEq, Repr

/-- A computation that ends at the first thing out of range. -/
abbrev Checked := Except OutOfRange

namespace Checked

variable {α β : Type}

def require (p : Prop) [Decidable p] (e : OutOfRange) : Checked Unit :=
  if p then .ok () else .error e

/-- The value at a place of an array. -/
def item (xs : Array α) (i : Nat) : Checked α :=
  match xs[i]? with
  | some x => .ok x
  | none => .error (.place i xs.size)

/-- The values between two places of a list. -/
def stretch (xs : List α) (first stop : Nat) : Checked (List α) := do
  require (first ≤ stop ∧ stop ≤ xs.length) (.stretch first stop xs.length)
  return xs.extract first stop

def difference (a b : Nat) : Checked Nat := do
  require (b ≤ a) (.difference a b)
  return a - b

/-- A number as a word of `size` values. -/
def word (size n : Nat) : Checked Nat := do
  require (n < size) (.word n size)
  return n

/-- The longest initial stretch whose values pass a test. -/
def takeWhile (p : α → Checked Bool) : List α → Checked (List α)
  | [] => .ok []
  | x :: xs => do
    if ← p x then
      let front ← takeWhile p xs
      return x :: front
    else return []

@[simp] theorem pure_eq (x : α) : (pure x : Checked α) = .ok x := rfl

@[simp] theorem ok_bind (x : α) (f : α → Checked β) : (Except.ok x >>= f) = f x := rfl

theorem require_eq_ok {p : Prop} [Decidable p] {e : OutOfRange} (h : p) : require p e = .ok () :=
  if_pos h

theorem item_eq_ok {xs : Array α} {i : Nat} {x : α} (h : xs[i]? = some x) : item xs i = .ok x := by
  unfold item
  rw [h]

theorem item_toArray_eq_ok {xs : List α} {i : Nat} {x : α} (h : xs[i]? = some x) :
    item xs.toArray i = .ok x :=
  item_eq_ok (List.getElem?_toArray.trans h)

theorem stretch_eq_ok {xs : List α} {first stop : Nat} (hle : first ≤ stop)
    (hstop : stop ≤ xs.length) : stretch xs first stop = .ok (xs.extract first stop) := by
  rw [stretch, require_eq_ok ⟨hle, hstop⟩]
  rfl

theorem difference_eq_ok {a b : Nat} (h : b ≤ a) : difference a b = .ok (a - b) := by
  rw [difference, require_eq_ok h]
  rfl

theorem word_eq_ok {size n : Nat} (h : n < size) : word size n = .ok n := by
  rw [word, require_eq_ok h]
  rfl

theorem word_of_le {size n : Nat} (h : size ≤ n) : word size n = .error (.word n size) := by
  rw [word, require, if_neg (Nat.not_lt.2 h)]
  rfl

/-- A loop whose steps are in range as long as something holds that they keep. -/
theorem foldlM_eq_ok {f : β → α → Checked β} {g : β → α → β} {P : β → Prop} {l : List α} {b : β}
    (hstep : ∀ b x, x ∈ l → P b → f b x = .ok (g b x) ∧ P (g b x)) (hb : P b) :
    l.foldlM f b = .ok (l.foldl g b) ∧ P (l.foldl g b) := by
  induction l generalizing b with
  | nil => exact ⟨rfl, hb⟩
  | cons x l ih =>
    obtain ⟨hx, hkeep⟩ := hstep b x List.mem_cons_self hb
    rw [List.foldlM_cons, hx, ok_bind, List.foldl_cons]
    exact ih (fun b y hy => hstep b y (List.mem_cons_of_mem x hy)) hkeep

variable {xs : List α}

theorem flatMapM_eq_ok {f : α → Checked (List β)} {g : α → List β}
    (h : ∀ x ∈ xs, f x = .ok (g x)) : xs.flatMapM f = .ok (xs.flatMap g) := by
  induction xs with
  | nil => rfl
  | cons x xs ih =>
    rw [List.flatMapM_cons, h x List.mem_cons_self, ok_bind,
      ih fun y hy => h y (List.mem_cons_of_mem x hy)]
    rfl

theorem filterMapM_eq_ok {f : α → Checked (Option β)} {g : α → Option β}
    (h : ∀ x ∈ xs, f x = .ok (g x)) : xs.filterMapM f = .ok (xs.filterMap g) := by
  induction xs with
  | nil => rfl
  | cons x xs ih =>
    rw [List.filterMapM_cons, h x List.mem_cons_self, ok_bind,
      ih fun y hy => h y (List.mem_cons_of_mem x hy)]
    cases hg : g x with
    | none => rw [List.filterMap_cons_none hg]
    | some y =>
      rw [List.filterMap_cons_some hg]
      rfl

theorem filterM_eq_ok {f : α → Checked Bool} {g : α → Bool} (h : ∀ x ∈ xs, f x = .ok (g x)) :
    xs.filterM f = .ok (xs.filter g) := by
  -- `filterM` is tail recursive, and collects what is kept in an accumulator
  have haux : ∀ acc, xs.filterAuxM f acc = .ok ((xs.filter g).reverse ++ acc) := by
    induction xs with
    | nil => exact fun _ => rfl
    | cons x xs ih =>
      intro acc
      rw [List.filterAuxM, h x List.mem_cons_self, ok_bind,
        ih fun y hy => h y (List.mem_cons_of_mem x hy), List.filter_cons]
      cases g x <;> simp
  rw [List.filterM, haux, ok_bind, List.append_nil, List.reverse_reverse]
  rfl

theorem findM?_eq_ok {f : α → Checked Bool} {g : α → Bool} (h : ∀ x ∈ xs, f x = .ok (g x)) :
    xs.findM? f = .ok (xs.find? g) := by
  induction xs with
  | nil => rfl
  | cons x xs ih =>
    rw [List.findM?, h x List.mem_cons_self, ok_bind,
      ih fun y hy => h y (List.mem_cons_of_mem x hy)]
    cases hg : g x with
    | false => rw [List.find?_cons_of_neg (by rw [hg]; exact Bool.false_ne_true)]
    | true =>
      rw [List.find?_cons_of_pos hg]
      rfl

theorem findSomeM?_eq_ok {f : α → Checked (Option β)} {g : α → Option β}
    (h : ∀ x ∈ xs, f x = .ok (g x)) : xs.findSomeM? f = .ok (xs.findSome? g) := by
  induction xs with
  | nil => rfl
  | cons x xs ih =>
    rw [List.findSomeM?_cons, h x List.mem_cons_self, ok_bind, List.findSome?_cons,
      ih fun y hy => h y (List.mem_cons_of_mem x hy)]
    cases g x <;> rfl

theorem takeWhile_eq_ok {f : α → Checked Bool} {g : α → Bool} (h : ∀ x ∈ xs, f x = .ok (g x)) :
    takeWhile f xs = .ok (xs.takeWhile g) := by
  induction xs with
  | nil => rfl
  | cons x xs ih =>
    rw [takeWhile, h x List.mem_cons_self, ok_bind, ih fun y hy => h y (List.mem_cons_of_mem x hy),
      List.takeWhile_cons]
    cases g x <;> rfl

/-- Halves `[lo, hi)` as `bisect` does. -/
def bisectM (p : Nat → Checked Bool) (lo hi : Nat) : Checked Nat := do
  if _h : lo < hi then
    let mid := lo + (hi - lo) / 2
    if ← p mid then bisectM p (mid + 1) hi else bisectM p lo mid
  else return lo
termination_by hi - lo

def partitionPointM (n : Nat) (p : Nat → Checked Bool) : Checked Nat := bisectM p 0 n

theorem bisectM_eq_ok {f : Nat → Checked Bool} {p : Nat → Bool} {n lo hi : Nat}
    (h : ∀ i < n, f i = .ok (p i)) (hn : hi ≤ n) : bisectM f lo hi = .ok (bisect p lo hi) := by
  fun_induction bisect p lo hi with
  | case1 lo hi hlt mid hmid ih =>
    have htest : f mid = .ok (p mid) := h mid (by omega)
    rw [bisectM, dif_pos hlt]
    dsimp only
    rw [htest, ok_bind, if_pos hmid]
    exact ih hn
  | case2 lo hi hlt mid hmid ih =>
    have htest : f mid = .ok (p mid) := h mid (by omega)
    rw [bisectM, dif_pos hlt]
    dsimp only
    rw [htest, ok_bind, if_neg hmid]
    exact ih (by omega)
  | case3 lo hi hlt =>
    rw [bisectM, dif_neg hlt]
    rfl

theorem partitionPointM_eq_ok {f : Nat → Checked Bool} {p : Nat → Bool} {n : Nat}
    (h : ∀ i < n, f i = .ok (p i)) : partitionPointM n f = .ok (partitionPoint n p) :=
  bisectM_eq_ok h (Nat.le_refl n)

end Checked

open Checked

namespace Grid

variable {α : Type} {g : Grid α} {i j : Nat}

def getM (g : Grid α) (i j : Nat) : Checked α :=
  match g.get? i j with
  | some x => .ok x
  | none => .error (.entry i j g.rows g.columns)

def setM (g : Grid α) (i j : Nat) (a : α) : Checked (Grid α) := do
  require (i < g.rows ∧ j < g.columns) (.entry i j g.rows g.columns)
  return g.set i j a

theorem getM_eq_ok (hi : i < g.rows) (hj : j < g.columns) (default : α) :
    g.getM i j = .ok ((g.get? i j).getD default) := by
  obtain ⟨x, hx⟩ := Option.isSome_iff_exists.1 (get?_isSome_iff.2 ⟨hi, hj⟩)
  unfold getM
  rw [hx]
  rfl

theorem setM_eq_ok (hi : i < g.rows) (hj : j < g.columns) (a : α) :
    g.setM i j a = .ok (g.set i j a) := by
  rw [setM, require_eq_ok ⟨hi, hj⟩]
  rfl

end Grid

namespace BitSet

def insertM (s : BitSet) (i : Nat) : Checked BitSet := do
  require (i < s.capacity) (.place i s.capacity)
  return s.insert i

theorem insertM_eq_ok {s : BitSet} {i : Nat} (h : i < s.capacity) :
    s.insertM i = .ok (s.insert i) := by
  rw [insertM, require_eq_ok h]
  rfl

end BitSet

namespace Buckets

variable {k : Entity} {α : Type}

/-- Where list number `n` begins. -/
def startOfM (b : Buckets k α) : Nat → Checked Nat
  | 0 => return 0
  | n + 1 => item b.ends n

/-- The list at an index: the values from its beginning to its end. -/
def getM (b : Buckets k α) (i : Index k) : Checked (List α) := do
  let first ← b.startOfM i.val
  let stop ← item b.ends i.val
  stretch b.values.toList first stop

theorem startOfM_eq_ok {b : Buckets k α} {n : Nat} (h : n < b.size) :
    b.startOfM n = .ok (b.startOf n) := by
  cases n with
  | zero => rfl
  | succ n =>
    have hlt : n < b.ends.size := Nat.lt_of_succ_lt h
    have hend : b.ends[n]? = some b.ends[n] := Array.getElem?_eq_getElem hlt
    rw [startOfM, item_eq_ok hend, b.startOf_succ hend]

theorem getM_eq_ok {b : Buckets k α} {i : Index k} (h : i.val < b.size) :
    b.getM i = .ok (b.get i) := by
  have hstop : b.ends[i.val]? = some b.ends[i.val] := Array.getElem?_eq_getElem h
  have hlength : b.ends[i.val] ≤ b.values.toList.length := by
    rw [Array.length_toList]
    exact b.end_le hstop
  rw [getM, startOfM_eq_ok h, ok_bind, item_eq_ok hstop, ok_bind,
    stretch_eq_ok (b.startOf_le_end hstop) hlength, get, get?, hstop, Option.map_some,
    Option.getD_some, Array.toList_extract]

/-- Beyond the last list a checked look-up fails. -/
theorem toOption_getM (b : Buckets k α) (i : Index k) : (b.getM i).toOption = b.get? i := by
  by_cases h : i.val < b.size
  · have hstop : b.ends[i.val]? = some b.ends[i.val] := Array.getElem?_eq_getElem h
    rw [getM_eq_ok h, get, get?, hstop]
    rfl
  · have hstop : b.ends[i.val]? = none := Array.getElem?_eq_none (Nat.le_of_not_lt h)
    rw [getM, item, get?, hstop]
    cases b.startOfM i.val <;> rfl

end Buckets

end JourneyPlanner
