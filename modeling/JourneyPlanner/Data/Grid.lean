/-!
Rectangular tables kept row after row in a single array: the entry in row `i` and column `j` has
place `i * columns + j`. What is stated below is what `get?` answers after each operation.
-/

namespace JourneyPlanner

structure Grid (α : Type) where
  rows : Nat
  columns : Nat
  cells : Array α
  size_cells : cells.size = rows * columns
deriving DecidableEq, Repr

namespace Grid

variable {α : Type}

/-- The table with the same value everywhere. -/
def const (rows columns : Nat) (a : α) : Grid α :=
  ⟨rows, columns, Array.replicate (rows * columns) a, by simp⟩

instance : Inhabited (Grid α) := ⟨⟨0, 0, #[], rfl⟩⟩

def get? (g : Grid α) (i j : Nat) : Option α :=
  if i < g.rows ∧ j < g.columns then g.cells[i * g.columns + j]? else none

/-- Replaces one entry; outside the table nothing changes. -/
def set (g : Grid α) (i j : Nat) (a : α) : Grid α :=
  if i < g.rows ∧ j < g.columns then
    { g with
      cells := g.cells.setIfInBounds (i * g.columns + j) a
      size_cells := by simp [g.size_cells] }
  else g

/-- The entries of a row, in column order; empty outside the table. -/
def row (g : Grid α) (i : Nat) : List α :=
  if i < g.rows then (g.cells.extract (i * g.columns) ((i + 1) * g.columns)).toList else []

/-- Writes `values` over the beginning of a row; what does not fit is dropped. -/
def setRow (g : Grid α) (i : Nat) (values : List α) : Grid α :=
  (values.zipIdx).foldl (fun g (a, j) => g.set i j a) g

/-- Every entry becomes `a`. -/
def fill (g : Grid α) (a : α) : Grid α := const g.rows g.columns a

def toRows (g : Grid α) : List (List α) := (List.range g.rows).map g.row

/-- The table of `rows.length` rows whose rows are the given ones, cut or padded to `columns`. -/
def ofRows (columns : Nat) (pad : α) (rows : List (List α)) : Grid α :=
  (rows.zipIdx).foldl (fun g (values, i) => g.setRow i values) (const rows.length columns pad)

/-- Entry by entry combination; the shape is that of the first table. -/
def zipWith (f : α → α → α) (g h : Grid α) : Grid α :=
  { g with
    cells := g.cells.mapIdx fun n a => match h.cells[n]? with
      | some b => f a b
      | none => a
    size_cells := by simp [g.size_cells] }

/-- The place of an entry of the table. -/
theorem place_lt {g : Grid α} {i j : Nat} (hi : i < g.rows) (hj : j < g.columns) :
    i * g.columns + j < g.cells.size := by
  rw [g.size_cells]
  calc i * g.columns + j < i * g.columns + g.columns := by omega
    _ = (i + 1) * g.columns := by rw [Nat.succ_mul]
    _ ≤ g.rows * g.columns := Nat.mul_le_mul_right _ hi

/-- Different entries have different places. -/
theorem place_inj {columns i j i' j' : Nat} (hj : j < columns) (hj' : j' < columns)
    (h : i * columns + j = i' * columns + j') : i = i' ∧ j = j' := by
  have hm := congrArg (· % columns) h
  have hd := congrArg (· / columns) h
  simp only [Nat.mul_comm _ columns, Nat.mul_add_mod, Nat.mod_eq_of_lt hj,
    Nat.mod_eq_of_lt hj'] at hm
  simp only [Nat.mul_comm _ columns, Nat.mul_add_div (Nat.zero_lt_of_lt hj),
    Nat.div_eq_of_lt hj, Nat.div_eq_of_lt hj', Nat.add_zero] at hd
  exact ⟨hd, hm⟩

theorem get?_isSome_iff {g : Grid α} {i j : Nat} :
    (g.get? i j).isSome = true ↔ i < g.rows ∧ j < g.columns := by
  unfold get?
  by_cases h : i < g.rows ∧ j < g.columns
  · rw [if_pos h, Array.getElem?_eq_getElem (place_lt h.1 h.2)]
    exact iff_of_true rfl h
  · rw [if_neg h]
    exact iff_of_false (by simp) h

/-- A table is told by its shape and its entries. -/
theorem ext {g h : Grid α} (hr : g.rows = h.rows) (hc : g.columns = h.columns)
    (hget : ∀ i j, g.get? i j = h.get? i j) : g = h := by
  obtain ⟨rows, columns, cells, hcells⟩ := g
  obtain ⟨rows', columns', cells', hcells'⟩ := h
  dsimp only at hr hc
  subst hr hc
  congr 1
  refine Array.ext (hcells.trans hcells'.symm) fun n hn hn' => ?_
  have hlt : n < rows * columns := hcells ▸ hn
  have hpos : 0 < columns := Nat.pos_of_ne_zero fun h => by
    rw [h, Nat.mul_zero] at hlt
    exact Nat.not_lt_zero n hlt
  have hi : n / columns < rows := (Nat.div_lt_iff_lt_mul hpos).2 hlt
  have hplace : n / columns * columns + n % columns = n := by
    rw [Nat.mul_comm]
    exact Nat.div_add_mod n columns
  have hentry := hget (n / columns) (n % columns)
  unfold get? at hentry
  dsimp only at hentry
  rw [if_pos ⟨hi, Nat.mod_lt n hpos⟩, if_pos ⟨hi, Nat.mod_lt n hpos⟩, hplace,
    Array.getElem?_eq_getElem hn, Array.getElem?_eq_getElem hn'] at hentry
  exact Option.some.inj hentry

/-- A row holds the entries of its columns, one after the other. -/
theorem getElem?_row (g : Grid α) (i j : Nat) : (g.row i)[j]? = g.get? i j := by
  unfold row get?
  by_cases hi : i < g.rows
  · have hend : (i + 1) * g.columns ≤ g.cells.size := by
      rw [g.size_cells]
      exact Nat.mul_le_mul_right _ hi
    have hlen : min ((i + 1) * g.columns) g.cells.size - i * g.columns = g.columns := by
      rw [Nat.min_eq_left hend, Nat.succ_mul, Nat.add_sub_cancel_left]
    rw [if_pos hi, Array.getElem?_toList, Array.getElem?_extract, hlen]
    simp only [hi, true_and]
  · rw [if_neg hi, if_neg fun h => hi h.1, List.getElem?_nil]

theorem length_row (g : Grid α) {i : Nat} (hi : i < g.rows) : (g.row i).length = g.columns := by
  have hend : (i + 1) * g.columns ≤ g.cells.size := by
    rw [g.size_cells]
    exact Nat.mul_le_mul_right _ hi
  rw [row, if_pos hi, Array.length_toList, Array.size_extract, Nat.min_eq_left hend, Nat.succ_mul,
    Nat.add_sub_cancel_left]

@[simp] theorem rows_const (rows columns : Nat) (a : α) : (const rows columns a).rows = rows := rfl

@[simp] theorem columns_const (rows columns : Nat) (a : α) :
    (const rows columns a).columns = columns := rfl

theorem get?_const {rows columns i j : Nat} {a : α} :
    (const rows columns a).get? i j = if i < rows ∧ j < columns then some a else none := by
  by_cases h : i < rows ∧ j < columns
  · have hp : i * columns + j < (const rows columns a).cells.size :=
      place_lt (g := const rows columns a) h.1 h.2
    rw [get?, rows_const, columns_const, if_pos h, if_pos h, Array.getElem?_eq_getElem hp]
    simp [const]
  · rw [get?, rows_const, columns_const, if_neg h, if_neg h]

@[simp] theorem rows_set (g : Grid α) (i j : Nat) (a : α) : (g.set i j a).rows = g.rows := by
  unfold set
  split <;> rfl

@[simp] theorem columns_set (g : Grid α) (i j : Nat) (a : α) :
    (g.set i j a).columns = g.columns := by
  unfold set
  split <;> rfl

/-- Only the entry that is replaced changes. -/
theorem get?_set (g : Grid α) (i j : Nat) (a : α) (i' j' : Nat) :
    (g.set i j a).get? i' j' =
      if i = i' ∧ j = j' ∧ i < g.rows ∧ j < g.columns then some a else g.get? i' j' := by
  by_cases hin : i < g.rows ∧ j < g.columns
  · by_cases hin' : i' < g.rows ∧ j' < g.columns
    · rw [get?, get?, rows_set, columns_set, if_pos hin', if_pos hin', set, if_pos hin]
      by_cases hij : i = i' ∧ j = j'
      · obtain ⟨rfl, rfl⟩ := hij
        rw [if_pos ⟨rfl, rfl, hin⟩]
        exact Array.getElem?_setIfInBounds_self_of_lt (place_lt hin.1 hin.2)
      · rw [if_neg fun h => hij ⟨h.1, h.2.1⟩]
        exact Array.getElem?_setIfInBounds_ne fun h => hij (place_inj hin.2 hin'.2 h)
    · rw [get?, get?, rows_set, columns_set, if_neg hin', if_neg hin', if_neg]
      rintro ⟨rfl, rfl, _⟩
      exact hin' hin
  · rw [set, if_neg hin, if_neg fun h => hin h.2.2]

@[simp] theorem rows_zipWith (f : α → α → α) (g h : Grid α) : (g.zipWith f h).rows = g.rows := rfl

@[simp] theorem columns_zipWith (f : α → α → α) (g h : Grid α) :
    (g.zipWith f h).columns = g.columns := rfl

/-- Tables of one shape are combined entry by entry. -/
theorem get?_zipWith {f : α → α → α} {g h : Grid α} (hr : h.rows = g.rows)
    (hc : h.columns = g.columns) (i j : Nat) :
    (g.zipWith f h).get? i j = (g.get? i j).bind fun a => (h.get? i j).map (f a) := by
  unfold get?
  rw [rows_zipWith, columns_zipWith, hr, hc]
  by_cases hin : i < g.rows ∧ j < g.columns
  · have hg := place_lt hin.1 hin.2
    have hh : i * g.columns + j < h.cells.size := by
      rw [h.size_cells, hr, hc, ← g.size_cells]
      exact hg
    rw [if_pos hin, if_pos hin, if_pos hin]
    simp [zipWith, Array.getElem?_eq_getElem hg, Array.getElem?_eq_getElem hh]
  · rw [if_neg hin, if_neg hin]
    rfl

/-- `values` written into a row from column `n` on. -/
theorem get?_foldl_set (i : Nat) (values : List α) (n : Nat) (g : Grid α) (i' j' : Nat) :
    ((values.zipIdx n).foldl (fun g (a, j) => g.set i j a) g).get? i' j' =
      if i = i' ∧ i < g.rows ∧ j' < g.columns ∧ n ≤ j' ∧ j' < n + values.length then
        values[j' - n]?
      else g.get? i' j' := by
  induction values generalizing n g with
  | nil => exact (if_neg fun h => Nat.not_lt_of_le h.2.2.2.1 h.2.2.2.2).symm
  | cons a values ih =>
    rw [List.zipIdx_cons, List.foldl_cons, ih, rows_set, columns_set, get?_set]
    by_cases hn : j' = n
    · subst hn
      simp only [List.length_cons, Nat.sub_self, List.getElem?_cons_zero]
      grind
    · by_cases hlt : n ≤ j'
      · obtain ⟨d, rfl⟩ := Nat.exists_eq_add_of_lt (Nat.lt_of_le_of_ne hlt (Ne.symm hn))
        have hd : n + d + 1 - n = d + 1 := by omega
        have hd' : n + d + 1 - (n + 1) = d := by omega
        simp only [List.length_cons, hd, hd', List.getElem?_cons_succ]
        grind
      · grind

@[simp] theorem rows_setRow (g : Grid α) (i : Nat) (values : List α) :
    (g.setRow i values).rows = g.rows := by
  unfold setRow
  generalize values.zipIdx = entries
  induction entries generalizing g with
  | nil => rfl
  | cons e entries ih => rw [List.foldl_cons, ih, rows_set]

@[simp] theorem columns_setRow (g : Grid α) (i : Nat) (values : List α) :
    (g.setRow i values).columns = g.columns := by
  unfold setRow
  generalize values.zipIdx = entries
  induction entries generalizing g with
  | nil => rfl
  | cons e entries ih => rw [List.foldl_cons, ih, columns_set]

/-- Writing a row changes the beginning of that row, as far as the values and the table go. -/
theorem get?_setRow (g : Grid α) (i : Nat) (values : List α) (i' j' : Nat) :
    (g.setRow i values).get? i' j' =
      if i = i' ∧ i < g.rows ∧ j' < g.columns ∧ j' < values.length then values[j']?
      else g.get? i' j' := by
  rw [setRow, get?_foldl_set]
  simp

/-- `lists` written over the rows from row `n` on. -/
theorem get?_foldl_setRow (lists : List (List α)) (n : Nat) (g : Grid α) (i j : Nat) :
    ((lists.zipIdx n).foldl (fun g (values, i) => g.setRow i values) g).get? i j =
      if i < g.rows ∧ j < g.columns ∧ n ≤ i then
        ((lists[i - n]?).bind (·[j]?)).or (g.get? i j)
      else g.get? i j := by
  induction lists generalizing n g with
  | nil => simp
  | cons values lists ih =>
    rw [List.zipIdx_cons, List.foldl_cons, ih, rows_setRow, columns_setRow, get?_setRow]
    by_cases hn : i = n
    · subst hn
      simp only [Nat.sub_self, List.getElem?_cons_zero, Option.bind_some]
      by_cases hj : j < values.length
      · simp only [hj, List.getElem?_eq_getElem, Option.some_or]
        grind
      · simp only [hj, List.getElem?_eq_none (Nat.le_of_not_lt hj), Option.none_or]
        grind
    · by_cases hlt : n ≤ i
      · obtain ⟨d, rfl⟩ := Nat.exists_eq_add_of_lt (Nat.lt_of_le_of_ne hlt (Ne.symm hn))
        have hd : n + d + 1 - n = d + 1 := by omega
        have hd' : n + d + 1 - (n + 1) = d := by omega
        simp only [hd, hd', List.getElem?_cons_succ]
        grind
      · grind

@[simp] theorem rows_ofRows (columns : Nat) (pad : α) (lists : List (List α)) :
    (ofRows columns pad lists).rows = lists.length := by
  have hkeep : ∀ (entries : List (List α × Nat)) (g : Grid α),
      (entries.foldl (fun g (values, i) => g.setRow i values) g).rows = g.rows := by
    intro entries
    induction entries with
    | nil => exact fun _ => rfl
    | cons e entries ih => intro g; rw [List.foldl_cons, ih, rows_setRow]
  rw [ofRows, hkeep, rows_const]

@[simp] theorem columns_ofRows (columns : Nat) (pad : α) (lists : List (List α)) :
    (ofRows columns pad lists).columns = columns := by
  have hkeep : ∀ (entries : List (List α × Nat)) (g : Grid α),
      (entries.foldl (fun g (values, i) => g.setRow i values) g).columns = g.columns := by
    intro entries
    induction entries with
    | nil => exact fun _ => rfl
    | cons e entries ih => intro g; rw [List.foldl_cons, ih, columns_setRow]
  rw [ofRows, hkeep, columns_const]

/-- A table made of rows has their entries, and the padding where a row is too short. -/
theorem get?_ofRows {columns i j : Nat} {pad : α} {lists : List (List α)} (hi : i < lists.length)
    (hj : j < columns) :
    (ofRows columns pad lists).get? i j = some ((lists[i][j]?).getD pad) := by
  rw [ofRows, get?_foldl_setRow, rows_const, columns_const, if_pos ⟨hi, hj, Nat.zero_le i⟩,
    get?_const, if_pos ⟨hi, hj⟩, Nat.sub_zero, List.getElem?_eq_getElem hi, Option.bind_some]
  cases lists[i][j]? <;> rfl

end Grid

end JourneyPlanner
