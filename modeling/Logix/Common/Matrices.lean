import Logix.Js.Number
import Logix.Spec.Grouping
import Mathlib.Algebra.BigOperators.Fin
import Mathlib.Data.List.GetD
import Mathlib.Data.Matrix.Mul
import Mathlib.Tactic.NormNum

/-!
# Do the loops multiply matrices?

`MatrixOperationsLibrary` fills a matrix of zeros entry by entry, and rounds the entries of a
product to four decimals.

* `entry`, `setEntry`, `blank`: matrices as lists of rows;
* `multiply`, `transpose`: the code;
* `entry_fill`: what loops over the entries leave;
* `IsMatrix`: the rows have one length; `toMatrix`: the matrix of the mathematics;
* **`multiply_spec`**: the product is that of the matrices up to the rounding of its entries, and
  transposing before is the same as transposing after.

Rows of different lengths are left out, and so are matrices without rows, on which the code throws.
-/

namespace Logix.Common.MatrixOperationsLibrary

/-! ## The code -/

/-- `number[][]`. -/
abbrev Grid : Type := List (List ℚ)

/-- `m[r][c]`. -/
def entry (m : Grid) (r c : ℕ) : ℚ := (m.getD r []).getD c 0

/-- `m[r][c] = x`. -/
def setEntry (m : Grid) (r c : ℕ) (x : ℚ) : Grid := m.modify r fun row => row.set c x

/-- `Array.from({ length: rows }, () => Array(cols).fill(0))`. -/
def blank (rows cols : ℕ) : Grid := List.replicate rows (List.replicate cols 0)

/-- `m[0].length`. -/
def width (m : Grid) : ℕ := (m.headD []).length

/-- The loop over `k`. -/
def dot (a b : Grid) (colsA r c : ℕ) : ℚ :=
  (List.range colsA).foldl (fun sum k => sum + entry a r k * entry b k c) 0

/-- **`multiply(a, b)`.** -/
def multiply (a b : Grid) : Except String Grid :=
  let rowsA := a.length
  let colsA := width a
  let rowsB := b.length
  let colsB := width b
  if colsA ≠ rowsB then .error "Incompatible matrix dimensions for multiplication"
  else
    .ok ((List.range rowsA).foldl (fun result r =>
      (List.range colsB).foldl (fun result c =>
        setEntry result r c (toFixed 4 (dot a b colsA r c))) result) (blank rowsA colsB))

/-- **`transpose(matrix)`.** -/
def transpose (matrix : Grid) : Grid :=
  let rows := matrix.length
  let cols := width matrix
  (List.range rows).foldl (fun result r =>
    (List.range cols).foldl (fun result c =>
      setEntry result c r (entry matrix r c)) result) (blank cols rows)

/-! ## Entries -/

/-- All rows have one length. -/
structure IsMatrix (m : Grid) (rows cols : ℕ) : Prop where
  length_eq : m.length = rows
  width_eq : ∀ row ∈ m, row.length = cols

/-- The matrix of the mathematics. -/
def toMatrix (rows cols : ℕ) (m : Grid) : Matrix (Fin rows) (Fin cols) ℚ :=
  Matrix.of fun r c => entry m r c

variable {m m' a b : Grid} {rows cols : ℕ}

theorem isMatrix_blank (rows cols : ℕ) : IsMatrix (blank rows cols) rows cols where
  length_eq := List.length_replicate
  width_eq row hrow := by rw [List.eq_of_mem_replicate hrow, List.length_replicate]

theorem IsMatrix.width_eq_cols (h : IsMatrix m rows cols) (hrows : 0 < rows) : width m = cols := by
  cases m with
  | nil => exact absurd h.length_eq (Nat.ne_of_lt hrows)
  | cons row m => exact h.width_eq row List.mem_cons_self

theorem IsMatrix.setEntry (h : IsMatrix m rows cols) (r c : ℕ) (x : ℚ) :
    IsMatrix (setEntry m r c x) rows cols where
  length_eq := by rw [MatrixOperationsLibrary.setEntry, List.length_modify, h.length_eq]
  width_eq row hrow := by
    obtain ⟨i, hi, rfl⟩ := List.getElem_of_mem hrow
    simp only [MatrixOperationsLibrary.setEntry, List.length_modify] at hi
    simp only [MatrixOperationsLibrary.setEntry, List.getElem_modify]
    split_ifs
    · rw [List.length_set]
      exact h.width_eq _ (List.getElem_mem _)
    · exact h.width_eq _ (List.getElem_mem _)

theorem IsMatrix.ext (h : IsMatrix m rows cols) (h' : IsMatrix m' rows cols)
    (heq : ∀ r < rows, ∀ c < cols, entry m r c = entry m' r c) : m = m' := by
  refine List.ext_getElem (h.length_eq.trans h'.length_eq.symm) fun r hr hr' => ?_
  have hrow := h.width_eq _ (List.getElem_mem hr)
  have hrow' := h'.width_eq _ (List.getElem_mem hr')
  refine List.ext_getElem (hrow.trans hrow'.symm) fun c hc hc' => ?_
  have hentry := heq r (h.length_eq ▸ hr) c (hrow ▸ hc)
  rwa [entry, entry, List.getD_eq_getElem _ _ hr, List.getD_eq_getElem _ _ hr',
    List.getD_eq_getElem _ _ hc, List.getD_eq_getElem _ _ hc'] at hentry

theorem entry_setEntry (h : IsMatrix m rows cols) {r c : ℕ} (hr : r < rows) (hc : c < cols) (x : ℚ)
    (i j : ℕ) : entry (setEntry m r c x) i j = if (i, j) = (r, c) then x else entry m i j := by
  have hrm : r < m.length := h.length_eq ▸ hr
  have hcr : c < m[r].length := (h.width_eq _ (List.getElem_mem hrm)).symm ▸ hc
  simp only [entry, setEntry, List.getD_eq_getElem?_getD, List.getElem?_modify, Prod.mk.injEq]
  by_cases hi : r = i
  · subst hi
    by_cases hj : c = j
    · subst hj
      simp [hrm, hcr]
    · simp [hrm, hj, Ne.symm hj]
  · simp [hi, Ne.symm hi]

/-! ## Loops over the entries -/

/-- Writing `value` at the cells. -/
def fill (m : Grid) (cells : List (ℕ × ℕ)) (value : ℕ × ℕ → ℚ) : Grid :=
  cells.foldl (fun m cell => setEntry m cell.1 cell.2 (value cell)) m

/-- **The loop leaves the values at its cells, and the other entries alone.** -/
theorem entry_fill (value : ℕ × ℕ → ℚ) (cells : List (ℕ × ℕ)) (h : IsMatrix m rows cols)
    (hcells : ∀ cell ∈ cells, cell.1 < rows ∧ cell.2 < cols) :
    IsMatrix (fill m cells value) rows cols ∧
      ∀ i j, entry (fill m cells value) i j =
        if (i, j) ∈ cells then value (i, j) else entry m i j := by
  induction cells generalizing m with
  | nil => exact ⟨h, fun i j => by rw [if_neg List.not_mem_nil]; rfl⟩
  | cons cell cells ih =>
    obtain ⟨hr, hc⟩ := hcells cell List.mem_cons_self
    obtain ⟨hm, hentry⟩ := ih (h.setEntry cell.1 cell.2 (value cell))
      fun cell' hcell' => hcells cell' (List.mem_cons_of_mem cell hcell')
    refine ⟨hm, fun i j => (hentry i j).trans ?_⟩
    rw [entry_setEntry h hr hc]
    by_cases hmem : (i, j) ∈ cells
    · rw [if_pos hmem, if_pos (List.mem_cons_of_mem cell hmem)]
    · by_cases hij : (i, j) = cell
      · rw [if_neg hmem, if_pos hij, hij, if_pos List.mem_cons_self]
      · rw [if_neg hmem, if_neg hij, if_neg (List.not_mem_cons_of_ne_of_not_mem hij hmem)]

theorem foldl_foldl_eq_fill (value : ℕ × ℕ → ℚ) (cell : ℕ → ℕ → ℕ × ℕ) (rows cols : ℕ) (m : Grid) :
    (List.range rows).foldl (fun result r =>
      (List.range cols).foldl (fun result c =>
        setEntry result (cell r c).1 (cell r c).2 (value (cell r c))) result) m =
      fill m ((List.range rows).flatMap fun r => (List.range cols).map (cell r)) value := by
  rw [fill, List.foldl_flatMap]
  simp only [List.foldl_map]

theorem mem_flatMap_range {p : ℕ × ℕ} (cell : ℕ → ℕ → ℕ × ℕ) :
    p ∈ ((List.range rows).flatMap fun r => (List.range cols).map (cell r)) ↔
      ∃ r < rows, ∃ c < cols, cell r c = p := by
  simp only [List.mem_flatMap, List.mem_map, List.mem_range]

/-! ## The operations -/

section Operations

variable {p q q' n : ℕ}

theorem dot_eq (a b : Grid) (r c : ℕ) :
    dot a b q r c = ∑ k : Fin q, entry a r k * entry b k c := by
  rw [dot, Spec.foldl_add_eq (fun k => entry a r k * entry b k c), zero_add,
    ← Finset.sum_range (fun k => entry a r k * entry b k c)]
  rfl

theorem multiply_eq (ha : IsMatrix a p q) (hb : IsMatrix b q n) (hp : 0 < p) (hq : 0 < q) :
    ∃ c, multiply a b = .ok c ∧ IsMatrix c p n ∧
      ∀ i < p, ∀ j < n, entry c i j = toFixed 4 (dot a b q i j) := by
  have hfill := entry_fill (fun cell => toFixed 4 (dot a b q cell.1 cell.2))
    ((List.range p).flatMap fun r => (List.range n).map (Prod.mk r)) (isMatrix_blank p n)
    fun cell hcell => by
      obtain ⟨r, hr, c, hc, rfl⟩ := (mem_flatMap_range Prod.mk).mp hcell
      exact ⟨hr, hc⟩
  have heq := foldl_foldl_eq_fill (fun cell => toFixed 4 (dot a b q cell.1 cell.2)) Prod.mk p n
    (blank p n)
  refine ⟨_, ?_, hfill.1, fun i hi j hj => ?_⟩
  · rw [multiply, ha.width_eq_cols hp, hb.width_eq_cols hq, ha.length_eq, hb.length_eq,
      if_neg (fun h => h rfl), ← heq]
  · rw [hfill.2, if_pos ((mem_flatMap_range Prod.mk).mpr ⟨i, hi, j, hj, rfl⟩)]

theorem transpose_eq (ha : IsMatrix a p q) (hp : 0 < p) :
    IsMatrix (transpose a) q p ∧ ∀ i < q, ∀ j < p, entry (transpose a) i j = entry a j i := by
  have hfill := entry_fill (fun cell => entry a cell.2 cell.1)
    ((List.range p).flatMap fun r => (List.range q).map fun c => (c, r)) (isMatrix_blank q p)
    fun cell hcell => by
      obtain ⟨r, hr, c, hc, rfl⟩ := (mem_flatMap_range fun r c => (c, r)).mp hcell
      exact ⟨hc, hr⟩
  have heq := foldl_foldl_eq_fill (fun cell => entry a cell.2 cell.1) (fun r c => (c, r)) p q
    (blank q p)
  rw [transpose, ha.width_eq_cols hp, ha.length_eq, heq]
  refine ⟨hfill.1, fun i hi j hj => ?_⟩
  rw [hfill.2, if_pos ((mem_flatMap_range fun r c => (c, r)).mpr ⟨j, hj, i, hi, rfl⟩)]

theorem dot_transpose (ha : IsMatrix a p q) (hb : IsMatrix b q n) (hp : 0 < p) (hq : 0 < q)
    {i j : ℕ} (hi : i < p) (hj : j < n) :
    dot (transpose b) (transpose a) q j i = dot a b q i j := by
  rw [dot_eq, dot_eq]
  refine Finset.sum_congr rfl fun k _ => ?_
  rw [(transpose_eq hb hq).2 j hj k k.isLt, (transpose_eq ha hp).2 k k.isLt i hi, mul_comm]

/-- **The product is that of the matrices, and commutes with transposing.** -/
theorem multiply_spec (ha : IsMatrix a p q) (hb : IsMatrix b q' n) (hp : 0 < p) (hq : 0 < q')
    (hn : 0 < n) :
    (q ≠ q' → multiply a b = .error "Incompatible matrix dimensions for multiplication") ∧
      (q = q' → ∃ c, multiply a b = .ok c ∧ IsMatrix c p n ∧
        (∀ (i : Fin p) (j : Fin n),
          |toMatrix p n c i j - (toMatrix p q a * toMatrix q n b) i j| ≤ 1 / 2 / 10 ^ 4) ∧
        multiply (transpose b) (transpose a) = .ok (transpose c) ∧
        transpose (transpose c) = c) := by
  refine ⟨fun hne => ?_, ?_⟩
  · rw [multiply, ha.width_eq_cols hp, hb.length_eq, if_pos hne]
  · rintro rfl
    obtain ⟨c, hc, hcm, hentry⟩ := multiply_eq ha hb hp hq
    obtain ⟨c', hc', hcm', hentry'⟩ :=
      multiply_eq (transpose_eq hb hq).1 (transpose_eq ha hp).1 hn hq
    obtain ⟨hct, hctentry⟩ := transpose_eq hcm hp
    obtain ⟨hctt, hcttentry⟩ := transpose_eq hct hn
    refine ⟨c, hc, hcm, fun i j => ?_, ?_, ?_⟩
    · rw [toMatrix, Matrix.of_apply, hentry i i.isLt j j.isLt, dot_eq, Matrix.mul_apply]
      exact abs_toFixed_sub_le 4 _
    · rw [hc', hcm'.ext hct fun j hj i hi => ?_]
      rw [hentry' j hj i hi, hctentry j hj i hi, hentry i hi j hj, dot_transpose ha hb hp hq hi hj]
    · exact hctt.ext hcm fun i hi j hj => (hcttentry i hi j hj).trans (hctentry j hj i hi)

end Operations

/-- A row times a column, to four decimals: `1 / 8 * 1 / 1000 + 2 * 3`. -/
theorem multiply_spec_row :
    ∃ c, multiply [[1 / 8, 2]] [[1 / 1000], [3]] = .ok c ∧ IsMatrix c 1 1 ∧
      (∀ i j : Fin 1, |toMatrix 1 1 c i j -
        (toMatrix 1 2 [[1 / 8, 2]] * toMatrix 2 1 [[1 / 1000], [3]]) i j| ≤ 1 / 2 / 10 ^ 4) ∧
      multiply (transpose [[1 / 1000], [3]]) (transpose [[1 / 8, 2]]) = .ok (transpose c) ∧
      transpose (transpose c) = c :=
  (multiply_spec (a := [[1 / 8, 2]]) (b := [[1 / 1000], [3]]) ⟨rfl, by decide⟩ ⟨rfl, by decide⟩
    Nat.one_pos Nat.two_pos Nat.one_pos).2 rfl

end Logix.Common.MatrixOperationsLibrary
