import Mathlib

/-!
# Row-major order

The entries of a three-axis array in row-major order, the rows that a reshape makes of them, and
the concatenation of blocks of different sizes. A row of the concatenation comes from one block and
one offset in it (`exists_block`, `block_unique`).
-/

namespace Rave

abbrev Tensor (m n c : Nat) (α : Type) : Type := Fin m → Fin n → Fin c → α

variable {α : Type}

/-! ## Blocks

Lists that stand one after another. A row of the whole is a row of one block, whose base is the sum
of the sizes before it. -/

/-- The offset of block `s`: the size of what stands before it. -/
def blockBase (sizes : List Nat) (s : Nat) : Nat := (sizes.take s).sum

@[simp] theorem blockBase_zero (sizes : List Nat) : blockBase sizes 0 = 0 := by
  simp [blockBase]

@[simp] theorem blockBase_cons_succ (n : Nat) (sizes : List Nat) (s : Nat) :
    blockBase (n :: sizes) (s + 1) = n + blockBase sizes s := by
  simp [blockBase]

theorem blockBase_replicate {m n s : Nat} (h : s ≤ m) :
    blockBase (List.replicate m n) s = s * n := by
  simp [blockBase, List.take_replicate, Nat.min_eq_left h]

/-- Every row lies in a block. -/
theorem exists_block {sizes : List Nat} {row : Nat} (h : row < sizes.sum) :
    ∃ s n i, sizes[s]? = some n ∧ i < n ∧ blockBase sizes s + i = row := by
  induction sizes generalizing row with
  | nil => simp at h
  | cons size sizes ih =>
    by_cases hrow : row < size
    · exact ⟨0, size, row, rfl, hrow, by simp⟩
    · have hrest : row - size < sizes.sum := by
        rw [List.sum_cons] at h
        omega
      obtain ⟨s, n, i, hs, hi, hbase⟩ := ih hrest
      refine ⟨s + 1, n, i, by simpa using hs, hi, ?_⟩
      rw [blockBase_cons_succ]
      omega

/-- No row lies in two blocks, or at two places in one. -/
theorem block_unique {sizes : List Nat} {s t n m i j : Nat} (hs : sizes[s]? = some n)
    (ht : sizes[t]? = some m) (hi : i < n) (hj : j < m)
    (h : blockBase sizes s + i = blockBase sizes t + j) : s = t ∧ i = j := by
  induction sizes generalizing s t with
  | nil => simp at hs
  | cons size sizes ih =>
    cases s with
    | zero =>
      cases t with
      | zero => simpa using h
      | succ t =>
        -- the first block ends where the second begins
        simp only [List.getElem?_cons_zero, Option.some.injEq] at hs
        simp only [blockBase_zero, blockBase_cons_succ] at h
        omega
    | succ s =>
      cases t with
      | zero =>
        simp only [List.getElem?_cons_zero, Option.some.injEq] at ht
        simp only [blockBase_zero, blockBase_cons_succ] at h
        omega
      | succ t =>
        simp only [blockBase_cons_succ] at h
        have := ih (by simpa using hs) (by simpa using ht) (by omega)
        omega

/-- A row of a block stands at its base and its place in the block. -/
theorem getElem?_flatten_block {blocks : List (List α)} {s i : Nat} {block : List α}
    (hs : blocks[s]? = some block) (hi : i < block.length) :
    blocks.flatten[blockBase (blocks.map List.length) s + i]? = block[i]? := by
  induction blocks generalizing s with
  | nil => simp at hs
  | cons first blocks ih =>
    cases s with
    | zero =>
      simp only [List.getElem?_cons_zero, Option.some.injEq] at hs
      subst hs
      simp [List.getElem?_append_left hi]
    | succ s =>
      have := ih (by simpa using hs)
      rw [List.map_cons, blockBase_cons_succ, List.flatten_cons,
        List.getElem?_append_right (by omega)]
      rw [show first.length + blockBase (blocks.map List.length) s + i - first.length =
        blockBase (blocks.map List.length) s + i from by omega]
      exact this

/-- Blocks of one size `n` lie at the multiples of `n`. -/
theorem getElem?_flatten_uniform {blocks : List (List α)} {n s i : Nat} {block : List α}
    (hn : ∀ b ∈ blocks, b.length = n) (hs : blocks[s]? = some block) (hi : i < n) :
    blocks.flatten[s * n + i]? = block[i]? := by
  have hsizes : blocks.map List.length = List.replicate blocks.length n := by
    rw [List.eq_replicate_iff]
    refine ⟨List.length_map _, fun size hsize => ?_⟩
    obtain ⟨b, hb, rfl⟩ := List.mem_map.mp hsize
    exact hn b hb
  have hlt : s < blocks.length := (List.getElem?_eq_some_iff.mp hs).1
  have hblock : block.length = n := hn block (List.mem_of_getElem? hs)
  have := getElem?_flatten_block hs (show i < block.length by omega)
  rwa [hsizes, blockBase_replicate (Nat.le_of_lt hlt)] at this

/-! ## Reshaping

NumPy's `reshape` keeps the order of the elements, so that the rows of a reshaped tensor are its
cells. -/

/-- The entries in row-major order: the last axis runs fastest. -/
def Tensor.ravel {m n c : Nat} (t : Tensor m n c α) : List α :=
  (List.finRange m).flatMap fun i => (List.finRange n).flatMap fun j => List.ofFn (t i j)

/-- The rows of `c` entries that a buffer holds. -/
def reshapeRows (c : Nat) (buffer : List α) : List (List α) :=
  (List.range (buffer.length / c)).map fun k => (buffer.drop (k * c)).take c

/-- The last axis of every cell, the cells in row-major order. -/
def Tensor.cells {m n c : Nat} (t : Tensor m n c α) : List (List α) :=
  (List.finRange m).flatMap fun i => (List.finRange n).map fun j => List.ofFn (t i j)

/-- The elements of a tensor are those of its cells, one after another. -/
theorem Tensor.ravel_eq {m n c : Nat} (t : Tensor m n c α) : t.ravel = t.cells.flatten := by
  simp [Tensor.ravel, Tensor.cells, List.flatMap_def, List.flatten_flatten, Function.comp_def]

/-- Every cell has the same number of elements. -/
theorem Tensor.length_of_mem_cells {m n c : Nat} {t : Tensor m n c α} {row : List α}
    (h : row ∈ t.cells) : row.length = c := by
  simp only [Tensor.cells, List.mem_flatMap, List.mem_map] at h
  obtain ⟨i, -, j, -, rfl⟩ := h
  exact List.length_ofFn

@[simp] theorem Tensor.length_cells {m n c : Nat} (t : Tensor m n c α) :
    t.cells.length = m * n := by
  simp [Tensor.cells, List.length_flatMap]

/-- Reshaping recovers the rows a buffer was laid out from. -/
theorem reshapeRows_flatten {c : Nat} (hc : 0 < c) {rows : List (List α)}
    (h : ∀ row ∈ rows, row.length = c) : reshapeRows c rows.flatten = rows := by
  have hlen : rows.flatten.length = rows.length * c := by
    induction rows with
    | nil => simp
    | cons row rows ih =>
      have hrow := h row List.mem_cons_self
      have hrest := ih fun r hr => h r (List.mem_cons_of_mem _ hr)
      rw [List.flatten_cons, List.length_append, hrow, hrest, List.length_cons, Nat.succ_mul]
      omega
  apply List.ext_getElem?
  intro k
  rw [reshapeRows, hlen, Nat.mul_div_cancel _ hc, List.getElem?_map]
  by_cases hk : k < rows.length
  · rw [List.getElem?_range hk, Option.map_some, List.getElem?_eq_getElem hk]
    congr 1
    -- entry by entry: the row starts at `k * c`
    apply List.ext_getElem?
    intro i
    have hrow : (rows[k]).length = c := h _ (List.getElem_mem hk)
    rw [List.getElem?_take]
    split
    · next hi =>
      rw [List.getElem?_drop]
      exact getElem?_flatten_uniform h (List.getElem?_eq_getElem hk) hi
    · next hi => exact (List.getElem?_eq_none (by omega)).symm
  · rw [List.getElem?_eq_none (by simpa using hk), List.getElem?_eq_none (by omega)]
    rfl

/-- Reshaping a tensor gives its cells. -/
theorem Tensor.reshapeRows_ravel {m n c : Nat} (hc : 0 < c) (t : Tensor m n c α) :
    reshapeRows c t.ravel = t.cells := by
  rw [t.ravel_eq]
  exact reshapeRows_flatten hc fun _ => Tensor.length_of_mem_cells

/-- The cell at a row and a column. -/
theorem Tensor.getElem?_cells {m n c : Nat} (t : Tensor m n c α) (i : Fin m) (j : Fin n) :
    t.cells[i.val * n + j.val]? = some (List.ofFn (t i j)) := by
  have hrow : ((List.finRange m).map fun i => (List.finRange n).map fun j =>
      List.ofFn (t i j))[i.val]? = some ((List.finRange n).map fun j => List.ofFn (t i j)) := by
    simp
  rw [Tensor.cells, List.flatMap_def, getElem?_flatten_uniform (by simp) hrow j.isLt]
  simp

end Rave
