import RaveDeployment.Lib.RowMajor

/-!
# Grid cells and decoded rows

`decode` of `qualification/m2b2b/compare_decoder.py`, in exact arithmetic, and the row indices that
`main` computes for its reference vectors. The sigmoid is any function of a logit.

A scale's rows are its cells in row-major order (`decodeBoxes_eq`, `decodeScores_eq`), the scales
are blocks of the result, and the two correspondences compose (`decode_cells`).
-/

namespace Rave

namespace Decoder

variable {L S : Type} {m n c d : Nat} {α : Type}

/-- An item of `zip(SCALES, regression, logits)`: a scale and its two tensors. -/
structure HeadOutput (L : Type) where
  stride : ℚ
  size : Nat
  regression : Tensor size size 4 ℚ
  logits : Tensor size size 2 L

/-! ## Array operations

Those of `numpy` that `decode` uses, on lists. -/

/-- `np.arange`. -/
def arange (n : Nat) : Fin n → ℚ := fun i => (i.val : ℚ)

/-- `np.meshgrid(a, b, indexing="ij")`: the first array varies along the first axis. -/
def meshgrid (a : Fin m → α) (b : Fin n → α) : (Fin m → Fin n → α) × (Fin m → Fin n → α) :=
  (fun i _ => a i, fun _ j => b j)

/-- `np.stack((a, b), axis=-1)`. -/
def stackLast (a b : Fin m → Fin n → α) : Tensor m n 2 α := fun i j => ![a i j, b i j]

/-- `np.concatenate((t, u), axis=-1)`. -/
def concatenateLast (t : Tensor m n c α) (u : Tensor m n d α) : Tensor m n (c + d) α :=
  fun i j => Fin.append (t i j) (u i j)

/-- `np.concatenate`, along the first axis. -/
def concatenate : List (List α) → Except String (List α)
  | [] => .error "need at least one array to concatenate"
  | arrays => .ok arrays.flatten

/-! ## `decode`

The detections of a grid, as the source computes them. -/

/-- What one pass of the loop appends to `boxes`. -/
def decodeBoxes (h : HeadOutput L) : List (List ℚ) :=
  let yx := meshgrid (arange h.size) (arange h.size)
  let anchor := stackLast (fun i j => yx.2 i j + 1 / 2) (fun i j => yx.1 i j + 1 / 2)
  let lt : Tensor h.size h.size 2 ℚ := fun i j k => h.regression i j (Fin.castAdd 2 k)
  let rb : Tensor h.size h.size 2 ℚ := fun i j k => h.regression i j (Fin.natAdd 2 k)
  (reshapeRows 4 (concatenateLast (anchor - lt) (anchor + rb)).ravel).map fun row =>
    row.map (· * h.stride)

/-- What it appends to `scores`. -/
def decodeScores (sigmoid : L → S) (h : HeadOutput L) : List (List S) :=
  reshapeRows 2 (Tensor.ravel fun i j k => sigmoid (h.logits i j k))

/-- `decode`: the boxes of all scales, and the scores beside them. -/
def decode (sigmoid : L → S) (heads : List (HeadOutput L)) :
    Except String (List (List ℚ) × List (List S)) := do
  let boxes ← concatenate (heads.map decodeBoxes)
  let scores ← concatenate (heads.map (decodeScores sigmoid))
  return (boxes, scores)

/-! ## Cells

A cell is a scale with a row and a column in it. The rows of all scales stand one after another, so
that a cell has a row of its own in each output (`Cell.location`), and every row is that of one
cell. -/

/-- A cell: its scale, and its place in the scale's grid. -/
@[ext] structure Cell (heads : List (HeadOutput L)) where
  scale : Fin heads.length
  y : Fin (heads.get scale).size
  x : Fin (heads.get scale).size

/-- `base`, after the scales before `s`. -/
def rowBase (heads : List (HeadOutput L)) (s : Nat) : Nat :=
  blockBase (heads.map fun h => h.size * h.size) s

/-- Python's `divmod` on naturals. -/
def divmod (a b : Nat) : Nat × Nat := (a / b, a % b)

variable {heads : List (HeadOutput L)}

def Cell.head (cell : Cell heads) : HeadOutput L := heads.get cell.scale

/-- `location`. -/
def Cell.location (cell : Cell heads) : Nat :=
  rowBase heads cell.scale + cell.y * cell.head.size + cell.x

/-- The box of a cell: its centre, less or plus the four distances, in strides. -/
def HeadOutput.box (h : HeadOutput L) (y x : Fin h.size) : List ℚ :=
  [h.stride * (x + 1 / 2 - h.regression y x 0), h.stride * (y + 1 / 2 - h.regression y x 1),
    h.stride * (x + 1 / 2 + h.regression y x 2), h.stride * (y + 1 / 2 + h.regression y x 3)]

/-- The scores of a cell: the sigmoid of its logits, one for each class. -/
def HeadOutput.scores (sigmoid : L → S) (h : HeadOutput L) (y x : Fin h.size) : List S :=
  [sigmoid (h.logits y x 0), sigmoid (h.logits y x 1)]

/-- Within its scale a cell stands at one of the rows of that scale. -/
theorem Cell.local_lt (cell : Cell heads) :
    cell.y.val * cell.head.size + cell.x.val < cell.head.size * cell.head.size := by
  have hy : cell.y.val + 1 ≤ cell.head.size := cell.y.isLt
  have hx : cell.x.val < cell.head.size := cell.x.isLt
  calc cell.y.val * cell.head.size + cell.x.val
      < cell.y.val * cell.head.size + cell.head.size := by omega
    _ = (cell.y.val + 1) * cell.head.size := by rw [Nat.succ_mul]
    _ ≤ cell.head.size * cell.head.size := Nat.mul_le_mul_right _ hy

/-- The scale of a cell has as many rows as it has cells. -/
theorem Cell.getElem?_sizes (cell : Cell heads) :
    (heads.map fun h => h.size * h.size)[cell.scale.val]? =
      some (cell.head.size * cell.head.size) := by
  simp [Cell.head]

/-- `divmod` recovers a cell's place from its row. -/
theorem Cell.divmod_location (cell : Cell heads) :
    divmod (cell.location - rowBase heads cell.scale) cell.head.size =
      (cell.y.val, cell.x.val) := by
  have hx : cell.x.val < cell.head.size := cell.x.isLt
  have hlocal : cell.location - rowBase heads cell.scale =
      cell.x.val + cell.head.size * cell.y.val := by
    rw [Cell.location, Nat.mul_comm]
    omega
  rw [divmod, hlocal, Nat.add_mul_div_left _ _ (by omega), Nat.add_mul_mod_self_left,
    Nat.div_eq_of_lt hx, Nat.mod_eq_of_lt hx, Nat.zero_add]

/-- No two cells stand at one row. -/
theorem Cell.location_injective : Function.Injective (Cell.location : Cell heads → Nat) := by
  intro c d h
  have hplace := block_unique c.getElem?_sizes d.getElem?_sizes c.local_lt d.local_lt
    (by simpa only [Cell.location, rowBase, Nat.add_assoc] using h)
  have hscale : c.scale = d.scale := Fin.ext hplace.1
  cases c with
  | mk s y x =>
    cases d with
    | mk t v u =>
      obtain rfl : s = t := hscale
      -- within one scale, the quotient and the remainder
      have hdiv : (y.val, x.val) = (v.val, u.val) := by
        calc (y.val, x.val)
            = divmod (Cell.location (⟨s, y, x⟩ : Cell heads) - rowBase heads s)
                (heads.get s).size := (Cell.divmod_location ⟨s, y, x⟩).symm
          _ = divmod (Cell.location (⟨s, v, u⟩ : Cell heads) - rowBase heads s)
                (heads.get s).size := by rw [h]
          _ = (v.val, u.val) := Cell.divmod_location ⟨s, v, u⟩
      obtain rfl : y = v := Fin.ext (congrArg Prod.fst hdiv)
      obtain rfl : x = u := Fin.ext (congrArg Prod.snd hdiv)
      rfl

/-- Every row is that of a cell. -/
theorem Cell.exists_location {row : Nat} (h : row < rowBase heads heads.length) :
    ∃ cell : Cell heads, cell.location = row := by
  have hrow : row < (heads.map fun h => h.size * h.size).sum := by
    rwa [rowBase, blockBase, List.take_of_length_le (by simp)] at h
  obtain ⟨s, n, i, hs, hi, hbase⟩ := exists_block hrow
  have hlt : s < heads.length := by simpa using (List.getElem?_eq_some_iff.mp hs).1
  obtain rfl : (heads.get ⟨s, hlt⟩).size * (heads.get ⟨s, hlt⟩).size = n := by
    simpa [List.getElem?_eq_getElem hlt] using hs
  have hsize : 0 < (heads.get ⟨s, hlt⟩).size := by
    by_contra hzero
    rw [Nat.eq_zero_of_not_pos hzero] at hi
    omega
  refine ⟨⟨⟨s, hlt⟩, ⟨i / (heads.get ⟨s, hlt⟩).size, Nat.div_lt_of_lt_mul hi⟩,
    ⟨i % (heads.get ⟨s, hlt⟩).size, Nat.mod_lt _ hsize⟩⟩, ?_⟩
  show rowBase heads s + i / (heads.get ⟨s, hlt⟩).size * (heads.get ⟨s, hlt⟩).size +
    i % (heads.get ⟨s, hlt⟩).size = row
  rw [Nat.add_assoc, Nat.div_add_mod']
  exact hbase

/-! ## One scale

Both arrays of a scale list the cells row by row. -/

/-- The box of a cell stands at the cell's place in its scale. -/
theorem getElem?_decodeBoxes (h : HeadOutput L) (y x : Fin h.size) :
    (decodeBoxes h)[y.val * h.size + x.val]? = some (h.box y x) := by
  rw [decodeBoxes, List.getElem?_map, Tensor.reshapeRows_ravel (by decide : 0 < 2 + 2),
    Tensor.getElem?_cells, Option.map_some, Option.some.injEq]
  -- the anchor is `(x, y)`: the second grid of the mesh comes first
  show [((x.val : ℚ) + 1 / 2 - h.regression y x 0) * h.stride,
    ((y.val : ℚ) + 1 / 2 - h.regression y x 1) * h.stride,
    ((x.val : ℚ) + 1 / 2 + h.regression y x 2) * h.stride,
    ((y.val : ℚ) + 1 / 2 + h.regression y x 3) * h.stride] = h.box y x
  simp only [HeadOutput.box, mul_comm h.stride]

theorem getElem?_decodeScores (sigmoid : L → S) (h : HeadOutput L) (y x : Fin h.size) :
    (decodeScores sigmoid h)[y.val * h.size + x.val]? = some (h.scores sigmoid y x) := by
  rw [decodeScores, Tensor.reshapeRows_ravel (by decide : 0 < 2), Tensor.getElem?_cells]
  rfl

@[simp] theorem length_decodeBoxes (h : HeadOutput L) :
    (decodeBoxes h).length = h.size * h.size := by
  rw [decodeBoxes, List.length_map, Tensor.reshapeRows_ravel (by decide : 0 < 2 + 2),
    Tensor.length_cells]

@[simp] theorem length_decodeScores (sigmoid : L → S) (h : HeadOutput L) :
    (decodeScores sigmoid h).length = h.size * h.size := by
  rw [decodeScores, Tensor.reshapeRows_ravel (by decide : 0 < 2), Tensor.length_cells]

/-! ## All scales

The scales are joined in their order. With no scale there is nothing to join, and NumPy raises. -/

/-- Where there is an array, joining cannot fail. -/
theorem concatenate_of_ne_nil {arrays : List (List α)} (h : arrays ≠ []) :
    concatenate arrays = .ok arrays.flatten := by
  cases arrays with
  | nil => exact absurd rfl h
  | cons => rfl

/-- With at least one scale, decoding returns the rows of the scales one after another. -/
theorem decode_of_ne_nil (sigmoid : L → S) (hne : heads ≠ []) :
    decode sigmoid heads = .ok
      ((heads.map decodeBoxes).flatten, (heads.map (decodeScores sigmoid)).flatten) := by
  rw [decode, concatenate_of_ne_nil (by simpa using hne),
    concatenate_of_ne_nil (by simpa using hne)]
  rfl

/-- The rows of each scale are as many as its cells, whichever of the two arrays it is. -/
theorem lengths_eq {rows : HeadOutput L → List (List α)}
    (hrows : ∀ h, (rows h).length = h.size * h.size) :
    (heads.map rows).map List.length = heads.map fun h => h.size * h.size := by
  rw [List.map_map]
  exact List.map_congr_left fun h _ => hrows h

/-- A scale's rows, as rows of the result. -/
theorem getElem?_location {rows : HeadOutput L → List (List α)}
    (hrows : ∀ h, (rows h).length = h.size * h.size) (cell : Cell heads) :
    (heads.map rows).flatten[cell.location]? =
      (rows cell.head)[cell.y.val * cell.head.size + cell.x.val]? := by
  have hblock : (heads.map rows)[cell.scale.val]? = some (rows cell.head) := by
    simp [Cell.head]
  have hlt : cell.y.val * cell.head.size + cell.x.val < (rows cell.head).length := by
    rw [hrows]
    exact Cell.local_lt cell
  have := getElem?_flatten_block hblock hlt
  rw [lengths_eq hrows] at this
  rw [Cell.location, Nat.add_assoc]
  exact this

theorem length_rows {rows : HeadOutput L → List (List α)}
    (hrows : ∀ h, (rows h).length = h.size * h.size) :
    (heads.map rows).flatten.length = rowBase heads heads.length := by
  rw [List.length_flatten, lengths_eq hrows, rowBase, blockBase,
    List.take_of_length_le (by simp)]

/-- The rows of `decode` are the cells of its scales: each cell has its row, with its box and its
scores, and each row is the row of one cell. -/
theorem decode_cells (sigmoid : L → S) (hne : heads ≠ []) :
    ∃ boxes scores, decode sigmoid heads = .ok (boxes, scores) ∧
      boxes.length = rowBase heads heads.length ∧ scores.length = rowBase heads heads.length ∧
      (∀ cell : Cell heads,
        boxes[cell.location]? = some (cell.head.box cell.y cell.x) ∧
        scores[cell.location]? = some (cell.head.scores sigmoid cell.y cell.x) ∧
        divmod (cell.location - rowBase heads cell.scale) cell.head.size =
          (cell.y.val, cell.x.val)) ∧
      ∀ row < boxes.length, ∃! cell : Cell heads, cell.location = row := by
  refine ⟨_, _, decode_of_ne_nil sigmoid hne, length_rows length_decodeBoxes,
    length_rows (length_decodeScores sigmoid), fun cell => ⟨?_, ?_, cell.divmod_location⟩,
    fun row hrow => ?_⟩
  · rw [getElem?_location length_decodeBoxes]
    exact getElem?_decodeBoxes cell.head cell.y cell.x
  · rw [getElem?_location (length_decodeScores sigmoid)]
    exact getElem?_decodeScores sigmoid cell.head cell.y cell.x
  · rw [length_rows length_decodeBoxes] at hrow
    obtain ⟨cell, hcell⟩ := Cell.exists_location hrow
    exact ⟨cell, hcell, fun d hd => Cell.location_injective (hd.trans hcell.symm)⟩

def sampleHeads : List (HeadOutput ℚ) :=
  [⟨8, 2, fun _ _ _ => 1, fun _ _ _ => 0⟩, ⟨16, 1, fun _ _ _ => 1, fun _ _ _ => 0⟩]

/-- Two scales, of two by two cells and of one. -/
theorem decode_cells_sampleHeads :
    sampleHeads ≠ [] ∧ ∃ boxes scores, decode id sampleHeads = .ok (boxes, scores) ∧
      boxes.length = rowBase sampleHeads sampleHeads.length ∧
      scores.length = rowBase sampleHeads sampleHeads.length ∧
      (∀ cell : Cell sampleHeads,
        boxes[cell.location]? = some (cell.head.box cell.y cell.x) ∧
        scores[cell.location]? = some (cell.head.scores id cell.y cell.x) ∧
        divmod (cell.location - rowBase sampleHeads cell.scale) cell.head.size =
          (cell.y.val, cell.x.val)) ∧
      ∀ row < boxes.length, ∃! cell : Cell sampleHeads, cell.location = row :=
  ⟨List.cons_ne_nil _ _, decode_cells id (List.cons_ne_nil _ _)⟩

/-- With no tensor there is nothing to concatenate, and no row is returned. -/
theorem not_decode_cells :
    ¬ ∃ rows, decode (id : ℚ → ℚ) ([] : List (HeadOutput ℚ)) = .ok rows := by
  intro h
  obtain ⟨rows, hrows⟩ := h
  have herror : decode (id : ℚ → ℚ) ([] : List (HeadOutput ℚ)) =
      .error "need at least one array to concatenate" := rfl
  rw [herror] at hrows
  cases hrows

end Decoder

end Rave
