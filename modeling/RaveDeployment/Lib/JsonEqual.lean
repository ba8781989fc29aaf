import RaveDeployment.Lib.Dict
import RaveDeployment.Lib.JsonRead

/-!
# Equality of JSON values

`Equal` is equality of JSON values, with the types told apart at every depth: arrays in order,
objects by what is under each key. On what `loads` returns it is `Same` (`equal_iff_same`), so it
is decided by the text with sorted keys (`equal_iff_dumps`).

An object that is read holds the last field of every key, and nothing else (`value_obj`).
-/

namespace Rave

namespace Json

/-- Equality with the types told apart at every depth. An object is equal to one with the same keys
in any order. -/
inductive Equal : Json → Json → Prop where
  | null : Equal null null
  | bool (b : Bool) : Equal (bool b) (bool b)
  | int (n : Int) : Equal (int n) (int n)
  | float (lexeme : List Char) : Equal (float lexeme) (float lexeme)
  | str (s : PyStr) : Equal (str s) (str s)
  | arr {vs ws : List Json} (hlen : vs.length = ws.length)
      (h : ∀ (i : Nat) (v w : Json), vs[i]? = some v → ws[i]? = some w → Equal v w) :
      Equal (arr vs) (arr ws)
  | obj {fs gs : List (PyStr × Json)} (hkeys : ∀ k, k ∈ fs.map Prod.fst ↔ k ∈ gs.map Prod.fst)
      (h : ∀ (k : PyStr) (v w : Json), (k, v) ∈ fs → (k, w) ∈ gs → Equal v w) :
      Equal (obj fs) (obj gs)

/-! ## Equal values are the same

By induction on the equality: sorting the fields of two equal objects puts the same keys into the
same places, with equal values. -/

/-- The items of an array are sorted one by one. -/
theorem sortKeysItems_eq (vs : List Json) : sortKeysItems vs = vs.map sortKeys := by
  induction vs with
  | nil => rfl
  | cons v vs ih => rw [sortKeysItems, ih, List.map_cons]

/-- Equal values have the same canonical form. -/
theorem Equal.same {v w : Json} (h : Equal v w) (hv : Written v) (hw : Written w) :
    Same v w := by
  induction h with
  | null => rfl
  | bool b => rfl
  | int n => rfl
  | float lexeme => rfl
  | str s => rfl
  | @arr vs ws hlen _ ih =>
    -- entry by entry
    show Json.arr _ = Json.arr _
    congr 1
    rw [sortKeysItems_eq, sortKeysItems_eq]
    apply List.ext_getElem (by simpa using hlen)
    intro i hi hi'
    rw [List.length_map] at hi hi'
    rw [List.getElem_map, List.getElem_map]
    exact ih i _ _ (List.getElem?_eq_getElem hi) (List.getElem?_eq_getElem hi')
      (writtenItems_iff.mp hv _ (List.getElem_mem hi))
      (writtenItems_iff.mp hw _ (List.getElem_mem hi'))
  | @obj fs gs hkeys _ ih =>
    -- key by key: the keys are the same, and the value of each is
    apply same_obj hv.1.1 hw.1.1 (fun k hk => (hkeys k).mp hk)
    intro g hg
    obtain ⟨f, hf, hkey⟩ := List.mem_map.mp ((hkeys g.1).mpr (List.mem_map_of_mem hg))
    refine ⟨f, hf, hkey, ?_⟩
    have hmem : (g.1, f.2) ∈ fs := by
      rw [← hkey]
      exact hf
    exact ih g.1 f.2 g.2 hmem hg (writtenFields_iff.mp hv.2 f hf) (writtenFields_iff.mp hw.2 g hg)

/-! ## The same values are equal

By induction on the first value: the fields of two objects whose sorted forms are the same are
matched by their keys, which are distinct. -/

/-- Arrays are the same item by item. -/
theorem equal_arr {vs ws : List Json} (h : Same (arr vs) (arr ws))
    (ih : ∀ v ∈ vs, ∀ w ∈ ws, Same v w → Equal v w) : Equal (arr vs) (arr ws) := by
  have hitems : vs.map sortKeys = ws.map sortKeys := by
    rw [← sortKeysItems_eq, ← sortKeysItems_eq]
    exact Json.arr.inj h
  apply Equal.arr
  · simpa using congrArg List.length hitems
  · intro i v w hv hw
    apply ih v (List.mem_of_getElem? hv) w (List.mem_of_getElem? hw)
    have hi := congrArg (fun us => us[i]?) hitems
    show sortKeys v = sortKeys w
    simpa [hv, hw] using hi

/-- Objects are the same key by key. -/
theorem equal_obj {fs gs : List (PyStr × Json)} (hgs : (gs.map Prod.fst).Nodup)
    (h : Same (obj fs) (obj gs)) (ih : ∀ f ∈ fs, ∀ g ∈ gs, Same f.2 g.2 → Equal f.2 g.2) :
    Equal (obj fs) (obj gs) := by
  have hperm : (sortKeysFields fs).Perm (sortKeysFields gs) := by
    have hsorted : List.insertionSort (fun f g => f.1 ≤ g.1) (sortKeysFields fs)
        = List.insertionSort (fun f g => f.1 ≤ g.1) (sortKeysFields gs) := Json.obj.inj h
    have hfs := (List.perm_insertionSort (fun f g => f.1 ≤ g.1) (sortKeysFields fs)).symm
    rw [hsorted] at hfs
    exact hfs.trans (List.perm_insertionSort _ _)
  apply Equal.obj
  · intro k
    rw [← map_fst_sortKeysFields, ← map_fst_sortKeysFields gs]
    exact (hperm.map Prod.fst).mem_iff
  · intro k v w hv hw
    apply ih (k, v) hv (k, w) hw
    -- the field with this key in the second object is the one with the first's sorted value
    have hmem : (k, sortKeys v) ∈ sortKeysFields gs := by
      apply hperm.mem_iff.mp
      rw [sortKeysFields_eq]
      exact List.mem_map.mpr ⟨(k, v), hv, rfl⟩
    rw [sortKeysFields_eq] at hmem
    obtain ⟨g, hg, heq⟩ := List.mem_map.mp hmem
    obtain ⟨hkey, hvalue⟩ := Prod.mk.inj heq
    have hsame : g = (k, w) := List.inj_on_of_nodup_map hgs hg hw hkey
    rw [hsame] at hvalue
    exact hvalue.symm

mutual

/-- Values with the same canonical form are equal. -/
theorem equal_of_same : ∀ (v w : Json), Written w → Same v w → Equal v w
  | null, w, _, h => by
    cases w <;> first | exact .null | exact absurd h (by simp [Same, sortKeys])
  | bool b, w, _, h => by
    cases w <;> simp [Same, sortKeys] at h
    rw [h]
    exact .bool _
  | int n, w, _, h => by
    cases w <;> simp [Same, sortKeys] at h
    rw [h]
    exact .int _
  | float lexeme, w, _, h => by
    cases w <;> simp [Same, sortKeys] at h
    rw [h]
    exact .float _
  | str s, w, _, h => by
    cases w <;> simp [Same, sortKeys] at h
    rw [h]
    exact .str _
  -- the two that contain values, each by what is known of their parts
  | arr vs, w, hw, h => by
    cases w with
    | arr ws =>
      apply equal_arr h
      intro v hv w hmem
      exact equal_of_same_items vs v hv w (writtenItems_iff.mp hw w hmem)
    | _ => exact absurd h (by simp [Same, sortKeys])
  | obj fs, w, hw, h => by
    cases w with
    | obj gs =>
      apply equal_obj hw.1.1 h
      intro f hf g hg
      exact equal_of_same_fields fs f hf g.2 (writtenFields_iff.mp hw.2 g hg)
    | _ => exact absurd h (by simp [Same, sortKeys])

theorem equal_of_same_items : ∀ (vs : List Json), ∀ v ∈ vs, ∀ w, Written w → Same v w → Equal v w
  | v :: vs, u, hu, w, hw, h => by
    rcases List.mem_cons.mp hu with heq | hin
    · rw [heq] at h ⊢
      exact equal_of_same v w hw h
    · exact equal_of_same_items vs u hin w hw h

theorem equal_of_same_fields : ∀ (fs : List (PyStr × Json)), ∀ f ∈ fs, ∀ w, Written w →
    Same f.2 w → Equal f.2 w
  | (k, v) :: fs, f, hf, w, hw, h => by
    rcases List.mem_cons.mp hf with heq | hin
    · rw [heq] at h ⊢
      exact equal_of_same v w hw h
    · exact equal_of_same_fields fs f hin w hw h

end

/-- For values with distinct keys, equality is that of the canonical forms. -/
theorem equal_iff_same {v w : Json} (hv : Written v) (hw : Written w) : Equal v w ↔ Same v w :=
  ⟨fun h => h.same hv hw, equal_of_same v w hw⟩

/-- **Equality is decided by the text with sorted keys.** -/
theorem equal_iff_dumps {style : JsonStyle} {v w : Json} (hv : Written v) (hw : Written w) :
    Equal v w ↔ dumps style v.sortKeys = dumps style w.sortKeys := by
  rw [equal_iff_same hv hw]
  constructor
  · intro h
    exact congrArg (dumps style) h
  · intro h
    exact dumps_injective hv.sortKeys hw.sortKeys h

/-! ## Repeated keys

An object is read field by field into a dictionary, so that of a repeated key the last value stays.
-/

/-- A key that is not there sets nothing. -/
theorem map_set_of_not_mem {fs : List (PyStr × Json)} {f : PyStr × Json}
    (h : f.1 ∉ fs.map Prod.fst) : (fs.map fun g => if g.1 = f.1 then f else g) = fs := by
  have hid : ∀ g ∈ fs, (if g.1 = f.1 then f else g) = id g := by
    intro g hg
    rw [if_neg]
    · rfl
    · intro heq
      exact h (heq ▸ List.mem_map_of_mem hg)
  rw [List.map_congr_left hid, List.map_id]

/-- Setting a field is setting a key of a dictionary. -/
theorem setField_eq_dictSet {fs : List (PyStr × Json)} (hfs : (fs.map Prod.fst).Nodup)
    (f : PyStr × Json) : setField fs f = dictSet f.1 f.2 fs := by
  induction fs with
  | nil => rfl
  | cons g fs ih =>
    obtain ⟨hg, hrest⟩ := List.nodup_cons.mp hfs
    by_cases heq : g.1 = f.1
    · rw [heq] at hg
      simp [setField, dictSet, heq, map_set_of_not_mem hg]
    · have hset : setField (g :: fs) f = g :: setField fs f := by
        by_cases hmem : fs.any (fun g => g.1 = f.1)
        · simp [setField, heq, hmem]
        · simp [setField, heq, hmem]
      rw [hset, ih hrest, dictSet, if_neg heq]

/-- The fields of an object that is read, one set after the other. -/
theorem foldl_setField_eq_dictOf (fs : List (PyStr × Json)) :
    fs.foldl setField [] = dictOf fs := by
  induction fs using List.reverseRecOn with
  | nil => rfl
  | append_singleton fs f ih =>
    rw [List.foldl_append, ih, dictOf_append_singleton]
    exact setField_eq_dictSet (nodup_keys_dictOf fs) f

/-- **The last of a repeated key wins.** -/
theorem value_obj {n d : Nat} {cs rest : List Char} {fs : List (PyStr × Json)}
    (hopen : (skipBlank cs).head? ≠ some '}') (h : fields n d (skipBlank cs) = .ok (fs, rest)) :
    ∃ gs, value (n + 1) (d + 1) ('{' :: cs) = .ok (obj gs, rest) ∧ (gs.map Prod.fst).Nodup ∧
      ∀ f, f ∈ gs ↔ IsLast fs f := by
  refine ⟨dictOf fs, ?_, nodup_keys_dictOf fs, fun f => mem_dictOf⟩
  rw [value, if_neg (by decide), if_neg (by decide), if_pos rfl, enter, ok_bind, if_neg hopen, h,
    ok_bind, ← foldl_setField_eq_dictOf]
  rfl

end Json

end Rave
