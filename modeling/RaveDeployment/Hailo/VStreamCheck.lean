import RaveDeployment.Lib.Checks
import RaveDeployment.Lib.Dict
import Mathlib.Data.List.Perm.Subperm
import Mathlib.Data.List.Nodup
import Mathlib.Tactic.Common

/-!
# The VStream check

`check_properties` and `check_names_and_properties` of `scripts/rave_hef_abi_check.cpp`. The type
`F` of the quantization fields has the `==` of `float`, of which no law is assumed: a NaN differs
from itself.

The loop looks only for names that should not be there. That none is missing follows from the
count (`perm_of_expected_names`).
-/

namespace Rave

/-! ## Distinct members

The expected contracts are a dictionary: a list of entries whose names differ. -/

/-- Distinct members of a list, as many as it has, are the list up to order. -/
theorem perm_of_nodup_of_length {α : Type} {l m : List α} (hnodup : l.Nodup)
    (hsubset : ∀ a ∈ l, a ∈ m) (hlength : l.length = m.length) : l.Perm m :=
  (List.subperm_of_subset hnodup hsubset).perm_of_length_le (Nat.le_of_eq hlength.symm)

namespace Hailo

/-- `hailo_3d_image_shape_t`. -/
structure Shape where
  height : UInt32
  width : UInt32
  features : UInt32

/-- `hailo_quant_info_t`. -/
structure QuantInfo (F : Type) where
  qpZp : F
  qpScale : F
  limvalsMin : F
  limvalsMax : F

/-- `Contract`. The format's type and order are the codes of their enumerations. -/
structure Contract (F : Type) where
  shape : Shape
  type : UInt32
  order : UInt32
  quant : QuantInfo F

/-- `hailo_vstream_info_t`, as far as the check reads it. The name is the text before the
terminating NUL. -/
structure VStreamInfo (F : Type) where
  name : String
  shape : Shape
  formatType : UInt32
  formatOrder : UInt32
  quantInfo : QuantInfo F

/-- `std::map<std::string, Contract>`: no two entries of one name. -/
structure Contracts (F : Type) where
  entries : List (String × Contract F)
  nodup : (entries.map Prod.fst).Nodup

variable {F : Type}

namespace Contracts

def names (expected : Contracts F) : List String := expected.entries.map Prod.fst

def size (expected : Contracts F) : Nat := expected.entries.length

def find (expected : Contracts F) (name : String) : Option (Contract F) :=
  expected.entries.lookup name

theorem find_eq_some_iff {expected : Contracts F} {name : String} {contract : Contract F} :
    expected.find name = some contract ↔ (name, contract) ∈ expected.entries :=
  lookup_eq_some_iff_mem expected.nodup

/-- A name is expected where there is a contract for it. -/
theorem mem_names_iff {expected : Contracts F} {name : String} :
    name ∈ expected.names ↔ ∃ contract, (name, contract) ∈ expected.entries := by
  simp [names]

end Contracts

variable [BEq F]

/-- `require_equal`, at any type with a `==`. -/
def requireEqual {T : Type} [BEq T] (actual expected : T) (field : String) : Except String Unit :=
  if actual != expected then .error (field ++ " mismatch") else .ok ()

def checkProperties (info : VStreamInfo F) (expected : Contract F) : Except String Unit := do
  requireEqual info.shape.height expected.shape.height (info.name ++ " height")
  requireEqual info.shape.width expected.shape.width (info.name ++ " width")
  requireEqual info.shape.features expected.shape.features (info.name ++ " features")
  requireEqual info.formatType expected.type (info.name ++ " type")
  requireEqual info.formatOrder expected.order (info.name ++ " order")
  requireEqual info.quantInfo.qpZp expected.quant.qpZp (info.name ++ " qp_zp")
  requireEqual info.quantInfo.qpScale expected.quant.qpScale (info.name ++ " qp_scale")
  requireEqual info.quantInfo.limvalsMin expected.quant.limvalsMin (info.name ++ " limvals_min")
  requireEqual info.quantInfo.limvalsMax expected.quant.limvalsMax (info.name ++ " limvals_max")

/-- The loop of `check_names_and_properties`, after the names `seen`. -/
def checkInfos (expected : Contracts F) : List String → List (VStreamInfo F) → Except String Unit
  | _, [] => .ok ()
  | seen, info :: infos =>
    if info.name ∈ seen then .error ("duplicate VStream: " ++ info.name)
    else match expected.find info.name with
      | none => .error ("unexpected VStream: " ++ info.name)
      | some contract => do
        checkProperties info contract
        checkInfos expected (info.name :: seen) infos

def checkNamesAndProperties (infos : List (VStreamInfo F)) (expected : Contracts F)
    (direction : String) : Except String Unit := do
  requireEqual infos.length expected.size (direction ++ " VStream count")
  checkInfos expected [] infos

/-! ## The interface

What the C++ code asks of a virtual stream, and the checks in the order in which they run. -/

/-- The nine fields are equal, by `==`. -/
structure Matches (info : VStreamInfo F) (contract : Contract F) : Prop where
  height : info.shape.height = contract.shape.height
  width : info.shape.width = contract.shape.width
  features : info.shape.features = contract.shape.features
  type : info.formatType = contract.type
  order : info.formatOrder = contract.order
  qpZp : info.quantInfo.qpZp == contract.quant.qpZp
  qpScale : info.quantInfo.qpScale == contract.quant.qpScale
  limvalsMin : info.quantInfo.limvalsMin == contract.quant.limvalsMin
  limvalsMax : info.quantInfo.limvalsMax == contract.quant.limvalsMax

/-- The infos are a permutation of the contract. -/
structure Qualified (infos : List (VStreamInfo F)) (expected : Contracts F) : Prop where
  once : ∀ name ∈ expected.names, (infos.map (·.name)).count name = 1
  known : ∀ info ∈ infos, info.name ∈ expected.names
  equal : ∀ info ∈ infos, ∀ contract, (info.name, contract) ∈ expected.entries →
    Matches info contract

omit [BEq F] in
/-- Equal counts and unique expected names: none is missing. -/
theorem perm_of_expected_names {infos : List (VStreamInfo F)} {expected : Contracts F}
    (hcount : infos.length = expected.size) (hunique : (infos.map (·.name)).Nodup)
    (hexpected : ∀ info ∈ infos, info.name ∈ expected.names) :
    (infos.map (·.name)).Perm expected.names := by
  apply perm_of_nodup_of_length hunique
  · intro name hname
    obtain ⟨info, hinfo, rfl⟩ := List.mem_map.mp hname
    exact hexpected info hinfo
  · simpa [Contracts.names, Contracts.size] using hcount

/-! ## What the check accepts

The loop remembers the names it has seen. It returns where no name comes twice and every stream has
its expected contract, which does not depend on the order of the streams. -/

/-- An equality is required by the comparison of its type. -/
theorem requireEqual_ok {T : Type} [BEq T] {actual expected : T} {field : String} :
    requireEqual actual expected field = .ok () ↔ (actual == expected) = true := by
  cases h : actual == expected <;> simp [requireEqual, bne, h]

/-- The properties pass where each of them matches. -/
theorem checkProperties_ok_iff {info : VStreamInfo F} {contract : Contract F} :
    checkProperties info contract = .ok () ↔ Matches info contract := by
  simp only [checkProperties, bind_unit_eq_ok, requireEqual_ok, beq_iff_eq]
  constructor
  · rintro ⟨h₁, h₂, h₃, h₄, h₅, h₆, h₇, h₈, h₉⟩
    exact ⟨h₁, h₂, h₃, h₄, h₅, h₆, h₇, h₈, h₉⟩
  · intro h
    exact ⟨h.height, h.width, h.features, h.type, h.order, h.qpZp, h.qpScale, h.limvalsMin,
      h.limvalsMax⟩

def Expected (expected : Contracts F) (info : VStreamInfo F) : Prop :=
  ∃ contract, expected.find info.name = some contract ∧ Matches info contract

/-- The loop over the streams, from any set of names that it has seen. -/
theorem checkInfos_ok_iff {expected : Contracts F} {infos : List (VStreamInfo F)}
    {seen : List String} :
    checkInfos expected seen infos = .ok () ↔
      (∀ info ∈ infos, info.name ∉ seen) ∧ (infos.map (·.name)).Nodup ∧
        ∀ info ∈ infos, Expected expected info := by
  induction infos generalizing seen with
  | nil => simp [checkInfos]
  | cons info infos ih =>
    rw [checkInfos]
    by_cases hseen : info.name ∈ seen
    · rw [if_pos hseen]
      constructor
      · intro h
        cases h
      · intro h
        exact absurd hseen (h.1 info List.mem_cons_self)
    · rw [if_neg hseen]
      cases hfind : expected.find info.name with
      | none =>
        constructor
        · intro h
          cases h
        · intro h
          obtain ⟨contract, hcontract, -⟩ := h.2.2 info List.mem_cons_self
          rw [hfind] at hcontract
          cases hcontract
      | some contract =>
        show (checkProperties info contract >>= fun _ =>
          checkInfos expected (info.name :: seen) infos) = .ok () ↔ _
        have hinfo : Expected expected info ↔ Matches info contract := by
          simp [Expected, hfind]
        rw [bind_unit_eq_ok, checkProperties_ok_iff, ih, ← hinfo]
        -- the name joins `seen`: the rest does not have it, and is distinct in itself
        simp only [List.mem_cons, List.map_cons, List.nodup_cons, List.mem_map, not_or,
          forall_eq_or_imp, hseen, not_false_eq_true, true_and, not_exists, not_and]
        constructor
        · intro h
          exact ⟨fun i hi => (h.2.1 i hi).2, ⟨fun i hi => (h.2.1 i hi).1, h.2.2.1⟩, h.1, h.2.2.2⟩
        · intro h
          exact ⟨h.2.2.1, fun i hi => ⟨h.2.1.1 i hi, h.1 i hi⟩, h.2.1.2, h.2.2.2⟩

/-- The check passes where the streams are as many as the contracts, their names differ, and each
has its contract. -/
theorem checkNamesAndProperties_ok_iff {infos : List (VStreamInfo F)} {expected : Contracts F}
    {direction : String} :
    checkNamesAndProperties infos expected direction = .ok () ↔
      infos.length = expected.size ∧ (infos.map (·.name)).Nodup ∧
        ∀ info ∈ infos, Expected expected info := by
  rw [checkNamesAndProperties, bind_unit_eq_ok, requireEqual_ok, checkInfos_ok_iff, beq_iff_eq]
  simp

theorem qualified_iff {infos : List (VStreamInfo F)} {expected : Contracts F} :
    Qualified infos expected ↔
      infos.length = expected.size ∧ (infos.map (·.name)).Nodup ∧
        ∀ info ∈ infos, Expected expected info := by
  constructor
  · intro h
    -- each expected name once and no other name: the names are those expected
    have hperm : (infos.map (·.name)).Perm expected.names := by
      rw [List.perm_iff_count]
      intro name
      by_cases hname : name ∈ expected.names
      · have hone : expected.names.count name = 1 :=
          List.count_eq_one_of_mem expected.nodup hname
        rw [h.once name hname, hone]
      · rw [List.count_eq_zero_of_not_mem hname, List.count_eq_zero]
        intro hmem
        obtain ⟨info, hinfo, rfl⟩ := List.mem_map.mp hmem
        exact hname (h.known info hinfo)
    refine ⟨?_, hperm.nodup_iff.mpr expected.nodup, fun info hinfo => ?_⟩
    · simpa [Contracts.names, Contracts.size] using hperm.length_eq
    · obtain ⟨contract, hcontract⟩ := Contracts.mem_names_iff.mp (h.known info hinfo)
      exact ⟨contract, Contracts.find_eq_some_iff.mpr hcontract, h.equal info hinfo _ hcontract⟩
  · intro h
    obtain ⟨hcount, hunique, hexpected⟩ := h
    have hknown : ∀ info ∈ infos, info.name ∈ expected.names := by
      intro info hinfo
      obtain ⟨contract, hfind, -⟩ := hexpected info hinfo
      exact Contracts.mem_names_iff.mpr ⟨contract, Contracts.find_eq_some_iff.mp hfind⟩
    -- as many streams as expected, no name twice and no name unknown
    have hperm := perm_of_expected_names hcount hunique hknown
    refine ⟨fun name hname => ?_, hknown, fun info hinfo contract hcontract => ?_⟩
    · exact List.count_eq_one_of_mem hunique (hperm.mem_iff.mpr hname)
    · obtain ⟨found, hfind, hmatches⟩ := hexpected info hinfo
      rw [Contracts.find_eq_some_iff.mpr hcontract, Option.some.injEq] at hfind
      rw [hfind]
      exact hmatches

/-- The order in which the streams are reported does not matter. -/
theorem Qualified.perm {infos reported : List (VStreamInfo F)} {expected : Contracts F}
    (hperm : infos.Perm reported) (h : Qualified infos expected) :
    Qualified reported expected := by
  refine ⟨fun name hname => ?_, fun info hinfo => h.known info (hperm.mem_iff.mpr hinfo),
    fun info hinfo => h.equal info (hperm.mem_iff.mpr hinfo)⟩
  rw [← (hperm.map _).count_eq]
  exact h.once name hname

/-- The check accepts the qualified interface and nothing else, in any reporting order, and its
count and its unique expected names leave no contract name out. -/
theorem checkNamesAndProperties_iff (expected : Contracts F) (infos : List (VStreamInfo F))
    (direction : String) :
    (checkNamesAndProperties infos expected direction = .ok () ↔ Qualified infos expected) ∧
    (∀ reported : List (VStreamInfo F), infos.Perm reported →
      (checkNamesAndProperties reported expected direction = .ok () ↔
        checkNamesAndProperties infos expected direction = .ok ())) ∧
    (infos.length = expected.size → (infos.map (·.name)).Nodup →
      (∀ info ∈ infos, info.name ∈ expected.names) →
        ∀ name ∈ expected.names, ∃ info ∈ infos, info.name = name) := by
  have hiff : ∀ vector : List (VStreamInfo F),
      checkNamesAndProperties vector expected direction = .ok () ↔ Qualified vector expected :=
    fun _ => checkNamesAndProperties_ok_iff.trans qualified_iff.symm
  refine ⟨hiff infos, fun reported hperm => ?_, fun hcount hunique hexpected name hname => ?_⟩
  · rw [hiff, hiff]
    exact ⟨Qualified.perm hperm.symm, Qualified.perm hperm⟩
  · have hperm := perm_of_expected_names hcount hunique hexpected
    exact List.mem_map.mp (hperm.mem_iff.mpr hname)

end Hailo

end Rave
