import Mathlib.Data.List.Nodup
import Mathlib.Logic.Function.Basic
import RaveDeployment.Network.Backend

/-!
# NetworkManager's profiles

The profiles `nmcli connection` works on, as a finite map from UUIDs: a list of entries with
distinct keys, in the order a Python `dict` keeps them. Everything the later modules say about a
store is said about `get`; the operations are the updates of that function, and `Holds` says which
UUIDs carry a name.

`profileMatches_listing` ties the store to the code: the listing, parsed line by line as
`_profile_uuid` does, gives the UUIDs that carry the name.
-/

namespace Rave

open Py

/-- What is looked at of a profile: its name, whether it is brought up by itself, and its SSID. -/
structure Profile where
  id : ProfileName
  autoconnect : Bool
  ssid : String
  deriving DecidableEq

/-- The profile after `connection modify ... connection.id name connection.autoconnect no`. -/
def Profile.rename (p : Profile) (name : ProfileName) : Profile :=
  { p with id := name, autoconnect := false }

/-- The profiles, each under its own UUID. -/
structure ProfileStore where
  entries : List (Uuid × Profile)
  nodup : (entries.map Prod.fst).Nodup

def Holds (g : Uuid → Option Profile) (name : ProfileName) (u : Uuid) : Prop :=
  ∃ p, g u = some p ∧ p.id = name

namespace ProfileStore

variable (s : ProfileStore)

def get (u : Uuid) : Option Profile :=
  (s.entries.find? fun e => e.1 = u).map Prod.snd

/-- A new profile, or another one under the same UUID. -/
def insert (u : Uuid) (p : Profile) : ProfileStore where
  entries := s.entries.filter (fun e => e.1 ≠ u) ++ [(u, p)]
  nodup := by
    rw [List.map_append]
    refine List.nodup_append.mpr ⟨s.nodup.sublist (List.filter_sublist.map _), by simp, ?_⟩
    intro v hv w hw hvw
    obtain ⟨e, he, rfl⟩ := List.mem_map.mp hv
    have hne : e.1 ≠ u := by simpa using (List.mem_filter.mp he).2
    have hwu : w = u := by simpa using hw
    exact hne (hvw.trans hwu)

def modify (u : Uuid) (f : Profile → Profile) : ProfileStore where
  entries := s.entries.map fun e => if e.1 = u then (e.1, f e.2) else e
  nodup := by
    have hkeys : (s.entries.map fun e => if e.1 = u then (e.1, f e.2) else e).map Prod.fst =
        s.entries.map Prod.fst := by
      rw [List.map_map]
      refine List.map_congr_left fun e _ => ?_
      by_cases h : e.1 = u <;> simp [h]
    rw [hkeys]
    exact s.nodup

def filter (keep : Uuid → Profile → Bool) : ProfileStore where
  entries := s.entries.filter fun e => keep e.1 e.2
  nodup := s.nodup.sublist (List.filter_sublist.map _)

def erase (u : Uuid) : ProfileStore :=
  s.filter fun v _ => v ≠ u

def eraseNamed (name : ProfileName) : ProfileStore :=
  s.filter fun _ p => p.id ≠ name

def named (name : ProfileName) : List Uuid :=
  (s.entries.filter fun e => e.2.id = name).map Prod.fst

/-- What `connection show` prints with the fields `UUID,NAME`. -/
def listing : String :=
  String.ofList (s.entries.flatMap fun e => e.1.chars ++ ':' :: e.2.id.text.toList ++ ['\n'])

/-! ## What the operations do to `get`

The store is seen through `get`; the order of its entries matters for the listing only. -/

variable {s} {u v : Uuid} {p : Profile} {name : ProfileName}

/-- A profile that is found is one of the entries. -/
theorem get_eq_some : s.get u = some p ↔ (u, p) ∈ s.entries := by
  unfold get
  rw [Option.map_eq_some_iff]
  constructor
  · rintro ⟨⟨v, q⟩, hfind, rfl⟩
    obtain rfl : v = u := by simpa using List.find?_some hfind
    exact List.mem_of_find?_eq_some hfind
  · intro hmem
    have hsome : (s.entries.find? fun e => e.1 = u).isSome = true := by
      rw [List.find?_isSome]
      exact ⟨(u, p), hmem, by simp⟩
    obtain ⟨⟨v, q⟩, hfind⟩ := Option.isSome_iff_exists.mp hsome
    obtain rfl : v = u := by simpa using List.find?_some hfind
    -- keys are distinct, so it is the same entry
    have heq := List.inj_on_of_nodup_map s.nodup (List.mem_of_find?_eq_some hfind) hmem rfl
    exact ⟨(v, q), hfind, (Prod.mk.inj heq).2⟩

@[simp] theorem get_insert : (s.insert u p).get = Function.update s.get u (some p) := by
  funext v
  refine Option.ext fun q => ?_
  rw [get_eq_some, insert, List.mem_append, List.mem_filter, ← get_eq_some]
  by_cases h : v = u
  · subst h
    simp [eq_comm]
  · simp [h]

@[simp] theorem get_modify (f : Profile → Profile) :
    (s.modify u f).get = Function.update s.get u ((s.get u).map f) := by
  funext v
  refine Option.ext fun q => ?_
  rw [get_eq_some, modify, List.mem_map]
  by_cases h : v = u
  · subst h
    rw [Function.update_self, Option.map_eq_some_iff]
    constructor
    · rintro ⟨⟨w, r⟩, hmem, he⟩
      by_cases hw : w = v
      · simp only [hw, if_true, Prod.mk.injEq, true_and] at he
        exact ⟨r, get_eq_some.mpr (hw ▸ hmem), he⟩
      · simp only [if_neg hw] at he
        exact absurd (Prod.mk.inj he).1 hw
    · rintro ⟨r, hr, rfl⟩
      exact ⟨(v, r), get_eq_some.mp hr, by simp⟩
  · rw [Function.update_of_ne h, get_eq_some]
    constructor
    · rintro ⟨⟨w, r⟩, hmem, he⟩
      by_cases hw : w = u
      · simp only [hw, if_true] at he
        exact absurd (Prod.mk.inj he).1.symm h
      · simp only [if_neg hw] at he
        exact he ▸ hmem
    · exact fun hmem => ⟨(v, q), hmem, by simp [h]⟩

theorem get_filter {keep : Uuid → Profile → Bool} :
    (s.filter keep).get u = (s.get u).filter (keep u) := by
  refine Option.ext fun q => ?_
  rw [get_eq_some, filter, List.mem_filter, ← get_eq_some, Option.filter_eq_some_iff]

@[simp] theorem get_erase : (s.erase u).get = Function.update s.get u none := by
  funext v
  rw [erase, get_filter]
  by_cases h : v = u
  · subst h
    cases s.get v <;> simp
  · rw [Function.update_of_ne h]
    cases s.get v <;> simp [h]

@[simp] theorem get_eraseNamed :
    (s.eraseNamed name).get = fun v => (s.get v).filter fun p => p.id ≠ name := by
  funext v
  rw [eraseNamed, get_filter]

/-! ## The UUIDs of a name

More than one profile may carry a name. -/

theorem nodup_named : (s.named name).Nodup :=
  s.nodup.sublist (List.filter_sublist.map _)

theorem mem_named : u ∈ s.named name ↔ Holds s.get name u := by
  simp only [named, List.mem_map, List.mem_filter, decide_eq_true_eq, Holds, get_eq_some]
  constructor
  · rintro ⟨⟨v, q⟩, ⟨hmem, hq⟩, rfl⟩
    exact ⟨q, hmem, hq⟩
  · rintro ⟨q, hmem, hq⟩
    exact ⟨(u, q), ⟨hmem, hq⟩, rfl⟩

theorem named_eq_nil : s.named name = [] ↔ ∀ v, ¬Holds s.get name v := by
  simp only [List.eq_nil_iff_forall_not_mem, mem_named]

/-- One profile carries the name. -/
theorem named_eq_singleton : s.named name = [u] ↔ ∀ v, Holds s.get name v ↔ v = u := by
  constructor
  · intro h v
    rw [← mem_named, h, List.mem_singleton]
  · intro h
    refine List.perm_singleton.mp ((List.perm_ext_iff_of_nodup nodup_named (by simp)).mpr ?_)
    intro v
    rw [mem_named, h, List.mem_singleton]

/-! ## The listing

What `nmcli` prints of the store is parsed into its UUIDs and names. -/

/-- One line of the listing, parsed. -/
theorem profileMatches_cons (lines : List String) :
    Backend.profileMatches name (String.ofList (u.chars ++ ':' :: p.id.text.toList) :: lines) =
      if p.id = name then (Backend.profileMatches name lines).map (u :: ·)
      else Backend.profileMatches name lines := by
  have hcolon : ':' ∉ u.chars := Uuid.not_mem_chars (by decide) (by decide)
  have hname : String.ofList p.id.text.toList = name.text ↔ p.id = name := by
    rw [String.ofList_toList]
    exact ⟨ProfileName.ext, congrArg ProfileName.text⟩
  simp only [Backend.profileMatches, String.toList_ofList, partitionAt_append ':' _ _ hcolon,
    Uuid.ofChars?_chars, Bool.true_eq_false, false_or, ne_eq, hname, ite_not]

/-- **The listing, parsed as `_profile_uuid` does, gives the UUIDs that carry the name.** -/
theorem profileMatches_listing (s : ProfileStore) (name : ProfileName) :
    Backend.profileMatches name (splitlines s.listing) = some (s.named name) := by
  -- a listing has one line for each profile, as no UUID and no name breaks a line
  have hlines : splitLines s.listing.toList =
      s.entries.map fun e => e.1.chars ++ ':' :: e.2.id.text.toList := by
    rw [listing, String.toList_ofList]
    have hflat : (s.entries.flatMap fun e => e.1.chars ++ ':' :: e.2.id.text.toList ++ ['\n']) =
        (s.entries.map fun e => e.1.chars ++ ':' :: e.2.id.text.toList).flatMap
          fun l => l ++ ['\n'] := by
      rw [List.flatMap_map]
    rw [hflat]
    refine splitLines_flatMap _ fun l hl c hc => ?_
    obtain ⟨e, -, rfl⟩ := List.mem_map.mp hl
    rcases List.mem_append.mp hc with hc | hc
    · exact Uuid.isLineBreak_of_mem_chars hc
    · rcases List.mem_cons.mp hc with rfl | hc
      · decide
      · exact e.2.id.single_line c hc
  rw [splitlines, hlines, named]
  induction s.entries with
  | nil => rfl
  | cons e entries ih =>
    rw [List.map_cons, List.map_cons, profileMatches_cons, List.filter_cons, ih]
    by_cases h : e.2.id = name <;> simp [h]

end ProfileStore

end Rave
