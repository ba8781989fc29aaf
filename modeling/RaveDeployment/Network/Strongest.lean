import RaveDeployment.Lib.BestPerKey
import RaveDeployment.Network.Backend
import Mathlib.Data.List.Sort
import Mathlib.Data.String.Basic

/-!
# The networks a scan returns

`scan_strongest`: the entries are the strongest of their SSIDs, in the order of the sort key, and
what the limit leaves out is no stronger than what is returned. Where the order of the SSIDs is
decided by what the sort compares, the order of the printed lines makes no difference.
-/

namespace Rave

open Prog Py BestPerKey

/-- Every command succeeds, and the listing of the networks is the state. -/
def listing : Env RunnerCall RunnerAnswer String :=
  Env.sequential (fun _ _ => True) fun o stdout r t =>
    t = stdout ∧ ∃ result, r = .ok result ∧ result.returncode = 0 ∧
      (o = .run .wifiList → result.stdout = stdout)

section

variable [PyUnicode]

/-- What a scan returns for the access points it has read. -/
structure Strongest (read best : List AccessPoint) : Prop where
  nodup : (best.map AccessPoint.ssid).Nodup
  first : ∀ a ∈ best, FirstBest AccessPoint.ssid AccessPoint.signalPercent read a
  ordered : best.Pairwise fun a b => b.signalPercent < a.signalPercent ∨
    (a.signalPercent = b.signalPercent ∧ PyUnicode.casefold a.ssid ≤ PyUnicode.casefold b.ssid)
  length : best.length = min MAX_NETWORKS (read.map AccessPoint.ssid).dedup.length
  leftOut : ∀ b ∈ read, b.ssid ∉ best.map AccessPoint.ssid →
    ∀ a ∈ best, b.signalPercent ≤ a.signalPercent

omit [PyUnicode] in
def Peak (read : List AccessPoint) (a : AccessPoint) : Prop :=
  a ∈ read ∧ ∀ c ∈ read, c.ssid = a.ssid → c.signalPercent ≤ a.signalPercent

/-- No two SSIDs agree in the greatest signal and the case-folded form. -/
def Untied (read : List AccessPoint) : Prop :=
  ∀ a b, Peak read a → Peak read b → a.signalPercent = b.signalPercent →
    PyUnicode.casefold a.ssid = PyUnicode.casefold b.ssid → a.ssid = b.ssid

/-! ## The loop and the sort

The loop of `scan` is the best entry for each SSID, and the sort is stable. -/

omit [PyUnicode] in
/-- The loop's step is that of the best entry for each key. -/
theorem keepStrongest_eq :
    keepStrongest = keepBest AccessPoint.ssid AccessPoint.signalPercent := rfl

omit [PyUnicode] in
/-- The dictionary after the loop. -/
theorem kept_keepStrongest (read : List AccessPoint) :
    Kept AccessPoint.ssid AccessPoint.signalPercent read (read.foldl keepStrongest []) := by
  rw [keepStrongest_eq]
  exact kept_foldl read

/-- The order of the result: strong networks first, and equally strong ones by their names. -/
theorem scanOrder_iff {a b : AccessPoint} : scanOrder a b = true ↔
    b.signalPercent < a.signalPercent ∨ (a.signalPercent = b.signalPercent ∧
      PyUnicode.casefold a.ssid ≤ PyUnicode.casefold b.ssid) :=
  decide_eq_true_iff

instance : IsTrans AccessPoint fun a b => scanOrder a b = true where
  trans a b c hab hbc := by
    rw [scanOrder_iff] at hab hbc ⊢
    rcases hab with hab | ⟨hab, hfold⟩
    · rcases hbc with hbc | ⟨hbc, -⟩
      · exact Or.inl (by omega)
      · exact Or.inl (by omega)
    · rcases hbc with hbc | ⟨hbc, hfold'⟩
      · exact Or.inl (by omega)
      · exact Or.inr ⟨by omega, le_trans hfold hfold'⟩

instance : Std.Total fun a b : AccessPoint => scanOrder a b = true where
  total a b := by
    rw [scanOrder_iff, scanOrder_iff]
    rcases lt_trichotomy a.signalPercent b.signalPercent with hlt | heq | hlt
    · exact Or.inr (Or.inl hlt)
    · rcases le_total (PyUnicode.casefold a.ssid) (PyUnicode.casefold b.ssid) with hle | hle
      · exact Or.inl (Or.inr ⟨heq, hle⟩)
      · exact Or.inr (Or.inr ⟨heq.symm, hle⟩)
    · exact Or.inl (Or.inl hlt)

def sortedStrongest (read : List AccessPoint) : List AccessPoint :=
  (read.foldl keepStrongest []).insertionSort fun a b => scanOrder a b

theorem pairwise_sortedStrongest (read : List AccessPoint) :
    (sortedStrongest read).Pairwise fun a b => scanOrder a b = true :=
  List.pairwise_insertionSort (fun a b => scanOrder a b = true) _

theorem perm_sortedStrongest (read : List AccessPoint) :
    (sortedStrongest read).Perm (read.foldl keepStrongest []) :=
  List.perm_insertionSort _ _

/-- The result is the beginning of the sorted list. -/
theorem scanResult_eq (stdout : String) :
    scanResult stdout = (sortedStrongest (parsedAccessPoints stdout)).take MAX_NETWORKS := rfl

/-- Sorting keeps what was kept. -/
theorem kept_sortedStrongest (read : List AccessPoint) :
    Kept AccessPoint.ssid AccessPoint.signalPercent read (sortedStrongest read) := by
  have hkept := kept_keepStrongest read
  have hperm := perm_sortedStrongest read
  refine ⟨?_, ?_, ?_⟩
  · exact (hperm.map AccessPoint.ssid).nodup_iff.mpr hkept.nodup
  · intro a ha
    exact hkept.first a (hperm.mem_iff.mp ha)
  · intro b hb
    obtain ⟨a, ha, hssid⟩ := hkept.covers b hb
    exact ⟨a, hperm.mem_iff.mpr ha, hssid⟩

/-! ## The limit

What is cut off is no stronger than what is returned. -/

/-- The beginning of the sorted list is a strongest selection. -/
theorem strongest_take (read : List AccessPoint) :
    Strongest read ((sortedStrongest read).take MAX_NETWORKS) := by
  have hkept := kept_sortedStrongest read
  have hsorted := pairwise_sortedStrongest read
  refine ⟨?_, ?_, ?_, ?_, ?_⟩
  · rw [List.map_take]
    exact hkept.nodup.sublist (List.take_sublist _ _)
  · intro a ha
    exact hkept.first a (List.mem_of_mem_take ha)
  · apply (hsorted.sublist (List.take_sublist _ _)).imp
    intro a b hab
    exact scanOrder_iff.mp hab
  · rw [List.length_take, hkept.length_eq]
  · intro b hb hout a ha
    -- the entry of that SSID is behind the limit, and the list is sorted
    obtain ⟨c, hc, hssid⟩ := hkept.covers b hb
    have hbc : b.signalPercent ≤ c.signalPercent := (hkept.first c hc).le hb hssid.symm
    rw [← List.take_append_drop MAX_NETWORKS (sortedStrongest read)] at hc hsorted
    have hdrop : c ∈ (sortedStrongest read).drop MAX_NETWORKS := by
      rcases List.mem_append.mp hc with hc | hc
      · exact absurd (List.mem_map.mpr ⟨c, hc, hssid⟩) hout
      · exact hc
    have hac := (List.pairwise_append.mp hsorted).2.2 a ha c hdrop
    rcases scanOrder_iff.mp hac with hlt | ⟨heq, -⟩
    · omega
    · omega

/-! ## The order of the lines

Which rows are returned depends on the order of the lines only through ties. -/

def AccessPoint.pair (a : AccessPoint) : String × Int :=
  (a.ssid, a.signalPercent)

omit [PyUnicode] in
/-- A row that is kept is a strongest one of its SSID. -/
theorem peak_of_firstBest {read : List AccessPoint} {a : AccessPoint}
    (h : FirstBest AccessPoint.ssid AccessPoint.signalPercent read a) : Peak read a :=
  ⟨h.mem, fun _ hc hssid => h.le hc hssid⟩

/-- Without ties, the order of the lines does not matter. -/
theorem sortedStrongest_perm {read read' : List AccessPoint} (hperm : read.Perm read')
    (huntied : Untied read) :
    (sortedStrongest read).map AccessPoint.pair = (sortedStrongest read').map AccessPoint.pair := by
  have hkept := kept_sortedStrongest read
  have hpairs : ((sortedStrongest read).map AccessPoint.pair).Perm
      ((sortedStrongest read').map AccessPoint.pair) :=
    hkept.perm_map (kept_sortedStrongest read') hperm
  -- the sort compares no more than the pairs
  let r : String × Int → String × Int → Prop := fun p q => q.2 < p.2 ∨
    (p.2 = q.2 ∧ PyUnicode.casefold p.1 ≤ PyUnicode.casefold q.1)
  have hordered : ∀ l : List AccessPoint,
      ((sortedStrongest l).map AccessPoint.pair).Pairwise r := by
    intro l
    apply List.pairwise_map.mpr
    apply (pairwise_sortedStrongest l).imp
    intro a b hab
    exact scanOrder_iff.mp hab
  apply hpairs.eq_of_pairwise ?_ (hordered read) (hordered read')
  intro p q hp hq hpq hqp
  obtain ⟨a, ha, rfl⟩ := List.mem_map.mp hp
  obtain ⟨b, hb, rfl⟩ := List.mem_map.mp (hpairs.mem_iff.mpr hq)
  have hsignal : a.signalPercent = b.signalPercent := by
    rcases hpq with hlt | ⟨heq, -⟩
    · rcases hqp with hlt' | ⟨heq', -⟩
      · exact absurd hlt (lt_asymm hlt')
      · exact heq'.symm
    · exact heq
  have hfold : PyUnicode.casefold a.ssid = PyUnicode.casefold b.ssid := by
    have hle := (hpq.resolve_left (by show ¬b.signalPercent < a.signalPercent; omega)).2
    have hge := (hqp.resolve_left (by show ¬a.signalPercent < b.signalPercent; omega)).2
    exact le_antisymm hle hge
  have hssid := huntied a b (peak_of_firstBest (hkept.first a ha))
    (peak_of_firstBest (hkept.first b hb)) hsignal hfold
  show (a.ssid, a.signalPercent) = (b.ssid, b.signalPercent)
  rw [hssid, hsignal]

/-! ## The method

`scan` over the command that lists the networks. -/

/-- `scan` returns the result for the output it is given. -/
theorem wp_scan_listing (stdout : String) :
    Backend.scan.wp listing (fun best _ => best = scanResult stdout) (fun _ _ => False) stdout := by
  unfold Backend.scan
  intro t ht
  obtain rfl : stdout = t := ht
  refine ⟨trivial, ?_⟩
  intro r t hexec
  obtain ⟨ht, result, rfl, hcode, -⟩ := hexec
  obtain rfl : stdout = t := ht.symm
  -- the rescan returned zero, and so did the listing
  show (Prog.bind (.ret (result.returncode == 0)) _).wp _ _ _ _
  rw [hcode]
  intro t ht
  obtain rfl : stdout = t := ht
  refine ⟨trivial, ?_⟩
  intro r t hexec
  obtain ⟨ht, result, rfl, hcode, hstdout⟩ := hexec
  obtain rfl : stdout = t := ht.symm
  show (if result.returncode ≠ 0 then _ else (.ret (scanResult result.stdout) : Backend _)).wp
    listing _ _ stdout
  rw [if_neg (not_not.mpr hcode), hstdout rfl]
  intro t _
  rfl

theorem scan_runs {stdout t : String} {out : Except PyErr (List AccessPoint)}
    (h : Backend.scan.Runs listing stdout out t) : out = .ok (scanResult stdout) := by
  have hwp := wp_runs (wp_scan_listing stdout) h
  cases out with
  | ok best => rw [hwp.1 best rfl]
  | error e => exact (hwp.2 e rfl).elim

/-- **What a scan returns.** -/
theorem scan_strongest {stdout t : String} {out : Except PyErr (List AccessPoint)}
    (h : Backend.scan.Runs listing stdout out t) :
    ∃ best, out = .ok best ∧ Strongest (parsedAccessPoints stdout) best ∧
      (Untied (parsedAccessPoints stdout) →
        ∀ {stdout' t' : String} {out' : Except PyErr (List AccessPoint)},
          Backend.scan.Runs listing stdout' out' t' → (splitlines stdout).Perm (splitlines stdout') →
          ∃ best', out' = .ok best' ∧
            best.map (fun a => (a.ssid, a.signalPercent))
              = best'.map fun a => (a.ssid, a.signalPercent)) := by
  refine ⟨scanResult stdout, scan_runs h, strongest_take _, ?_⟩
  intro huntied stdout' t' out' h' hperm
  refine ⟨scanResult stdout', scan_runs h', ?_⟩
  have hread : (parsedAccessPoints stdout).Perm (parsedAccessPoints stdout') :=
    hperm.filterMap parseAccessPoint
  show (scanResult stdout).map AccessPoint.pair = (scanResult stdout').map AccessPoint.pair
  rw [scanResult_eq, scanResult_eq, List.map_take, List.map_take,
    sortedStrongest_perm hread huntied]

/-- The listing of an environment, and nothing from the other commands. -/
def listed (_ : Unit) (o : RunnerCall) (stdout : String) : RunnerAnswer o × String :=
  (.ok ⟨0, if o = .run .wifiList then stdout else ""⟩, stdout)

theorem runs_listed (stdout : String) :
    Backend.scan.Runs listing stdout (.ok (scanResult stdout)) stdout := by
  have hexec : ∀ c o s, listing.exec o s (listed c o s).1 (listed c o s).2 := by
    intro c o s
    refine ⟨rfl, _, rfl, rfl, ?_⟩
    intro ho
    exact if_pos ho
  have hreturned : (follow listed [(), ()] Backend.scan stdout).1.returned
      = some (scanResult stdout) := rfl
  exact runs_follow hexec hreturned

end

def homeNetworks : String := "b:9::\na:50::*\nb:30::"
def homeNetworksTurned : String := "b:30::\nb:9::\na:50::*"

theorem scan_strongest_homeNetworks : ∃ best best',
    @Strongest asciiUnicode (@parsedAccessPoints asciiUnicode homeNetworks) best ∧
      (@Backend.scan asciiUnicode).Runs listing homeNetworksTurned (.ok best') homeNetworksTurned ∧
      best.map (fun a => (a.ssid, a.signalPercent))
        = best'.map fun a => (a.ssid, a.signalPercent) := by
  let _ : PyUnicode := asciiUnicode
  obtain ⟨best, -, hbest, hturned⟩ := scan_strongest (runs_listed homeNetworks)
  have huntied : Untied (parsedAccessPoints homeNetworks) := by
    intro a b ha hb _ hfold
    have hread : ∀ a ∈ parsedAccessPoints homeNetworks, ∀ b ∈ parsedAccessPoints homeNetworks,
        PyUnicode.casefold a.ssid = PyUnicode.casefold b.ssid → a.ssid = b.ssid := by
      decide +kernel
    exact hread a ha.1 b hb.1 hfold
  obtain ⟨best', hout, hsame⟩ :=
    hturned huntied (runs_listed homeNetworksTurned) (by decide)
  exact ⟨best, best', hbest, hout ▸ runs_listed homeNetworksTurned, hsame⟩

/-! ## The network in use

The mark is taken from the row that is kept, which need not be the one in use. -/

/-- The entry is marked as connected exactly where a row of its SSID is. -/
def MarkKept (read : List AccessPoint) (a : AccessPoint) : Prop :=
  a.connected = true ↔ ∃ b ∈ read, b.ssid = a.ssid ∧ b.connected = true

/-- No row of the SSID is in use, or the first of the strongest ones is. -/
def InUseLeads (read : List AccessPoint) (ssid : String) : Prop :=
  (∀ b ∈ read, b.ssid = ssid → b.connected = false) ∨
    ∃ c, FirstBest AccessPoint.ssid AccessPoint.signalPercent read c ∧ c.ssid = ssid ∧
      c.connected = true

/-- The mark is kept when the row in use is the first strongest one of its network. -/
theorem markKept_iff {read : List AccessPoint} {a : AccessPoint}
    (ha : FirstBest AccessPoint.ssid AccessPoint.signalPercent read a) :
    MarkKept read a ↔ InUseLeads read a.ssid := by
  constructor
  · intro h
    -- the mark is kept, so it is the survivor's if any row had it
    by_cases hused : ∃ b ∈ read, b.ssid = a.ssid ∧ b.connected = true
    · exact Or.inr ⟨a, ha, rfl, h.mpr hused⟩
    · refine Or.inl ?_
      intro b hb hssid
      by_contra hconnected
      exact hused ⟨b, hb, hssid, by simpa using hconnected⟩
  · intro h
    rcases h with hnone | ⟨c, hc, hssid, hconnected⟩
    · constructor
      · intro hmark
        exact ⟨a, ha.mem, rfl, hmark⟩
      · intro hused
        obtain ⟨b, hb, hssid, hmark⟩ := hused
        rw [hnone b hb hssid] at hmark
        exact absurd hmark (by simp)
    -- the row in use comes first among the strongest, so it is the survivor
    · have heq : c = a := hc.unique ha hssid
      rw [heq] at hconnected
      exact ⟨fun _ => ⟨a, ha.mem, rfl, hconnected⟩, fun _ => hconnected⟩

section

variable [PyUnicode]

/-- **Where a scan keeps the mark of the network that is in use.** -/
theorem scan_markKept_iff {stdout t : String} {out : Except PyErr (List AccessPoint)}
    (h : Backend.scan.Runs listing stdout out t) :
    ∃ best, out = .ok best ∧ ∀ a ∈ best,
      (MarkKept (parsedAccessPoints stdout) a ↔
        InUseLeads (parsedAccessPoints stdout) a.ssid) := by
  have hstrongest : Strongest (parsedAccessPoints stdout) (scanResult stdout) := strongest_take _
  exact ⟨scanResult stdout, scan_runs h, fun a ha => markKept_iff (hstrongest.first a ha)⟩

end

theorem scan_markKept_homeNetworks : ∃ best,
    (Except.ok (@scanResult asciiUnicode homeNetworks) : Except PyErr (List AccessPoint)) = .ok best ∧
      ∀ a ∈ best, (MarkKept (@parsedAccessPoints asciiUnicode homeNetworks) a ↔
        InUseLeads (@parsedAccessPoints asciiUnicode homeNetworks) a.ssid) :=
  @scan_markKept_iff asciiUnicode _ _ _ (@runs_listed asciiUnicode homeNetworks)

/-- Two access points of one network, and the weaker one is in use. -/
def roamingNetwork : String := "lab:40::*\nlab:60::"

/-- **The mark goes with the weaker access point.** -/
theorem not_scan_markKept : ¬∀ (_ : PyUnicode) (stdout t : String)
    (out : Except PyErr (List AccessPoint)), Backend.scan.Runs listing stdout out t →
      ∃ best, out = .ok best ∧ ∀ a ∈ best, MarkKept (parsedAccessPoints stdout) a := by
  intro hall
  obtain ⟨best, hbest, hkept⟩ := hall asciiUnicode _ _ _ (@runs_listed asciiUnicode roamingNetwork)
  rw [← Except.ok.inj hbest] at hkept
  have hread : ∃ a ∈ @scanResult asciiUnicode roamingNetwork, a.connected = false ∧
      ∃ b ∈ @parsedAccessPoints asciiUnicode roamingNetwork, b.ssid = a.ssid ∧
        b.connected = true := by
    decide +kernel
  obtain ⟨a, ha, hmark, hused⟩ := hread
  rw [(hkept a ha).mpr hused] at hmark
  exact absurd hmark (by simp)

end Rave
