import RaveDeployment.Lib.Dict
import RaveDeployment.Python.Replacement
import RaveDeployment.Python.Text

/-!
# `GET /api/v1/system`

The identification of the system, read from `os-release`, and the response that is built from it.
Each value of `os-release` is cut to the length that the response admits, the two values that are
joined each for itself. `system_valid_iff` says for which files the response is built.
-/

namespace Rave

namespace Web

open Py

/-- `Availability`, in its four values. -/
inductive Availability where
  | unavailable
  | starting
  | ready
  | degraded
  | error
  deriving DecidableEq

/-- `ComponentStatus`: a component with its reason. -/
structure ComponentStatus where
  availability : Availability
  reason : String
  reason_length : 1 ≤ reason.length ∧ reason.length ≤ 64

/-- `TimeStatus`: whether the clock has been set. -/
structure TimeStatus where
  /-- Microseconds since the epoch. -/
  currentUtc : Int
  synchronized : Bool
  rtcAvailable : Bool

/-- `SystemResponse`, with what its model checks. -/
structure SystemResponse where
  apiVersion : String
  availability : Availability
  osVersion : Option (List Char)
  webVersion : String
  updateStatus : ComponentStatus
  /-- In thousandths of a degree. -/
  temperatureC : Option Int
  time : TimeStatus

def SystemResponse.errors (r : SystemResponse) : List String :=
  (if r.apiVersion = "v1" then [] else ["api_version"]) ++
  (if r.osVersion.all fun v => v.length ≤ 64 then [] else ["os_version"]) ++
  (if 1 ≤ r.webVersion.length ∧ r.webVersion.length ≤ 32 then [] else ["web_version"]) ++
  if r.temperatureC.all fun t => -40000 ≤ t ∧ t ≤ 125000 then [] else ["temperature_c"]

abbrev ValidSystemResponse := { r : SystemResponse // r.errors = [] }

/-- `SystemResponse(...)`, which raises `ValidationError` with the fields that fail. -/
def SystemResponse.validate (r : SystemResponse) : Except (List String) ValidSystemResponse :=
  if h : r.errors = [] then .ok ⟨r, h⟩ else .error r.errors

theorem notIntegrated_length : 1 ≤ "not_integrated".length ∧ "not_integrated".length ≤ 64 := by
  decide

def NOT_INTEGRATED : ComponentStatus :=
  ⟨.unavailable, "not_integrated", notIntegrated_length⟩

def WEB_VERSION : String := "0.3.0"

def MAX_LOCAL_FILE_BYTES : Nat := 64 * 1024

/-- `_read_bounded` on the content of the file, which is missing where it cannot be read. -/
def readBounded (file : Option (List UInt8)) (limit : Nat) : Option (List Char) :=
  match file with
  | none => none
  | some content =>
    let data := content.take (limit + 1)
    if limit < data.length then none else some (stripChars isSpace (decodeReplace data))

def osKeys : List String := ["PRETTY_NAME", "NAME", "VERSION_ID"]

/-- `value.strip().strip('"')`. -/
def unquoted (value : List Char) : List Char :=
  stripChars (fun c => c = '"') (stripChars isSpace value)

def readOsLine (values : List (String × List Char)) (line : List Char) :
    List (String × List Char) :=
  match partitionAt '=' line with
  | (key, separator, value) =>
    if separator = true ∧ String.ofList key ∈ osKeys then
      dictSet (String.ofList key) ((unquoted value).take 64) values
    else values

/-- `_os_identification` on the content of the file. -/
def osIdentification (file : Option (List UInt8)) : Option (List Char) :=
  match readBounded file MAX_LOCAL_FILE_BYTES with
  | none => none
  | some [] => none
  | some content =>
    let values := (splitLines content).foldl readOsLine []
    match values.lookup "PRETTY_NAME" with
    | some (c :: cs) => some (c :: cs)
    | _ =>
      let parts := [values.lookup "NAME", values.lookup "VERSION_ID"].filterMap fun part =>
        part.filter (· ≠ [])
      let joined := [' '].intercalate parts
      if joined = [] then none else some joined

/-- `_temperature_c` on the content of the file, in thousandths of a degree. -/
def temperatureC [PyUnicode] (file : Option (List UInt8)) : Option Int :=
  match readBounded file 32 with
  | none => none
  | some value =>
    match int? (String.ofList value) with
    | none => none
    | some temperature =>
      if -40000 ≤ temperature ∧ temperature ≤ 125000 then some temperature else none

/-- What `PiManagementProvider` observes of the appliance. -/
structure Observations where
  osRelease : Option (List UInt8)
  temperature : Option (List UInt8)
  synchronizedMarker : Bool
  rtcPath : Bool
  utcNow : Int

/-- `PiManagementProvider.system`. -/
def system [PyUnicode] (o : Observations) : Except (List String) ValidSystemResponse :=
  let osVersion := osIdentification o.osRelease
  SystemResponse.validate
    { apiVersion := "v1"
      availability := if osVersion.any (· ≠ []) then .ready else .degraded
      osVersion := osVersion
      webVersion := WEB_VERSION
      updateStatus := NOT_INTEGRATED
      temperatureC := temperatureC o.temperature
      time := ⟨o.utcNow, o.synchronizedMarker, o.rtcPath⟩ }

/-! ## The values of the keys

`/etc/os-release` is read line by line, and the last assignment of a key counts. -/

/-- The key that a line sets and the value, which is not cut. -/
def osAssignment (line : List Char) : Option (String × List Char) :=
  match partitionAt '=' line with
  | (key, separator, value) =>
    if separator = true ∧ String.ofList key ∈ osKeys then some (String.ofList key, unquoted value)
    else none

/-- The value that a text gives a key in its last line for it. -/
def Assigned (content : List Char) (key : String) (value : List Char) : Prop :=
  IsLast ((splitLines content).filterMap osAssignment) (key, value)

/-- The loop over the lines fills a dictionary with the assignments. -/
theorem foldl_readOsLine (lines : List (List Char)) (values : List (String × List Char)) :
    lines.foldl readOsLine values =
      ((lines.filterMap osAssignment).map fun e => (e.1, e.2.take 64)).foldl
        (fun d e => dictSet e.1 e.2 d) values := by
  induction lines generalizing values with
  | nil => rfl
  | cons line lines ih =>
    rw [List.foldl_cons, ih, List.filterMap_cons]
    unfold readOsLine osAssignment
    split
    next key separator value heq =>
    by_cases hset : separator = true ∧ String.ofList key ∈ osKeys
    · rw [if_pos hset, if_pos hset]
      rfl
    · rw [if_neg hset, if_neg hset]

/-- Looking up what was mapped. -/
theorem lookup_map_snd {κ α β : Type} [BEq κ] (f : α → β) (es : List (κ × α)) (k : κ) :
    (es.map fun e => (e.1, f e.2)).lookup k = (es.lookup k).map f := by
  induction es with
  | nil => rfl
  | cons e es ih =>
    obtain ⟨k', v⟩ := e
    rw [List.map_cons, List.lookup_cons, List.lookup_cons]
    cases k == k' with
    | true => rfl
    | false => exact ih

/-- A key has the value of its last line, cut to the length of the response's field. -/
theorem lookup_values (content : List Char) (key : String) :
    ((splitLines content).foldl readOsLine []).lookup key =
      (((splitLines content).filterMap osAssignment).reverse.lookup key).map (·.take 64) := by
  rw [foldl_readOsLine]
  have hlast := lookup_dictOf
    (((splitLines content).filterMap osAssignment).map fun e => (e.1, e.2.take 64)) key
  rw [dictOf] at hlast
  rw [hlast, ← List.map_reverse, lookup_map_snd]

/-- The value of a key is that of its last assignment. -/
theorem assigned_iff {content : List Char} {key : String} {value : List Char} :
    Assigned content key value ↔
      ((splitLines content).filterMap osAssignment).reverse.lookup key = some value :=
  (lookup_reverse_iff (e := (key, value))).symm

/-! ## The response

The version that is reported, and when the response cannot be built. -/

/-- The values that are joined are there, and do not fit together with the blank between them. -/
def Overlong (content : List Char) : Prop :=
  (∀ pretty, Assigned content "PRETTY_NAME" pretty → pretty = []) ∧
    ∃ name version, Assigned content "NAME" name ∧ Assigned content "VERSION_ID" version ∧
      name ≠ [] ∧ version ≠ [] ∧ 64 ≤ name.length + version.length

def nonBlank (value : Option (List Char)) : Option (List Char) :=
  value.filter (· ≠ [])

theorem nonBlank_eq_some_iff {value : Option (List Char)} {v : List Char} :
    nonBlank value = some v ↔ value = some v ∧ v ≠ [] := by
  simp [nonBlank, Option.filter_eq_some_iff]

/-- A value that is missing or blank. -/
theorem nonBlank_eq_none_iff {value : Option (List Char)} :
    nonBlank value = none ↔ ∀ v, value = some v → v = [] := by
  cases value with
  | none => simp [nonBlank]
  | some v => simp [nonBlank, Option.filter]

/-- Nothing becomes empty by being cut. -/
theorem nonBlank_take (value : Option (List Char)) :
    nonBlank (value.map (·.take 64)) = (nonBlank value).map (·.take 64) := by
  cases value with
  | none => rfl
  | some v => cases v <;> simp [nonBlank, Option.filter]

/-- The identification as the values of the keys make it. -/
def identify (pretty name version : Option (List Char)) : Option (List Char) :=
  match nonBlank pretty with
  | some pretty => some pretty
  | none =>
    match nonBlank name, nonBlank version with
    | some name, some version => some (name ++ ' ' :: version)
    | some name, none => some name
    | none, version => version

/-- The name and the version, as far as they are there. -/
theorem intercalate_parts (name version : Option (List Char)) :
    (let joined := [' '].intercalate ([name, version].filterMap fun part => part.filter (· ≠ []))
      if joined = [] then none else some joined) =
    match nonBlank name, nonBlank version with
    | some name, some version => some (name ++ ' ' :: version)
    | some name, none => some name
    | none, version => version := by
  have hparts : ([name, version].filterMap fun part => part.filter (· ≠ []))
      = (nonBlank name).toList ++ (nonBlank version).toList := by
    unfold nonBlank
    simp only [List.filterMap_cons, List.filterMap_nil]
    cases name.filter (· ≠ []) <;> cases version.filter (· ≠ []) <;> rfl
  rw [hparts]
  cases hname : nonBlank name with
  | none =>
    cases hversion : nonBlank version with
    | none => rfl
    | some version => simp [List.intercalate, (nonBlank_eq_some_iff.mp hversion).2]
  | some name =>
    cases hversion : nonBlank version with
    | none => simp [List.intercalate, (nonBlank_eq_some_iff.mp hname).2]
    | some version => simp [List.intercalate]

/-- What is reported of a file that can be read. -/
theorem osIdentification_eq {file : Option (List UInt8)} {content : List Char}
    (h : readBounded file MAX_LOCAL_FILE_BYTES = some content) (hne : content ≠ []) :
    osIdentification file = identify
      (((splitLines content).foldl readOsLine []).lookup "PRETTY_NAME")
      (((splitLines content).foldl readOsLine []).lookup "NAME")
      (((splitLines content).foldl readOsLine []).lookup "VERSION_ID") := by
  unfold osIdentification identify
  rw [h]
  cases content with
  | nil => exact absurd rfl hne
  | cons c cs =>
    dsimp only
    rw [← intercalate_parts]
    cases ((splitLines (c :: cs)).foldl readOsLine []).lookup "PRETTY_NAME" with
    | none => rfl
    | some pretty =>
      cases pretty with
      | nil => rfl
      | cons d ds => rfl

def Admitted (osVersion : Option (List Char)) : Prop :=
  ∀ v, osVersion = some v → v ≠ [] ∧ v.length ≤ 64

/-- Cutting a value off leaves something. -/
theorem take_ne_nil {v : List Char} (h : v ≠ []) : v.take 64 ≠ [] ∧ (v.take 64).length ≤ 64 := by
  refine ⟨by simpa using h, ?_⟩
  rw [List.length_take]
  omega

/-- Only two values that are joined can be too long. -/
theorem admitted_identify_iff (pretty name version : Option (List Char)) :
    Admitted (identify (pretty.map (·.take 64)) (name.map (·.take 64)) (version.map (·.take 64))) ↔
      ¬(nonBlank pretty = none ∧ ∃ n v, nonBlank name = some n ∧ nonBlank version = some v ∧
        64 ≤ n.length + v.length) := by
  unfold Admitted identify
  rw [nonBlank_take, nonBlank_take, nonBlank_take]
  cases hpretty : nonBlank pretty with
  | some pretty =>
    have hne := take_ne_nil (nonBlank_eq_some_iff.mp hpretty).2
    simp [hne]
  | none =>
    cases hname : nonBlank name with
    | none =>
      cases hversion : nonBlank version with
      | none => simp
      | some version =>
        have hne := take_ne_nil (nonBlank_eq_some_iff.mp hversion).2
        simp [hne]
    | some name =>
      have hname := (nonBlank_eq_some_iff.mp hname).2
      cases hversion : nonBlank version with
      | none =>
        have hne := take_ne_nil hname
        simp [hne]
      | some version =>
        have hversion := (nonBlank_eq_some_iff.mp hversion).2
        have hname := List.length_pos_of_ne_nil hname
        have hversion := List.length_pos_of_ne_nil hversion
        have hlength : (name.take 64 ++ ' ' :: version.take 64).length
            = min 64 name.length + (min 64 version.length + 1) := by
          rw [List.length_append, List.length_take, List.length_cons, List.length_take]
        -- cut or not, the two are too long together when they are before
        constructor
        · intro h hoverlong
          obtain ⟨-, n, v, hn, hv, hlong⟩ := hoverlong
          have hfits := (h _ rfl).2
          rw [hlength] at hfits
          rw [← Option.some.inj hn, ← Option.some.inj hv] at hlong
          omega
        · intro h joined hjoined
          rw [← Option.some.inj hjoined]
          refine ⟨by simp, ?_⟩
          rw [hlength]
          by_contra hlong
          exact h ⟨rfl, name, version, rfl, rfl, by omega⟩

/-- Of a file that cannot be read nothing is reported. -/
theorem osIdentification_missing {file : Option (List UInt8)}
    (h : ∀ content, readBounded file MAX_LOCAL_FILE_BYTES = some content → content = []) :
    osIdentification file = none := by
  unfold osIdentification
  split
  · rfl
  · rfl
  · next content hne heq => exact absurd (h content heq) (fun hnil => hne hnil)

/-- When the name and the version are too long together. -/
theorem overlong_iff {content : List Char} : Overlong content ↔
    nonBlank (((splitLines content).filterMap osAssignment).reverse.lookup "PRETTY_NAME") = none ∧
      ∃ n v,
        nonBlank (((splitLines content).filterMap osAssignment).reverse.lookup "NAME") = some n ∧
        nonBlank (((splitLines content).filterMap osAssignment).reverse.lookup "VERSION_ID") = some v ∧
        64 ≤ n.length + v.length := by
  unfold Overlong
  simp only [assigned_iff, nonBlank_eq_none_iff, nonBlank_eq_some_iff]
  constructor
  · intro ⟨hpretty, name, version, hname, hversion, hne, hne', hlong⟩
    exact ⟨hpretty, name, version, ⟨hname, hne⟩, ⟨hversion, hne'⟩, hlong⟩
  · intro ⟨hpretty, name, version, ⟨hname, hne⟩, ⟨hversion, hne'⟩, hlong⟩
    exact ⟨hpretty, name, version, hname, hversion, hne, hne', hlong⟩

/-- **The identification is admitted unless two values are joined that are too long together.** -/
theorem admitted_osIdentification_iff (file : Option (List UInt8)) :
    Admitted (osIdentification file) ↔
      ∀ content, readBounded file MAX_LOCAL_FILE_BYTES = some content → ¬ Overlong content := by
  cases hread : readBounded file MAX_LOCAL_FILE_BYTES with
  | none =>
    rw [osIdentification_missing (by simp [hread])]
    simp [Admitted]
  | some content =>
    by_cases hne : content = []
    · rw [osIdentification_missing (by simp [hread, hne])]
      have hnone : ¬ Overlong content := by
        rw [overlong_iff, hne]
        simp [splitLines, nonBlank]
      simp [Admitted, hnone]
    · rw [osIdentification_eq hread hne, lookup_values, lookup_values, lookup_values,
        admitted_identify_iff, ← overlong_iff]
      simp

/-- A temperature that is reported is within its bounds. -/
theorem temperatureC_bounds [PyUnicode] {file : Option (List UInt8)} {t : Int}
    (h : temperatureC file = some t) : -40000 ≤ t ∧ t ≤ 125000 := by
  unfold temperatureC at h
  split at h
  · cases h
  split at h
  · cases h
  split at h
  · next hbounds =>
    rw [← Option.some.inj h]
    exact hbounds
  · cases h

/-- Whatever is observed, no field but `os_version` fails its check. -/
theorem errors_eq [PyUnicode] {r : SystemResponse} {file : Option (List UInt8)}
    (hapi : r.apiVersion = "v1") (hweb : r.webVersion = WEB_VERSION)
    (htemperature : r.temperatureC = temperatureC file) :
    r.errors = if r.osVersion.all fun v => v.length ≤ 64 then [] else ["os_version"] := by
  have hrange : (r.temperatureC.all fun t => -40000 ≤ t ∧ t ≤ 125000) = true := by
    rw [htemperature]
    cases ht : temperatureC file with
    | none => rfl
    | some t => simpa using temperatureC_bounds ht
  have hlength : 1 ≤ r.webVersion.length ∧ r.webVersion.length ≤ 32 := by
    rw [hweb]
    decide
  rw [SystemResponse.errors, if_pos hapi, if_pos hlength, if_pos hrange, List.nil_append,
    List.append_nil, List.append_nil]

/-- The response is built, or its version is too long. -/
theorem system_eq [PyUnicode] (o : Observations) :
    (∃ r, system o = .ok r ∧ r.val.osVersion = osIdentification o.osRelease) ∨
    system o = .error ["os_version"] ∧
      ∃ v, osIdentification o.osRelease = some v ∧ 64 < v.length := by
  unfold system SystemResponse.validate
  by_cases hfits : ((osIdentification o.osRelease).all fun v => v.length ≤ 64) = true
  · left
    rw [dif_pos]
    · exact ⟨_, rfl, rfl⟩
    · rw [errors_eq rfl rfl rfl, if_pos hfits]
  · right
    rw [dif_neg]
    · rw [errors_eq rfl rfl rfl, if_neg hfits]
      refine ⟨rfl, ?_⟩
      cases hversion : osIdentification o.osRelease with
      | none => simp [hversion] at hfits
      | some v => exact ⟨v, rfl, by simpa [hversion] using hfits⟩
    · rw [errors_eq rfl rfl rfl, if_neg hfits]
      exact List.cons_ne_nil _ _

/-- **The response is built for every file that does not make two values be joined that are too
long together**, and for no other. -/
theorem system_valid_iff [PyUnicode] (o : Observations) :
    (Admitted (osIdentification o.osRelease) ∧
      ∃ r, system o = .ok r ∧ r.val.osVersion = osIdentification o.osRelease) ↔
    ∀ content, readBounded o.osRelease MAX_LOCAL_FILE_BYTES = some content →
      ¬ Overlong content := by
  rw [← admitted_osIdentification_iff]
  constructor
  · intro h
    exact h.1
  · intro hadmitted
    refine ⟨hadmitted, ?_⟩
    rcases system_eq o with ⟨r, hr, hversion⟩ | ⟨-, v, hv, hlong⟩
    · exact ⟨r, hr, hversion⟩
    · have hfits := (hadmitted v hv).2
      omega

/-! ## A file that the response is not built for

Two names that fit each, and together do not. -/

def longName : List Char :=
  List.replicate 64 'R'

def longRelease : List Char :=
  ['N', 'A', 'M', 'E', '='] ++ longName ++
    ['\n', 'V', 'E', 'R', 'S', 'I', 'O', 'N', '_', 'I', 'D', '=', '1', '\n']

/-- A short file is read and stripped. -/
theorem readBounded_encodeUtf8 {text : List Char} {limit : Nat}
    (h : (encodeUtf8 text).length ≤ limit) :
    readBounded (some (encodeUtf8 text)) limit = some (stripChars isSpace text) := by
  have htake : (encodeUtf8 text).take (limit + 1) = encodeUtf8 text :=
    List.take_of_length_le (by omega)
  unfold readBounded
  dsimp only
  rw [htake, if_neg (by omega), decodeReplace_encodeUtf8]

/-- The version that comes of it is too long. -/
theorem osIdentification_longRelease :
    osIdentification (some (encodeUtf8 longRelease)) = some (longName ++ [' ', '1']) := by
  have hread : readBounded (some (encodeUtf8 longRelease)) MAX_LOCAL_FILE_BYTES
      = some (stripChars isSpace longRelease) :=
    readBounded_encodeUtf8 (by decide)
  unfold osIdentification
  rw [hread]
  decide

/-- **The response is not built for every file.** -/
theorem not_system_valid : ¬∀ o : Observations, Admitted (osIdentification o.osRelease) ∧
    ∃ r, @system asciiUnicode o = .ok r ∧ r.val.osVersion = osIdentification o.osRelease := by
  intro hall
  have hfits := (hall ⟨some (encodeUtf8 longRelease), none, true, true, 0⟩).1 _
    osIdentification_longRelease
  have hlength : (longName ++ [' ', '1']).length = 66 := by decide
  have := hfits.2
  omega

end Web

end Rave
