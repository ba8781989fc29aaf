import RaveDeployment.Network.Protocol

/-!
# Reading a scan

`_split_escaped_fields`, `_classify_security`, `_parse_access_point` and the text half of
`NetworkManagerBackend.scan`: from the output of `nmcli device wifi list` to the list of access
points, one per SSID, strongest first.
-/

namespace Rave

open Py

structure AccessPoint where
  ssid : String
  signalPercent : Int
  security : WifiSecurity
  connected : Bool
  keyManagement : Option String
  deriving DecidableEq

/-- The loop of `_split_escaped_fields`: the field under construction and whether the last
character was an active backslash. -/
def splitEscapedChars (current : List Char) (escaped : Bool) : List Char → List (List Char)
  | [] => [if escaped then current ++ ['\\'] else current]
  | c :: cs =>
    if escaped then splitEscapedChars (current ++ [c]) false cs
    else if c = '\\' then splitEscapedChars current true cs
    else if c = ':' then current :: splitEscapedChars [] false cs
    else splitEscapedChars (current ++ [c]) false cs

/-- `_split_escaped_fields`. -/
def splitEscapedFields (line : String) : List String :=
  (splitEscapedChars [] false line.toList).map String.ofList

section

variable [PyUnicode]

/-- `_classify_security`. -/
def classifySecurity (rawSecurity : String) : WifiSecurity × Option String :=
  let normalized := strip (PyUnicode.upper rawSecurity)
  if normalized = "" ∨ normalized = "--" then (.open, none)
  else if contains "802.1X" normalized ∨ contains "EAP" normalized then (.enterprise, none)
  else if contains "WEP" normalized then (.unsupported, none)
  else if contains "WPA" normalized then
    let keyManagement :=
      if contains "WPA3" normalized ∧ ¬contains "WPA2" normalized then "sae" else "wpa-psk"
    (.wpaPersonal, some keyManagement)
  else (.unsupported, none)

/-- `_parse_access_point`: a row that is not one is dropped. -/
def parseAccessPoint (line : String) : Option AccessPoint :=
  match splitEscapedFields line with
  | [ssid, signal, rawSecurity, inUse] =>
    match validateSsid ssid, int? signal with
    | .ok validSsid, some signalPercent =>
      if 0 ≤ signalPercent ∧ signalPercent ≤ 100 then
        let (security, keyManagement) := classifySecurity rawSecurity
        some
          { ssid := validSsid
            signalPercent := signalPercent
            security := security
            connected := inUse = "*"
            keyManagement := keyManagement }
      else none
    | _, _ => none
  | _ => none

/-- `strongest[access_point.ssid] = access_point` where it is absent or weaker; a dictionary
keeps the position of a key it already holds. -/
def keepStrongest (strongest : List AccessPoint) (accessPoint : AccessPoint) :
    List AccessPoint :=
  if strongest.any fun previous => previous.ssid = accessPoint.ssid then
    strongest.map fun previous =>
      if previous.ssid = accessPoint.ssid ∧ previous.signalPercent < accessPoint.signalPercent
      then accessPoint else previous
  else strongest ++ [accessPoint]

/-- The order of the sort key `(-signal_percent, ssid.casefold())`. -/
def scanOrder (a b : AccessPoint) : Bool :=
  b.signalPercent < a.signalPercent ∨
    (a.signalPercent = b.signalPercent ∧
      PyUnicode.casefold a.ssid ≤ PyUnicode.casefold b.ssid)

/-- The access points a scan output stands for, before the loop that drops duplicates. -/
def parsedAccessPoints (stdout : String) : List AccessPoint :=
  (splitlines stdout).filterMap parseAccessPoint

/-- What `scan` makes of the output. The sort is stable. -/
def scanResult (stdout : String) : List AccessPoint :=
  let strongest := (parsedAccessPoints stdout).foldl keepStrongest []
  (strongest.insertionSort fun a b => scanOrder a b).take MAX_NETWORKS

end

end Rave
