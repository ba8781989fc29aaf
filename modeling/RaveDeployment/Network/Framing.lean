import RaveDeployment.Lib.Prog
import RaveDeployment.Network.Client

/-!
# How a request arrives

`NetworkdServer._receive_request` as a program over the clock and `recv`, followed by `json.loads`
and `parse_request`. The stream a client writes is cut into chunks by its surroundings
(`delivering`): each chunk is as long as they like, but not empty and no longer than asked.

`request_received`: whatever the client sends for a request it accepts, the server reads back that
request, however the bytes are cut.
-/

namespace Rave

open Py

def MAX_REQUEST_BYTES : Nat := 2048

/-- `REQUEST_FRAMING_TIMEOUT_SECONDS`, in nanoseconds. -/
def requestFramingTimeout : Int := 2000000000

/-- What `_receive_request` asks of its surroundings. -/
inductive RecvOp where
  /-- `time.monotonic()`, in nanoseconds. -/
  | monotonic
  /-- `connection.settimeout(timeout)` and `connection.recv(limit)`. -/
  | recv (timeout : Int) (limit : Nat)

/-- What reading from a socket may raise. -/
inductive RecvError where
  | timeout
  | osError

def RecvOp.Ans : RecvOp → Type
  | .monotonic => Int
  | .recv _ _ => Except RecvError (List UInt8)

abbrev RecvProg (α : Type) : Type := Prog ServeError RecvOp RecvOp.Ans α

/-- The loop of `_receive_request`. -/
def receiveLoop (deadline : Int) (request : List UInt8) : RecvProg (List UInt8) :=
  if request.length ≤ MAX_REQUEST_BYTES then
    .op .monotonic fun now : Int =>
      if deadline - now ≤ 0 then .raise (.protocol "request_timeout")
      else
        .op (.recv (deadline - now) (min 1024 (MAX_REQUEST_BYTES + 1 - request.length))) fun
          | .error .timeout => .raise (.protocol "request_timeout")
          | .error .osError => .raise (.raised .osError)
          | .ok chunk =>
            if chunk = [] then .ret request
            else if newlineByte ∈ chunk then .ret (request ++ chunk)
            else receiveLoop deadline (request ++ chunk)
  else .ret request
termination_by MAX_REQUEST_BYTES + 1 - request.length
decreasing_by
  have hchunk : 0 < chunk.length := List.length_pos_iff.mpr ‹chunk ≠ []›
  rw [List.length_append]
  omega

/-- `bytes(request).split(b"\n", 1)[0]`. -/
def firstLine (request : List UInt8) : List UInt8 :=
  request.takeWhile fun b => b ≠ newlineByte

/-- `_receive_request`. -/
def receiveRequest : RecvProg (List UInt8) :=
  .op .monotonic fun now : Int => do
    let request ← receiveLoop (now + requestFramingTimeout) []
    if MAX_REQUEST_BYTES < request.length then throw (.protocol "request_too_large")
    if firstLine request = [] then throw (.protocol "request_empty")
    return firstLine request

/-! ## `json.loads` on bytes

Python guesses the encoding from the first bytes. A request of the client begins with a brace and a
quotation mark, so the guess is UTF-8. -/

/-- The answers of `json.detect_encoding`. -/
inductive JsonEncoding where
  | utf8
  | utf8Sig
  | utf16
  | utf16be
  | utf16le
  | utf32
  | utf32be
  | utf32le
  deriving DecidableEq

/-- `json.detect_encoding`. -/
def detectEncoding : List UInt8 → JsonEncoding
  | 0x00 :: 0x00 :: 0xfe :: 0xff :: _ => .utf32
  | 0xff :: 0xfe :: 0x00 :: 0x00 :: _ => .utf32
  | 0xfe :: 0xff :: _ => .utf16
  | 0xff :: 0xfe :: _ => .utf16
  | 0xef :: 0xbb :: 0xbf :: _ => .utf8Sig
  | b0 :: b1 :: b2 :: b3 :: _ =>
    if b0 = 0 then if b1 ≠ 0 then .utf16be else .utf32be
    else if b1 = 0 then if b2 ≠ 0 ∨ b3 ≠ 0 then .utf16le else .utf32le
    else .utf8
  | [b0, b1] => if b0 = 0 then .utf16be else if b1 = 0 then .utf16le else .utf8
  | _ => .utf8

/-- What `json.loads` raises on bytes. -/
inductive LoadsError where
  /-- `UnicodeDecodeError`, which is a `ValueError`. -/
  | unicode
  | text (e : Json.LoadError)
  deriving DecidableEq

/-- What `json.loads` makes of the bytes that are not plain UTF-8: those of the other encodings, and
those that `surrogatepass` reads. `parse_request` has no part in them. -/
abbrev Codecs : Type := JsonEncoding → List UInt8 → Except LoadsError Json

/-- `json.loads(data)`: the text is `data.decode(detect_encoding(data), "surrogatepass")`. -/
def loadsBytes [Json.Nesting] (codecs : Codecs) (data : List UInt8) : Except LoadsError Json :=
  match detectEncoding data, decodeUtf8 data with
  | .utf8, some text => (Json.loads text).mapError .text
  | encoding, _ => codecs encoding data

/-- The `except` clause that `_serve_connection` meets it with. `RecursionError` is a
`RuntimeError`. -/
def ServeError.ofLoads : LoadsError → ServeError
  | .unicode => .raised (.valueError "UnicodeDecodeError")
  | .text .decode => .jsonDecode
  | .text .digits =>
    .raised (.valueError "Exceeds the limit (4300 digits) for integer string conversion")
  | .text .recursion => .raised (.runtimeError "maximum recursion depth exceeded")

/-- The first bytes of an object of either side: its first key. -/
theorem dumps_apiVersion {style : JsonStyle} (hstyle : Compact style) (v : Json)
    (fs : List (PyStr × Json)) : ∃ rest,
      Json.dumps style (.obj (("api_version", v) :: fs)) = '{' :: '"' :: 'a' :: 'p' :: rest := by
  have hkey : ∀ ascii, Json.quote ascii "api_version" =
      ['"', 'a', 'p', 'i', '_', 'v', 'e', 'r', 's', 'i', 'o', 'n', '"'] := by decide
  rw [Json.dumps, Json.dumpsAt, hkey, newline_compact hstyle]
  exact ⟨_, rfl⟩

/-- **What either side writes is read back.** Its first bytes are ASCII, which the detection takes
for UTF-8. -/
theorem loadsBytes_dumps [Json.Nesting] (codecs : Codecs) {style : JsonStyle}
    (hstyle : Compact style) {v w : Json} {fs : List (PyStr × Json)}
    (hv : v = .obj (("api_version", w) :: fs)) (hplain : Json.Plain v) (hnesting : v.nesting ≤ 16) :
    loadsBytes codecs (encodeUtf8 (Json.dumps style v)) = .ok v := by
  have hdetect : detectEncoding (encodeUtf8 (Json.dumps style v)) = .utf8 := by
    obtain ⟨rest, hrest⟩ := dumps_apiVersion hstyle w fs
    have hbytes : encodeUtf8 (Json.dumps style v) =
        0x7b :: 0x22 :: 0x61 :: 0x70 :: encodeUtf8 rest := by
      rw [hv, hrest]
      rfl
    rw [hbytes]
    rfl
  rw [loadsBytes, hdetect, decodeUtf8_encodeUtf8]
  dsimp only
  rw [Json.loads_dumps style v hplain hnesting]
  rfl

/-- What `_serve_connection` does before it dispatches the request. -/
def receiveParsed [Json.Nesting] (codecs : Codecs) : RecvProg ParsedRequest := do
  let data ← receiveRequest
  let payload ← Prog.ofExcept ((loadsBytes codecs data).mapError ServeError.ofLoads)
  Prog.ofExcept (parseRequest payload)

/-! ## The surroundings

A stream that delivers its bytes in pieces of any size, before the deadline. -/

/-- The clock reading of the first `time.monotonic()`, and the bytes not read yet. -/
structure Stream where
  startedAt : Option Int
  pending : List UInt8

/-- How the surroundings answer while no timeout strikes: a chunk is a non-empty part of what is
pending, no longer than asked, and the end of the stream reads as an empty one. -/
inductive Delivers : (o : RecvOp) → Stream → o.Ans → Stream → Prop
  | start (bytes : List UInt8) (now : Int) :
      Delivers .monotonic ⟨none, bytes⟩ now ⟨some now, bytes⟩
  | tick (bytes : List UInt8) (start now : Int) (h : now < start + requestFramingTimeout) :
      Delivers .monotonic ⟨some start, bytes⟩ now ⟨some start, bytes⟩
  | chunk (timeout : Int) (limit : Nat) (startedAt : Option Int) (chunk rest : List UInt8)
      (hne : chunk ≠ []) (hlen : chunk.length ≤ limit) :
      Delivers (.recv timeout limit) ⟨startedAt, chunk ++ rest⟩ (.ok chunk) ⟨startedAt, rest⟩
  | closed (timeout : Int) (limit : Nat) (startedAt : Option Int) :
      Delivers (.recv timeout limit) ⟨startedAt, []⟩ (.ok []) ⟨startedAt, []⟩

def RecvOp.asks : RecvOp → Prop
  | .monotonic => True
  | .recv _ limit => 0 < limit

/-- A client that has written its request and shut down its side. -/
def delivering : Env RecvOp RecvOp.Ans Stream :=
  Env.sequential (fun o _ => o.asks) Delivers

/-! ## Reading a line

From a stream that holds one line, `receive_request` returns the line. -/

/-- The first reading of the clock starts the deadline. -/
theorem wp_start {ε α : Type} {k : Int → Prog ε RecvOp RecvOp.Ans α} {Q : α → Stream → Prop}
    {R : ε → Stream → Prop} {bytes : List UInt8}
    (hk : ∀ now, (k now).wp delivering Q R ⟨some now, bytes⟩) :
    (Prog.op RecvOp.monotonic k).wp delivering Q R ⟨none, bytes⟩ := by
  rintro _ rfl
  refine ⟨trivial, fun now w hx => ?_⟩
  cases hx
  exact hk now

/-- Later readings of the clock are before the deadline. -/
theorem wp_tick {ε α : Type} {k : Int → Prog ε RecvOp RecvOp.Ans α} {Q : α → Stream → Prop}
    {R : ε → Stream → Prop} {start : Int} {bytes : List UInt8}
    (hk : ∀ now < start + requestFramingTimeout, (k now).wp delivering Q R ⟨some start, bytes⟩) :
    (Prog.op RecvOp.monotonic k).wp delivering Q R ⟨some start, bytes⟩ := by
  rintro _ rfl
  refine ⟨trivial, fun now w hx => ?_⟩
  cases hx with
  | tick _ _ _ h => exact hk now h

/-- A chunk is a part of what is pending; only at the end of the stream it is empty. -/
theorem wp_recv {ε α : Type} {timeout : Int} {limit : Nat} (hlimit : 0 < limit)
    {k : Except RecvError (List UInt8) → Prog ε RecvOp RecvOp.Ans α} {Q : α → Stream → Prop}
    {R : ε → Stream → Prop} {startedAt : Option Int} {pending : List UInt8}
    (hclosed : pending = [] → (k (.ok [])).wp delivering Q R ⟨startedAt, []⟩)
    (hchunk : ∀ chunk rest, pending = chunk ++ rest → chunk ≠ [] → chunk.length ≤ limit →
      (k (.ok chunk)).wp delivering Q R ⟨startedAt, rest⟩) :
    (Prog.op (RecvOp.recv timeout limit) k).wp delivering Q R ⟨startedAt, pending⟩ := by
  rintro _ rfl
  refine ⟨hlimit, fun r w hx => ?_⟩
  cases hx with
  | chunk _ _ _ chunk rest hne hlen => exact hchunk chunk rest rfl hne hlen
  | closed => exact hclosed rfl

section

variable {line : List UInt8} (hline : newlineByte ∉ line) (hsize : line.length < MAX_REQUEST_BYTES)
include hline

/-- A part of the terminated line that has the terminator is all of it. -/
theorem eq_of_newline_mem {read rest : List UInt8} (h : read ++ rest = line ++ [newlineByte])
    (hmem : newlineByte ∈ read) : read = line ++ [newlineByte] := by
  obtain ⟨l, hl⟩ | ⟨l, hl⟩ := List.append_eq_append_iff.mp h
  · -- `read` would be a part of `line`
    have hsub : newlineByte ∈ line := hl.1 ▸ List.mem_append_left _ hmem
    exact absurd hsub hline
  · cases l with
    | nil =>
      rw [List.append_nil] at hl
      rw [hl.1] at hmem
      exact absurd hmem hline
    | cons b l =>
      obtain ⟨rfl, hnil⟩ := List.cons.inj hl.2
      rw [hl.1, (List.append_eq_nil_iff.mp hnil.symm).1]

/-- The first line of a line with its newline. -/
theorem firstLine_append : firstLine (line ++ [newlineByte]) = line := by
  rw [firstLine, List.takeWhile_append_of_pos]
  · simp
  · intro b hb
    simp only [decide_not, Bool.not_eq_eq_eq_not, Bool.not_true, decide_eq_false_iff_not]
    rintro rfl
    exact hline hb

include hsize

/-- **The loop reads the line**, in whatever chunks it comes. -/
theorem receiveLoop_wp (start : Int) (read pending : List UInt8)
    (h : read ++ pending = line ++ [newlineByte]) (hread : newlineByte ∉ read) :
    (receiveLoop (start + requestFramingTimeout) read).wp delivering
      (fun request _ => request = line ++ [newlineByte]) (fun _ _ => False)
      ⟨some start, pending⟩ := by
  induction hn : pending.length using Nat.strongRecOn generalizing read pending with
  | ind n ih =>
    have hlen : read.length + pending.length = line.length + 1 := by
      have := congrArg List.length h
      simpa using this
    rw [receiveLoop, if_pos (by omega)]
    refine wp_tick fun now hnow => ?_
    rw [if_neg (by omega)]
    refine wp_recv (by omega) ?_ ?_
    · -- the stream cannot end before the terminator was read
      rintro rfl
      rw [List.append_nil] at h
      exact absurd (h ▸ by simp) hread
    · rintro chunk rest rfl hne -
      dsimp only
      rw [if_neg hne]
      rw [← List.append_assoc] at h
      by_cases hmem : newlineByte ∈ chunk
      · rw [if_pos hmem]
        have hall := eq_of_newline_mem hline h (List.mem_append_right _ hmem)
        exact fun _ _ => hall
      · rw [if_neg hmem]
        -- the chunk was not empty, so fewer bytes are pending
        have hshort : rest.length < n := by
          have hpos : 0 < chunk.length := List.length_pos_iff.mpr hne
          rw [← hn, List.length_append]
          omega
        have hread' : newlineByte ∉ read ++ chunk := by
          rw [List.mem_append, not_or]
          exact ⟨hread, hmem⟩
        exact ih rest.length hshort _ rest h hread' rfl

/-- The loop ends and returns the line, whatever the pieces. -/
theorem receiveRequest_wp (hne : line ≠ []) :
    receiveRequest.wp delivering (fun data _ => data = line) (fun _ _ => False)
      ⟨none, line ++ [newlineByte]⟩ := by
  refine wp_start fun now => ?_
  refine Prog.wp_bind.mpr (Prog.wp_mono
    (receiveLoop_wp hline hsize now [] _ rfl (by simp)) ?_ fun _ _ h => h)
  rintro request t rfl
  have hfirst := firstLine_append hline
  have hfits : ¬MAX_REQUEST_BYTES < (line ++ [newlineByte]).length := by
    rw [List.length_append, List.length_singleton]
    omega
  rw [hfirst, if_neg hfits, if_neg hne]
  exact fun _ _ => rfl

end

/-! ## What the client sends

The line is short enough and is parsed as the request it was made of. -/

open NetworkdClient

def ParsedRequest.Accepted : ParsedRequest → Prop
  | .connect ssid password =>
    validateSsid ssid = .ok ssid ∧ ∀ p ∈ password, validatePassword p = .ok p
  | _ => True

def ParsedRequest.payload : ParsedRequest → Json
  | .status => request .status []
  | .scan => request .scan []
  | .connect ssid password =>
    request .connect [("ssid", .str ssid), ("password", password.elim .null fun p => .str p)]
  | .provisioning => request .provisioning []

variable {r : ParsedRequest}

/-- The client sends every request that it accepts. -/
theorem send_accepted (hr : r.Accepted) :
    send r = .ok (serialized r.payload ++ [newlineByte]) := by
  cases r with
  | connect ssid password =>
    obtain ⟨hssid, hpassword⟩ := hr
    cases password with
    | none =>
      simp only [send, NetworkdClient.connectPayload, hssid]
      rfl
    | some p =>
      simp only [send, NetworkdClient.connectPayload, hssid, hpassword p rfl]
      rfl
  | _ => rfl

/-- **The parser reads the object back.** -/
theorem parseRequest_payload (hr : r.Accepted) : parseRequest r.payload = .ok r := by
  cases r with
  | connect ssid password =>
    obtain ⟨hssid, hpassword⟩ := hr
    cases password with
    | none =>
      simp [ParsedRequest.payload, request, Json.setField, parseRequest, lookupField,
        NetworkAction.ofJson?, NetworkAction.value, API_VERSION, NetworkAction.expected, hasFields,
        parseCredentials, hssid, Except.toOption]
    | some p =>
      have hp := hpassword p rfl
      simp [ParsedRequest.payload, request, Json.setField, parseRequest, lookupField,
        NetworkAction.ofJson?, NetworkAction.value, API_VERSION, NetworkAction.expected, hasFields,
        parseCredentials, hssid, hp, Except.toOption]
  | _ => decide

/-- A request holds texts and `null` only. -/
theorem payload_plain (r : ParsedRequest) : Json.Plain r.payload := by
  cases r with
  | connect ssid password =>
    cases password <;>
      simp [ParsedRequest.payload, request, Json.setField, Json.Plain, Json.PlainKeys,
        Json.PlainFields]
  | _ => simp [ParsedRequest.payload, request, Json.Plain, Json.PlainKeys, Json.PlainFields]

/-- A request has no inner list or object. -/
theorem nesting_payload (r : ParsedRequest) : r.payload.nesting ≤ 16 := by
  cases r with
  | connect ssid password =>
    cases password <;>
      simp [ParsedRequest.payload, request, Json.setField, Json.nesting, Json.nestingFields]
  | _ => simp [ParsedRequest.payload, request, Json.nesting, Json.nestingFields]

/-- A request begins with the version. -/
theorem payload_cons (r : ParsedRequest) :
    ∃ fs, r.payload = .obj (("api_version", .str API_VERSION) :: fs) := by
  cases r with
  | connect ssid password =>
    have hpayload : (ParsedRequest.connect ssid password).payload =
        .obj [("api_version", .str API_VERSION), ("action", .str "connect"), ("ssid", .str ssid),
          ("password", password.elim .null fun p => .str p)] := by
      simp [ParsedRequest.payload, request, Json.setField, NetworkAction.value]
    exact ⟨_, hpayload⟩
  | _ => exact ⟨_, rfl⟩

/-- **The text is far shorter than the server's limit**, even where every byte is escaped. -/
theorem length_payload_lt (hr : r.Accepted) :
    (serialized r.payload).length < MAX_REQUEST_BYTES := by
  have hle : (serialized r.payload).length ≤ weight r.payload :=
    length_dumps_le ⟨rfl, rfl, rfl⟩ r.payload
  cases r with
  | connect ssid password =>
    obtain ⟨hssid, hpassword⟩ := hr
    have hssid' : ssid.utf8ByteSize ≤ 32 := (validateSsid_eq_ok hssid).2
    -- every byte of the password may be escaped
    have hpassword' : weight (password.elim .null fun p => .str p) ≤ 380 := by
      cases password with
      | none => decide
      | some p =>
        have hsize : p.utf8ByteSize ≤ 63 := (validatePassword_eq_ok (hpassword p rfl)).2
        show 6 * p.utf8ByteSize + 2 ≤ 380
        omega
    -- the fixed part of the payload
    have hkeys : ∀ k ∈ ["api_version", "v1", "action", "connect", "ssid", "password"],
        k.utf8ByteSize ≤ 11 := by decide
    simp only [List.mem_cons, List.not_mem_nil, or_false, forall_eq_or_imp, forall_eq] at hkeys
    have hweight : weight (ParsedRequest.connect ssid password).payload ≤
        420 + 6 * ssid.utf8ByteSize + weight (password.elim .null fun p => .str p) := by
      simp [ParsedRequest.payload, request, Json.setField, weight, weightFields, API_VERSION,
        NetworkAction.value]
      omega
    show _ < 2048
    omega
  | _ => decide

/-- The bytes of a request are read back as the request. -/
theorem loadsBytes_payload [Json.Nesting] (codecs : Codecs) (r : ParsedRequest) :
    loadsBytes codecs (serialized r.payload) = .ok r.payload := by
  obtain ⟨fs, hfs⟩ := payload_cons r
  exact loadsBytes_dumps codecs ⟨rfl, rfl, rfl⟩ hfs (payload_plain r) (nesting_payload r)

/-- **The text holds no line feed.** -/
theorem newline_not_mem_serialized (r : ParsedRequest) :
    newlineByte ∉ serialized r.payload := by
  intro hmem
  obtain ⟨c, hc, heq⟩ := ascii_mem_encode (by decide) hmem
  have hindent : requestStyle.indent = none := rfl
  have hprint := Json.dumps_printable hindent (payload_plain r) c hc
  have hten : newlineByte.toNat = 10 := rfl
  have hlow : 0x20 ≤ c.toNat := hprint.1
  omega

/-- The surroundings can always answer. -/
theorem delivering_live (o : RecvOp) (s : Stream) (ho : delivering.pre o s) :
    ∃ r t, delivering.exec o s r t := by
  obtain ⟨startedAt, pending⟩ := s
  cases o with
  | monotonic =>
    cases startedAt with
    | none => exact ⟨_, _, .start pending 0⟩
    | some start =>
      exact ⟨_, _, .tick pending start start (Int.lt_add_of_pos_right start (by decide))⟩
  | recv timeout limit =>
    have hlimit : 0 < limit := ho
    cases pending with
    | nil => exact ⟨_, _, .closed timeout limit startedAt⟩
    | cons b rest => exact ⟨_, _, .chunk timeout limit startedAt [b] rest (by simp) hlimit⟩

/-- The server gets the request that the client was asked for. -/
theorem receiveParsed_wp [Json.Nesting] (codecs : Codecs) (hr : r.Accepted) :
    (receiveParsed codecs).wp delivering (fun parsed _ => parsed = r) (fun _ _ => False)
      ⟨none, serialized r.payload ++ [newlineByte]⟩ := by
  have hne : serialized r.payload ≠ [] := by
    obtain ⟨fs, hfs⟩ := payload_cons r
    have hstyle : Compact requestStyle := ⟨rfl, rfl, rfl⟩
    obtain ⟨rest, hrest⟩ := dumps_apiVersion hstyle (.str API_VERSION) fs
    rw [serialized, hfs, hrest]
    simp [String.utf8EncodeChar_ne_nil]
  have hreceive := receiveRequest_wp (newline_not_mem_serialized r) (length_payload_lt hr) hne
  refine Prog.wp_bind.mpr (Prog.wp_mono hreceive ?_ fun _ _ h => h)
  rintro data t rfl
  rw [loadsBytes_payload]
  show (Prog.ofExcept (parseRequest r.payload) : RecvProg ParsedRequest).wp _ _ _ _
  rw [parseRequest_payload hr]
  exact fun _ _ => rfl

/-- **The server reads what the client wrote.** For every request whose credentials pass the
validators, the client sends one line, terminated by the only line feed and shorter than the
server's limit; and however that line is cut into chunks, receiving, decoding and parsing it comes to
an end and returns the request. -/
theorem request_received [Json.Nesting] (codecs : Codecs) (r : ParsedRequest) (hr : r.Accepted) :
    ∃ line, send r = .ok (line ++ [newlineByte]) ∧ newlineByte ∉ line ∧
      (line ++ [newlineByte]).length ≤ MAX_REQUEST_BYTES ∧
      (∃ out t, (receiveParsed codecs).Runs delivering ⟨none, line ++ [newlineByte]⟩ out t) ∧
      ∀ out t, (receiveParsed codecs).Runs delivering ⟨none, line ++ [newlineByte]⟩ out t →
        out = .ok r := by
  have hwp := receiveParsed_wp codecs hr
  have hsize : (serialized r.payload ++ [newlineByte]).length ≤ MAX_REQUEST_BYTES := by
    have hlt := length_payload_lt hr
    rw [List.length_append, List.length_singleton]
    omega
  refine ⟨_, send_accepted hr, newline_not_mem_serialized r, hsize,
    Prog.wp_exists_runs delivering_live hwp, ?_⟩
  intro out t hrun
  obtain ⟨hok, herror⟩ := Prog.wp_runs hwp hrun
  cases out with
  | ok parsed => rw [hok parsed rfl]
  | error e => exact absurd (herror e rfl) id

attribute [local instance] Json.Nesting.default in
theorem request_received_escaped :
    (ParsedRequest.connect "cave" (some "pass\t\"word\\")).Accepted ∧
      ∃ line, send (.connect "cave" (some "pass\t\"word\\")) = .ok (line ++ [newlineByte]) ∧
        newlineByte ∉ line ∧ (line ++ [newlineByte]).length ≤ MAX_REQUEST_BYTES ∧
        (∃ out t, (receiveParsed fun _ _ => .error .unicode).Runs delivering
          ⟨none, line ++ [newlineByte]⟩ out t) ∧
        ∀ out t, (receiveParsed fun _ _ => .error .unicode).Runs delivering
          ⟨none, line ++ [newlineByte]⟩ out t → out = .ok (.connect "cave" (some "pass\t\"word\\")) := by
  have haccepted : (ParsedRequest.connect "cave" (some "pass\t\"word\\")).Accepted := by
    refine ⟨by decide, ?_⟩
    rintro p ⟨⟩
    decide
  exact ⟨haccepted, request_received _ _ haccepted⟩

end Rave
