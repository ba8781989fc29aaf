import RaveDeployment.Lib.System
import Mathlib

/-!
# The V5 pipeline: capture, decode and inference

`capture_worker`, `decode_worker` and the main loop of the benchmark as three threads over the
module's globals. A thread is where its program counter says; a step is one access to what the
threads share, with the thread's own computation up to it, and the two lock-protected exchanges are
one step each. What the camera, the clock, the JPEG decoder and the accelerator answer comes with
the action. A thread that an exception ends in the middle of an iteration takes no further step;
for the main loop, whose `finally` still runs, `stopping` remembers the frame.

Times are values of an ordered type with some arithmetic: nothing depends on how `float` rounds.
-/

namespace Rave

namespace Perception

section Constants

variable {T : Type} [Div T] [NatCast T]

/-- `TARGET_FPS`. -/
def targetFps : T := ((30 : ℕ) : T)

/-- `PERIOD_S`. -/
def periodS : T := ((1 : ℕ) : T) / targetFps

/-- `MAX_DECODE_START_AGE_MS`. -/
def maxDecodeStartAgeMs : T := ((5 : ℕ) : T)

/-- `CAMERA_STALL_TIMEOUT_S`. -/
def cameraStallTimeoutS : T := ((1 : ℕ) : T)

/-- `DURATION_S`. -/
def durationS : T := ((20 : ℕ) : T)

end Constants

structure Stats where
  captured : Nat := 0
  compressedOverwrites : Nat := 0
  rateLimited : Nat := 0
  staleDrops : Nat := 0
  decodeAttempts : Nat := 0
  decodeFailures : Nat := 0
  prepared : Nat := 0
  preparedOverwrites : Nat := 0
  inferred : Nat := 0
  deriving DecidableEq

/-! ## The program counters

Where each thread stands between two of its operations, with the values that it has read. -/

/-- Where the capturing thread stands. -/
inductive CapturePc (Jpeg T : Type) where
  | top
  | pull
  | stamp (jpeg : Jpeg)
  | store (jpeg : Jpeg) (arrival : T)
  | count
  | signal
  | done
  deriving DecidableEq

/-- Where the decoding thread stands. -/
inductive DecodePc (Jpeg Tensor T : Type) where
  | top
  | wait
  | clear
  | recheck
  | take
  | due (jpeg : Jpeg) (arrival : T)
  | rateLimited
  | age (jpeg : Jpeg) (arrival : T)
  | stale
  | pace (jpeg : Jpeg) (arrival now : T)
  | catchUp (jpeg : Jpeg) (arrival now : T)
  | attempt (jpeg : Jpeg) (arrival : T)
  | imdecode (jpeg : Jpeg) (arrival : T)
  | failed
  | publish (prepared : Tensor) (arrival : T)
  | count
  | done
  deriving DecidableEq

/-- An iteration of the main loop. -/
inductive LoopPc (Tensor T : Type) where
  | top
  | stalled
  | take
  | infer (prepared : Tensor) (arrival : T)
  | count (arrival : T)
  deriving DecidableEq

/-- `held` is the arrival of the frame that was being inferred when an exception left the loop. -/
inductive MainPc (Tensor T : Type) where
  | starting
  | timing
  | loop (endTime : T) (at_ : LoopPc Tensor T)
  | leaving
  | stopping (held : Option T)
  | finished (held : Option T)
  deriving DecidableEq

/-- The globals and the threads. `inferredArrivals` is no variable of the program: it records the
arrival of each frame counted as inferred, in order. -/
structure State (Jpeg Tensor T : Type) where
  stopEvent : Bool := false
  frameEvent : Bool := false
  latestCompressed : Option (Jpeg × T) := none
  latestPrepared : Option (Tensor × T) := none
  lastCaptureTime : Option T := none
  stats : Stats := {}
  nextDue : Option T := none
  capture : CapturePc Jpeg T := .top
  decode : DecodePc Jpeg Tensor T := .top
  main : MainPc Tensor T := .starting
  inferredArrivals : List T := []
  deriving DecidableEq

/-- What the surroundings answer to the step taken: a sample of the camera (nothing, one that cannot
be mapped, or its bytes), the clock, the decoded and prepared image, an exception. -/
inductive Answer (Jpeg Tensor T : Type) where
  | go
  | sample (s : Option (Option Jpeg))
  | clock (now : T)
  | image (half : Option Tensor)
  | error
  deriving DecidableEq

/-- A step of one of the threads. -/
inductive Action (Jpeg Tensor T : Type) where
  | capture (a : Answer Jpeg Tensor T)
  | decode (a : Answer Jpeg Tensor T)
  | main (a : Answer Jpeg Tensor T)
  deriving DecidableEq

variable {Jpeg Tensor T : Type}

def occupied {α : Type} (slot : Option α) : Nat :=
  if slot.isSome then 1 else 0

/-! ## The threads

One operation of one thread at a time. What the camera, the decoder and the clock answer comes with
the step. -/

def captureStep (a : Answer Jpeg Tensor T) (s : State Jpeg Tensor T) :
    Option (State Jpeg Tensor T) :=
  match s.capture, a with
  | .top, .go => some { s with capture := if s.stopEvent then .done else .pull }
  | .pull, .sample none => some { s with capture := .top }
  | .pull, .sample (some none) => some { s with capture := .top }
  | .pull, .sample (some (some jpeg)) => some { s with capture := .stamp jpeg }
  | .stamp jpeg, .clock arrival =>
    some { s with lastCaptureTime := some arrival, capture := .store jpeg arrival }
  | .store jpeg arrival, .go =>
    some { s with
      stats.compressedOverwrites := s.stats.compressedOverwrites + occupied s.latestCompressed
      latestCompressed := some (jpeg, arrival)
      capture := .count }
  | .count, .go => some { s with stats.captured := s.stats.captured + 1, capture := .signal }
  | .signal, .go => some { s with frameEvent := true, capture := .top }
  | _, _ => none

variable [LinearOrder T] [Add T] [Sub T] [Mul T] [Div T] [NatCast T]

def decodeStep (a : Answer Jpeg Tensor T) (s : State Jpeg Tensor T) :
    Option (State Jpeg Tensor T) :=
  match s.decode, a with
  | .top, .go => some { s with decode := if s.stopEvent then .done else .wait }
  -- the wait ends with the event or after its timeout
  | .wait, .go => some { s with decode := .clear }
  | .clear, .go => some { s with frameEvent := false, decode := .recheck }
  | .recheck, .go => some { s with decode := if s.stopEvent then .done else .take }
  | .take, .go =>
    match s.latestCompressed with
    | none => some { s with decode := .top }
    | some (jpeg, arrival) => some { s with latestCompressed := none, decode := .due jpeg arrival }
  | .due jpeg arrival, .go =>
    let nextDue := s.nextDue.getD arrival
    some { s with
      nextDue := some nextDue
      decode := if arrival < nextDue then .rateLimited else .age jpeg arrival }
  | .rateLimited, .go =>
    some { s with stats.rateLimited := s.stats.rateLimited + 1, decode := .top }
  | .age jpeg arrival, .clock now =>
    let ageMs := (now - arrival) * ((1000 : ℕ) : T)
    some { s with
      decode := if maxDecodeStartAgeMs < ageMs then .stale else .pace jpeg arrival now }
  | .stale, .go => some { s with stats.staleDrops := s.stats.staleDrops + 1, decode := .top }
  | .pace jpeg arrival now, .go =>
    some { s with nextDue := s.nextDue.map (· + periodS), decode := .catchUp jpeg arrival now }
  | .catchUp jpeg arrival now, .go =>
    if s.nextDue.any (fun nextDue => decide (nextDue < now - periodS)) then
      some { s with nextDue := s.nextDue.map (· + periodS) }
    else some { s with decode := .attempt jpeg arrival }
  | .attempt jpeg arrival, .go =>
    some { s with
      stats.decodeAttempts := s.stats.decodeAttempts + 1, decode := .imdecode jpeg arrival }
  | .imdecode _ _, .image none => some { s with decode := .failed }
  | .imdecode _ arrival, .image (some prepared) =>
    some { s with decode := .publish prepared arrival }
  | .failed, .go =>
    some { s with stats.decodeFailures := s.stats.decodeFailures + 1, decode := .top }
  | .publish prepared arrival, .go =>
    some { s with
      stats.preparedOverwrites := s.stats.preparedOverwrites + occupied s.latestPrepared
      latestPrepared := some (prepared, arrival)
      decode := .count }
  | .count, .go => some { s with stats.prepared := s.stats.prepared + 1, decode := .top }
  | _, _ => none

/-- `verify_camera_not_stalled`, true when it raises. -/
def cameraStalled (lastCaptureTime : Option T) (now : T) : Bool :=
  match lastCaptureTime with
  | none => true
  | some t => decide (cameraStallTimeoutS < now - t)

/-- Where `raise_on_gstreamer_error` or a deadline raises, the action `error` does. -/
def mainStep (a : Answer Jpeg Tensor T) (s : State Jpeg Tensor T) :
    Option (State Jpeg Tensor T) :=
  match s.main, a with
  | .starting, .go =>
    some { s with main := if 0 < s.stats.captured then .timing else .starting }
  | .starting, .error => some { s with main := .stopping none }
  | .timing, .clock start => some { s with main := .loop (start + durationS) .top }
  | .loop endTime .top, .clock now =>
    some { s with main := if now < endTime then .loop endTime .stalled else .leaving }
  | .loop _ .stalled, .error => some { s with main := .stopping none }
  | .loop endTime .stalled, .clock now =>
    some { s with
      main := if cameraStalled s.lastCaptureTime now then .stopping none else .loop endTime .take }
  | .loop endTime .take, .go =>
    match s.latestPrepared with
    | none => some { s with main := .loop endTime .top }
    | some (prepared, arrival) =>
      some { s with latestPrepared := none, main := .loop endTime (.infer prepared arrival) }
  | .loop endTime (.infer _ arrival), .go =>
    some { s with main := .loop endTime (.count arrival) }
  | .loop _ (.infer _ arrival), .error => some { s with main := .stopping (some arrival) }
  | .loop endTime (.count arrival), .go =>
    some { s with
      stats.inferred := s.stats.inferred + 1
      inferredArrivals := s.inferredArrivals ++ [arrival]
      main := .loop endTime .top }
  -- the checks after the loop only decide whether `main` raises, and `finally` runs either way
  | .leaving, .go => some { s with main := .stopping none }
  | .leaving, .error => some { s with main := .stopping none }
  | .stopping held, .go =>
    some { s with stopEvent := true, frameEvent := true, main := .finished held }
  | _, _ => none

variable (Jpeg Tensor T) in
def pipeline : System (State Jpeg Tensor T) (Action Jpeg Tensor T) where
  init := {}
  step
    | .capture a, s => captureStep a s
    | .decode a, s => decodeStep a s
    | .main a, s => mainStep a s

end Perception

end Rave
