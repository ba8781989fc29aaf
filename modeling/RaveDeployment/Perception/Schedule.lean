import RaveDeployment.Lib.Pacing
import RaveDeployment.Perception.Accounting

/-!
# The due times of the decode thread

`decode_worker` from the frame it has popped to its decision on it, in exact time and for any
period: one step for each frame. A frame is rate-limited, dropped as stale or accepted, and only an
accepted one moves `next_due`, by a period and then by as many as it takes to be no more than a
period behind the clock. The accepted frames are paced, and the pipeline decides on its frames as
the worker does.
-/

namespace Rave

namespace Perception

open Pacing

/-- A popped frame: when it was captured, and what the clock reads when it is eligible. -/
structure Frame where
  arrival : ℚ
  now : ℚ
  deriving DecidableEq

/-- What `decode_worker` keeps from frame to frame. -/
structure Worker where
  nextDue : Option ℚ := none
  rateLimited : Nat := 0
  staleDrops : Nat := 0
  accepted : List Frame := []
  deriving DecidableEq

/-- `while next_due < now - PERIOD_S`, for at most as many rounds as there is fuel. -/
def catchUp (period now : ℚ) : Nat → ℚ → Option ℚ
  | 0, _ => none
  | fuel + 1, nextDue =>
    if nextDue < now - period then catchUp period now fuel (nextDue + period) else some nextDue

def schedule (period : ℚ) (fuel : Nat) (w : Worker) (frame : Frame) : Option Worker :=
  let nextDue := w.nextDue.getD frame.arrival
  if frame.arrival < nextDue then
    some { w with nextDue := some nextDue, rateLimited := w.rateLimited + 1 }
  else
    let ageMs := (frame.now - frame.arrival) * ((1000 : ℕ) : ℚ)
    if maxDecodeStartAgeMs < ageMs then
      some { w with nextDue := some nextDue, staleDrops := w.staleDrops + 1 }
    else
      (catchUp period frame.now fuel (nextDue + period)).map fun nextDue =>
        { w with nextDue := some nextDue, accepted := w.accepted ++ [frame] }

def decodeWorker (period : ℚ) (fuel : Nat) (frames : List Frame) : Option Worker :=
  frames.foldlM (schedule period fuel) {}

/-! ## The loop

The catch-up loop ends, since each round adds a period to the due time. -/

/-- The loop ends with fuel for the rounds that are missing. -/
theorem catchUp_isSome {period now : ℚ} {rounds fuel : Nat} {nextDue : ℚ} (hfuel : rounds < fuel)
    (hreach : now - period ≤ nextDue + rounds * period) :
    (catchUp period now fuel nextDue).isSome := by
  induction rounds generalizing fuel nextDue with
  | zero =>
    obtain ⟨fuel, rfl⟩ := Nat.exists_eq_succ_of_ne_zero (Nat.ne_of_gt hfuel)
    rw [Nat.cast_zero, zero_mul, add_zero] at hreach
    rw [catchUp, if_neg (not_lt.mpr hreach)]
    rfl
  | succ rounds ih =>
    obtain ⟨fuel, rfl⟩ := Nat.exists_eq_succ_of_ne_zero (Nat.ne_of_gt (by omega : 0 < fuel))
    rw [catchUp]
    split
    · apply ih (by omega)
      rw [Nat.cast_add, Nat.cast_one] at hreach
      linarith
    · rfl

theorem catchUp_mono {period now : ℚ} {fuel fuel' : Nat} {nextDue due : ℚ}
    (h : catchUp period now fuel nextDue = some due) (hle : fuel ≤ fuel') :
    catchUp period now fuel' nextDue = some due := by
  induction fuel generalizing fuel' nextDue with
  | zero => cases h
  | succ fuel ih =>
    obtain ⟨fuel', rfl⟩ := Nat.exists_eq_succ_of_ne_zero (Nat.ne_of_gt (by omega : 0 < fuel'))
    rw [catchUp] at h ⊢
    split at h
    · next hlt =>
      rw [if_pos hlt]
      exact ih h (by omega)
    · next hlt =>
      rw [if_neg hlt]
      exact h

/-- **The loop ends**: what `next_due` is behind is some number of periods. -/
theorem exists_catchUp {period : ℚ} (hperiod : 0 < period) (now nextDue : ℚ) :
    ∃ rounds due, ∀ fuel, rounds < fuel → catchUp period now fuel nextDue = some due := by
  obtain ⟨rounds, hrounds⟩ := Archimedean.arch (now - period - nextDue) hperiod
  rw [nsmul_eq_mul] at hrounds
  have hsome : (catchUp period now (rounds + 1) nextDue).isSome :=
    catchUp_isSome (Nat.lt_succ_self rounds) (by linarith)
  obtain ⟨due, hdue⟩ := Option.isSome_iff_exists.mp hsome
  exact ⟨rounds, due, fun fuel hfuel => catchUp_mono hdue hfuel⟩

/-- The due time that the loop ends with is no earlier, and at most a period behind the clock. -/
theorem catchUp_spec {period now : ℚ} {fuel : Nat} {nextDue due : ℚ} (hperiod : 0 < period)
    (h : catchUp period now fuel nextDue = some due) : nextDue ≤ due ∧ now - period ≤ due := by
  induction fuel generalizing nextDue with
  | zero => cases h
  | succ fuel ih =>
    rw [catchUp] at h
    split at h
    · obtain ⟨hle, hbehind⟩ := ih h
      exact ⟨by linarith, hbehind⟩
    · next hlt =>
      rw [← Option.some.inj h]
      exact ⟨le_refl _, not_lt.mp hlt⟩

/-! ## One frame

A frame is too early, too old, or accepted. With enough fuel the worker decides one of them, and the
fuel does not matter. -/

/-- What `decode_worker` does with a frame. -/
inductive Decides (period : ℚ) (w : Worker) (frame : Frame) : Worker → Prop where
  | rateLimited (hearly : frame.arrival < w.nextDue.getD frame.arrival) :
      Decides period w frame
        { w with nextDue := w.nextDue.getD frame.arrival, rateLimited := w.rateLimited + 1 }
  | stale (hdue : w.nextDue.getD frame.arrival ≤ frame.arrival)
      (hstale : maxDecodeStartAgeMs < (frame.now - frame.arrival) * ((1000 : ℕ) : ℚ)) :
      Decides period w frame
        { w with nextDue := w.nextDue.getD frame.arrival, staleDrops := w.staleDrops + 1 }
  | accepted {fuel : Nat} {due : ℚ} (hdue : w.nextDue.getD frame.arrival ≤ frame.arrival)
      (hfresh : (frame.now - frame.arrival) * ((1000 : ℕ) : ℚ) ≤ maxDecodeStartAgeMs)
      (hloop : catchUp period frame.now fuel (w.nextDue.getD frame.arrival + period) = some due) :
      Decides period w frame { w with nextDue := some due, accepted := w.accepted ++ [frame] }

/-- A decision is what the worker comes to, with any fuel that is enough. -/
theorem Decides.schedule {period : ℚ} {w v : Worker} {frame : Frame}
    (h : Decides period w frame v) :
    ∃ rounds, ∀ fuel, rounds < fuel → Perception.schedule period fuel w frame = some v := by
  cases h with
  | rateLimited hearly =>
    refine ⟨0, fun fuel _ => ?_⟩
    unfold Perception.schedule
    simp only
    rw [if_pos hearly]
  | stale hdue hstale =>
    refine ⟨0, fun fuel _ => ?_⟩
    unfold Perception.schedule
    simp only
    rw [if_neg (not_lt.mpr hdue), if_pos hstale]
  -- the loop that catches up ends after so many rounds
  | @accepted rounds due hdue hfresh hloop =>
    refine ⟨rounds, fun fuel hfuel => ?_⟩
    unfold Perception.schedule
    simp only
    rw [if_neg (not_lt.mpr hdue), if_neg (not_lt.mpr hfresh), catchUp_mono hloop hfuel.le]
    rfl

theorem exists_decides {period : ℚ} (hperiod : 0 < period) (w : Worker) (frame : Frame) :
    ∃ v, Decides period w frame v := by
  by_cases hearly : frame.arrival < w.nextDue.getD frame.arrival
  · exact ⟨_, .rateLimited hearly⟩
  by_cases hstale : maxDecodeStartAgeMs < (frame.now - frame.arrival) * ((1000 : ℕ) : ℚ)
  · exact ⟨_, .stale (not_lt.mp hearly) hstale⟩
  obtain ⟨rounds, due, hloop⟩ :=
    exists_catchUp hperiod frame.now (w.nextDue.getD frame.arrival + period)
  exact ⟨_, .accepted (not_lt.mp hearly) (not_lt.mp hstale) (hloop _ (Nat.lt_succ_self rounds))⟩

/-! ## A run of frames

The decisions one after the other. -/

/-- The last frame is decided after the others. -/
theorem decodeWorker_append (period : ℚ) (fuel : Nat) (frames : List Frame) (frame : Frame) :
    decodeWorker period fuel (frames ++ [frame])
      = (decodeWorker period fuel frames).bind fun w => schedule period fuel w frame := by
  unfold decodeWorker
  rw [List.foldlM_append]
  simp

/-- A run of the worker: each frame is decided on with what the frames before it left. -/
inductive Decided (period : ℚ) : List Frame → Worker → Prop where
  | nil : Decided period [] {}
  | concat {frames : List Frame} {frame : Frame} {w v : Worker} (run : Decided period frames w)
      (hframe : Decides period w frame v) : Decided period (frames ++ [frame]) v

/-- With enough fuel the worker runs to the end of the list. -/
theorem Decided.decodeWorker {period : ℚ} {frames : List Frame} {w : Worker}
    (run : Decided period frames w) :
    ∃ rounds, ∀ fuel, rounds < fuel → Perception.decodeWorker period fuel frames = some w := by
  induction run with
  | nil => exact ⟨0, fun _ _ => rfl⟩
  | concat run hframe ih =>
    obtain ⟨before, hbefore⟩ := ih
    obtain ⟨rounds, hrounds⟩ := hframe.schedule
    refine ⟨max before rounds, fun fuel hfuel => ?_⟩
    rw [decodeWorker_append, hbefore fuel (by omega), Option.bind_some]
    exact hrounds fuel (by omega)

/-- **The worker decides on every list of frames.** -/
theorem exists_decided {period : ℚ} (hperiod : 0 < period) (frames : List Frame) :
    ∃ w, Decided period frames w := by
  induction frames using List.reverseRecOn with
  | nil => exact ⟨{}, .nil⟩
  | append_singleton frames frame ih =>
    obtain ⟨w, hw⟩ := ih
    obtain ⟨v, hv⟩ := exists_decides hperiod w frame
    exact ⟨v, .concat hw hv⟩

/-! ## The accepted frames

They are paced by the due times, so that no window of time holds many of them. -/

/-- The accepted frames with the due times they were accepted at. -/
structure Worker.PacedBy (period : ℚ) (w : Worker) (xs : List (Admission ℚ)) : Prop where
  paced : Paced period xs
  arrivals : xs.map Admission.arrival = w.accepted.map Frame.arrival
  ahead : ∀ x ∈ xs, ∃ due, w.nextDue = some due ∧ Spaced period x due
  fresh : ∀ frame ∈ w.accepted,
    (frame.now - frame.arrival) * ((1000 : ℕ) : ℚ) ≤ maxDecodeStartAgeMs

/-- A frame that is not accepted leaves a due time that was set as it was. -/
theorem Worker.PacedBy.ahead_getD {period : ℚ} {w : Worker} {xs : List (Admission ℚ)}
    (h : w.PacedBy period xs) (arrival : ℚ) :
    ∀ x ∈ xs, Spaced period x (w.nextDue.getD arrival) := by
  intro x hx
  obtain ⟨due, hdue, hspaced⟩ := h.ahead x hx
  rw [hdue, Option.getD_some]
  exact hspaced

/-- A decision keeps the pace. -/
theorem Decides.pacedBy {period : ℚ} {w v : Worker} {frame : Frame} {xs : List (Admission ℚ)}
    (h : Decides period w frame v) (hperiod : 0 < period) (hclock : frame.arrival ≤ frame.now)
    (hw : w.PacedBy period xs) : ∃ ys, v.PacedBy period ys := by
  cases h with
  | rateLimited | stale =>
    exact ⟨xs, hw.paced, hw.arrivals, fun x hx => ⟨_, rfl, hw.ahead_getD frame.arrival x hx⟩,
      hw.fresh⟩
  | @accepted fuel due hdue hfresh hloop =>
    -- the next frame is due one period after this one at the earliest
    obtain ⟨hnext, hbehind⟩ := catchUp_spec hperiod hloop
    refine ⟨xs ++ [⟨w.nextDue.getD frame.arrival, frame.arrival⟩], ?_, ?_, ?_, ?_⟩
    · exact hw.paced.concat hdue (hw.ahead_getD frame.arrival)
    · rw [List.map_append, List.map_append, hw.arrivals]
      rfl
    · intro x hx
      refine ⟨due, rfl, ?_⟩
      rcases List.mem_append.mp hx with hin | hin
      · exact (hw.ahead_getD frame.arrival x hin).mono (by linarith)
      · rw [List.mem_singleton.mp hin]
        exact ⟨hnext, by linarith⟩
    · intro f hf
      rcases List.mem_append.mp hf with hin | hin
      · exact hw.fresh f hin
      · rw [List.mem_singleton.mp hin]
        exact hfresh

/-- A run of decisions keeps the pace. -/
theorem Decided.pacedBy {period : ℚ} {frames : List Frame} {w : Worker}
    (run : Decided period frames w) (hperiod : 0 < period)
    (hclock : ∀ frame ∈ frames, frame.arrival ≤ frame.now) : ∃ xs, w.PacedBy period xs := by
  induction run with
  | nil =>
    exact ⟨[], Paced.nil period, rfl, fun _ hx => absurd hx List.not_mem_nil,
      fun _ hf => absurd hf List.not_mem_nil⟩
  | concat run hframe ih =>
    obtain ⟨xs, hxs⟩ := ih fun f hf => hclock f (List.mem_append_left _ hf)
    exact hframe.pacedBy hperiod (hclock _ (List.mem_append_right _ List.mem_cons_self)) hxs

/-- A bound on the frames accepted within a window. -/
theorem Worker.PacedBy.window_le {period : ℚ} {w : Worker} {xs : List (Admission ℚ)}
    (h : w.PacedBy period xs) (hperiod : 0 < period) (start length : ℚ) :
    (inWindow start length (w.accepted.map Frame.arrival)).length ≤ ⌊length / period⌋₊ + 3 := by
  rw [← h.arrivals]
  exact h.paced.window_le hperiod start length

/-- No accepted frame is older than the bound. -/
theorem Worker.PacedBy.age_le {period : ℚ} {w : Worker} {xs : List (Admission ℚ)}
    (h : w.PacedBy period xs) {frame : Frame} (hframe : frame ∈ w.accepted) :
    frame.now - frame.arrival ≤ 5 / 1000 := by
  have hage : (frame.now - frame.arrival) * 1000 ≤ 5 := by
    simpa [maxDecodeStartAgeMs] using h.fresh frame hframe
  rw [le_div_iff₀ (by norm_num)]
  exact hage

/-- **The rate is bounded after any stall, and only fresh frames are accepted.** The loop ends
whatever it starts from, and so does the worker on every list of frames, in whatever order they
arrived. -/
theorem decodeWorker_bounded {period : ℚ} (hperiod : 0 < period) (frames : List Frame)
    (hclock : ∀ frame ∈ frames, frame.arrival ≤ frame.now) :
    (∀ now nextDue, ∃ rounds due, ∀ fuel, rounds < fuel →
      catchUp period now fuel nextDue = some due) ∧
    ∃ rounds w, (∀ fuel, rounds < fuel → decodeWorker period fuel frames = some w) ∧
      (∀ frame ∈ w.accepted, frame.now - frame.arrival ≤ 5 / 1000) ∧
      ∀ start length, (inWindow start length (w.accepted.map Frame.arrival)).length
        ≤ ⌊length / period⌋₊ + 3 := by
  refine ⟨exists_catchUp hperiod, ?_⟩
  obtain ⟨w, run⟩ := exists_decided hperiod frames
  obtain ⟨rounds, hrounds⟩ := run.decodeWorker
  obtain ⟨xs, hpaced⟩ := run.pacedBy hperiod hclock
  exact ⟨rounds, w, hrounds, fun frame hframe => hpaced.age_le hframe,
    hpaced.window_le hperiod⟩

def afterStall : List Frame :=
  [⟨0, 0⟩, ⟨2, 2⟩, ⟨2 + 1 / 100, 2 + 1 / 100⟩, ⟨2 + 2 / 100, 2 + 2 / 100⟩,
    ⟨2 + 3 / 100, 2 + 3 / 100⟩]

-- the first three of them are accepted: no smaller constant would do
example : (decodeWorker (1 / 2) 10 afterStall).map
    (fun w => (inWindow 2 (2 / 100) (w.accepted.map Frame.arrival)).length) = some 3 := by
  decide +kernel

theorem decodeWorker_bounded_afterStall :
    ∃ rounds w, (∀ fuel, rounds < fuel → decodeWorker (1 / 2) fuel afterStall = some w) ∧
      (∀ frame ∈ w.accepted, frame.now - frame.arrival ≤ 5 / 1000) ∧
      ∀ start length, (inWindow start length (w.accepted.map Frame.arrival)).length
        ≤ ⌊length / (1 / 2)⌋₊ + 3 := by
  exact (decodeWorker_bounded (by norm_num) afterStall (by decide +kernel)).2

/-! ## The pipeline decides as the worker does

The decoding thread of the pipeline, which looks at the clock in between, takes the worker's
decisions. -/

variable {Jpeg Tensor : Type}

/-- How far the decode thread is with the frame it holds, beside a worker that has decided on the
frames before it. -/
def DecodePc.Deciding (w : Worker) (nextDue : Option ℚ) : DecodePc Jpeg Tensor ℚ → Prop
  | .age _ arrival =>
    nextDue = some (w.nextDue.getD arrival) ∧ w.nextDue.getD arrival ≤ arrival
  | .pace _ arrival now =>
    nextDue = some (w.nextDue.getD arrival) ∧ w.nextDue.getD arrival ≤ arrival ∧
      arrival ≤ now ∧ (now - arrival) * ((1000 : ℕ) : ℚ) ≤ maxDecodeStartAgeMs
  | .catchUp _ arrival now =>
    w.nextDue.getD arrival ≤ arrival ∧
      arrival ≤ now ∧ (now - arrival) * ((1000 : ℕ) : ℚ) ≤ maxDecodeStartAgeMs ∧
      ∃ rounds due, nextDue = some due ∧ ∀ fuel,
        Perception.catchUp periodS now (fuel + rounds) (w.nextDue.getD arrival + periodS)
          = Perception.catchUp periodS now fuel due
  | _ => nextDue = w.nextDue

/-- A frame decided on and not yet counted as rate-limited. -/
def DecodePc.limited : DecodePc Jpeg Tensor ℚ → Nat
  | .rateLimited => 1
  | _ => 0

def DecodePc.dropped : DecodePc Jpeg Tensor ℚ → Nat
  | .stale => 1
  | _ => 0

def DecodePc.admitted : DecodePc Jpeg Tensor ℚ → Nat
  | .attempt _ _ => 1
  | _ => 0

/-- The arrival of the frame that the decode thread has accepted and not yet passed on. -/
def DecodePc.acceptedArrivals : DecodePc Jpeg Tensor ℚ → List ℚ
  | .attempt _ arrival | .imdecode _ arrival | .publish _ arrival => [arrival]
  | _ => []

/-- The arrivals of the accepted frames that are in the pipeline or have left it inferred. -/
def State.acceptedArrivals (s : State Jpeg Tensor ℚ) : List ℚ :=
  s.inferredArrivals ++ s.main.arrivals ++ slotArrivals s.latestPrepared
    ++ s.decode.acceptedArrivals

/-- The counters of the pipeline are those of the worker, up to the frame in hand. -/
structure Follows (s : State Jpeg Tensor ℚ) (w : Worker) : Prop where
  deciding : s.decode.Deciding w s.nextDue
  rateLimited : s.stats.rateLimited + s.decode.limited = w.rateLimited
  staleDrops : s.stats.staleDrops + s.decode.dropped = w.staleDrops
  attempts : s.stats.decodeAttempts + s.decode.admitted = w.accepted.length
  arrivals : s.acceptedArrivals.Sublist (w.accepted.map Frame.arrival)

/-- The clock the decode thread reads is not behind the frame it holds. -/
def ahead (s : State Jpeg Tensor ℚ) : Action Jpeg Tensor ℚ → Bool
  | .decode (.clock now) =>
    match s.decode with
    | .age _ arrival => decide (arrival ≤ now)
    | _ => true
  | _ => true

/-- The capturing thread decides nothing. -/
theorem CaptureMove.follows {a : Answer Jpeg Tensor ℚ} {s t : State Jpeg Tensor ℚ} {w : Worker}
    (h : CaptureMove s a t) (hs : Follows s w) : Follows t w := by
  cases h with
  | silent | stamp | store | count =>
    exact ⟨hs.deciding, hs.rateLimited, hs.staleDrops, hs.attempts, hs.arrivals⟩

theorem MainMove.follows {s t : State Jpeg Tensor ℚ} {w : Worker} (h : MainMove s t)
    (hs : Follows s w) : Follows t w := by
  have harrivals := hs.arrivals
  unfold State.acceptedArrivals at harrivals
  cases h with
  | silent pc stop event harr =>
    refine ⟨hs.deciding, hs.rateLimited, hs.staleDrops, hs.attempts, ?_⟩
    unfold State.acceptedArrivals
    rw [harr]
    exact harrivals
  | take endTime prepared arrival hpc hslot =>
    refine ⟨hs.deciding, hs.rateLimited, hs.staleDrops, hs.attempts, ?_⟩
    rw [hpc, hslot] at harrivals
    simpa [State.acceptedArrivals, MainPc.arrivals, slotArrivals] using harrivals
  | count endTime arrival hpc =>
    refine ⟨hs.deciding, hs.rateLimited, hs.staleDrops, hs.attempts, ?_⟩
    rw [hpc] at harrivals
    simpa [State.acceptedArrivals, MainPc.arrivals] using harrivals

/-- A step of the decode thread that decides on no frame. -/
theorem Follows.move {s t : State Jpeg Tensor ℚ} {w : Worker} {pc : DecodePc Jpeg Tensor ℚ}
    (hs : Follows s w) (hpc : s.decode = pc) (hstats : t.stats = s.stats)
    (hmain : t.main = s.main) (hslot : t.latestPrepared = s.latestPrepared)
    (hinferred : t.inferredArrivals = s.inferredArrivals)
    (hdeciding : t.decode.Deciding w t.nextDue)
    (hcounts : t.decode.limited = pc.limited ∧ t.decode.dropped = pc.dropped ∧
      t.decode.admitted = pc.admitted)
    (harrivals : t.decode.acceptedArrivals.Sublist pc.acceptedArrivals) : Follows t w := by
  refine ⟨hdeciding, ?_, ?_, ?_, ?_⟩
  · rw [hstats, hcounts.1, ← hpc]
    exact hs.rateLimited
  · rw [hstats, hcounts.2.1, ← hpc]
    exact hs.staleDrops
  · rw [hstats, hcounts.2.2, ← hpc]
    exact hs.attempts
  · refine List.Sublist.trans ?_ hs.arrivals
    unfold State.acceptedArrivals
    rw [hmain, hslot, hinferred, hpc]
    exact (List.Sublist.refl _).append harrivals

/-- A step of the decode thread decides on no frame, or on one as the worker does. -/
theorem decodeStep_follows {a : Answer Jpeg Tensor ℚ} {s t : State Jpeg Tensor ℚ} {w : Worker}
    (h : decodeStep a s = some t) (hahead : ahead s (.decode a) = true) (hs : Follows s w) :
    Follows t w ∨
    ∃ frame v, frame.arrival ≤ frame.now ∧ Decides periodS w frame v ∧ Follows t v := by
  have hdeciding := hs.deciding
  have hlimited := hs.rateLimited
  have hdropped := hs.staleDrops
  have hattempts := hs.attempts
  have harrivals := hs.arrivals
  unfold State.acceptedArrivals at harrivals
  unfold decodeStep at h
  split at h
  · next hpc =>
    rw [hpc] at hdeciding
    left
    rw [← Option.some.inj h]
    split
    · exact hs.move hpc rfl rfl rfl rfl hdeciding ⟨rfl, rfl, rfl⟩ (List.Sublist.refl _)
    · exact hs.move hpc rfl rfl rfl rfl hdeciding ⟨rfl, rfl, rfl⟩ (List.Sublist.refl _)
  · next hpc =>
    rw [hpc] at hdeciding
    left
    rw [← Option.some.inj h]
    exact hs.move hpc rfl rfl rfl rfl hdeciding ⟨rfl, rfl, rfl⟩ (List.Sublist.refl _)
  · next hpc =>
    rw [hpc] at hdeciding
    left
    rw [← Option.some.inj h]
    exact hs.move hpc rfl rfl rfl rfl hdeciding ⟨rfl, rfl, rfl⟩ (List.Sublist.refl _)
  · next hpc =>
    rw [hpc] at hdeciding
    left
    rw [← Option.some.inj h]
    split
    · exact hs.move hpc rfl rfl rfl rfl hdeciding ⟨rfl, rfl, rfl⟩ (List.Sublist.refl _)
    · exact hs.move hpc rfl rfl rfl rfl hdeciding ⟨rfl, rfl, rfl⟩ (List.Sublist.refl _)
  · next hpc =>
    rw [hpc] at hdeciding
    left
    split at h
    · rw [← Option.some.inj h]
      exact hs.move hpc rfl rfl rfl rfl hdeciding ⟨rfl, rfl, rfl⟩ (List.Sublist.refl _)
    · rw [← Option.some.inj h]
      exact hs.move hpc rfl rfl rfl rfl hdeciding ⟨rfl, rfl, rfl⟩ (List.Sublist.refl _)
  · next jpeg arrival hpc =>
    rw [hpc] at hdeciding hlimited hdropped hattempts harrivals
    have hdue : s.nextDue = w.nextDue := hdeciding
    rw [← Option.some.inj h]
    split
    · next hearly =>
      -- a frame that is rate-limited needs no clock
      rw [hdue] at hearly
      right
      refine ⟨⟨arrival, arrival⟩, _, le_refl arrival, .rateLimited hearly, ?_⟩
      refine ⟨?_, ?_, hdropped, hattempts, harrivals⟩
      · exact congrArg (fun due : Option ℚ => some (due.getD arrival)) hdue
      · exact congrArg (· + 1) hlimited
    · next hnot =>
      rw [hdue] at hnot
      left
      refine hs.move hpc rfl rfl rfl rfl ?_ ⟨rfl, rfl, rfl⟩ (List.Sublist.refl _)
      exact ⟨congrArg (fun due : Option ℚ => some (due.getD arrival)) hdue, not_lt.mp hnot⟩
  · next hpc =>
    rw [hpc] at hdeciding hlimited hdropped hattempts harrivals
    left
    rw [← Option.some.inj h]
    exact ⟨hdeciding, hlimited, hdropped, hattempts, harrivals⟩
  · next jpeg arrival now hpc =>
    have hclock : arrival ≤ now := by
      unfold ahead at hahead
      simp only [hpc] at hahead
      exact of_decide_eq_true hahead
    rw [hpc] at hdeciding hlimited hdropped hattempts harrivals
    obtain ⟨hdue, hle⟩ := hdeciding
    rw [← Option.some.inj h]
    split
    · next hstale =>
      right
      refine ⟨⟨arrival, now⟩, _, hclock, .stale hle hstale, ?_⟩
      refine ⟨hdue, hlimited, ?_, hattempts, harrivals⟩
      exact congrArg (· + 1) hdropped
    · next hfresh =>
      left
      exact hs.move hpc rfl rfl rfl rfl ⟨hdue, hle, hclock, not_lt.mp hfresh⟩ ⟨rfl, rfl, rfl⟩
        (List.Sublist.refl _)
  · next hpc =>
    rw [hpc] at hdeciding hlimited hdropped hattempts harrivals
    left
    rw [← Option.some.inj h]
    exact ⟨hdeciding, hlimited, hdropped, hattempts, harrivals⟩
  · next jpeg arrival now hpc =>
    rw [hpc] at hdeciding
    obtain ⟨hdue, hle, hclock, hfresh⟩ := hdeciding
    left
    rw [← Option.some.inj h]
    refine hs.move hpc rfl rfl rfl rfl ?_ ⟨rfl, rfl, rfl⟩ (List.Sublist.refl _)
    refine ⟨hle, hclock, hfresh, 0, w.nextDue.getD arrival + periodS, ?_, fun _ => rfl⟩
    exact congrArg (Option.map (· + periodS)) hdue
  · next jpeg arrival now hpc =>
    rw [hpc] at hdeciding hlimited hdropped hattempts harrivals
    obtain ⟨hle, hclock, hfresh, rounds, due, hdue, hloop⟩ := hdeciding
    rw [hdue] at h
    split at h
    · next hbehind =>
      -- one more round of the loop
      have hlt : due < now - periodS := by simpa using hbehind
      left
      rw [← Option.some.inj h]
      refine hs.move hpc rfl rfl rfl rfl ?_ ?_ ?_
      · rw [hpc]
        refine ⟨hle, hclock, hfresh, rounds + 1, due + periodS, rfl, fun fuel => ?_⟩
        rw [← Nat.add_assoc, Nat.add_right_comm, hloop, Perception.catchUp, if_pos hlt]
      · rw [hpc]
        exact ⟨rfl, rfl, rfl⟩
      · rw [hpc]
    · next hnot =>
      have hge : ¬ due < now - periodS := by simpa using hnot
      have hends : catchUp periodS now (1 + rounds) (w.nextDue.getD arrival + periodS)
          = some due := by
        rw [hloop 1, catchUp, if_neg hge]
      right
      refine ⟨⟨arrival, now⟩, _, hclock, .accepted hle hfresh hends, ?_⟩
      rw [← Option.some.inj h]
      refine ⟨rfl, hlimited, hdropped, ?_, ?_⟩
      · rw [List.length_append]
        exact congrArg (· + 1) hattempts
      · rw [List.map_append]
        refine List.Sublist.append ?_ (List.Sublist.refl _)
        simpa [DecodePc.acceptedArrivals] using harrivals
  · next jpeg arrival hpc =>
    rw [hpc] at hdeciding hlimited hdropped hattempts harrivals
    left
    rw [← Option.some.inj h]
    refine ⟨hdeciding, hlimited, hdropped, ?_, harrivals⟩
    exact hattempts
  · next hpc =>
    rw [hpc] at hdeciding
    left
    rw [← Option.some.inj h]
    exact hs.move hpc rfl rfl rfl rfl hdeciding ⟨rfl, rfl, rfl⟩ (List.nil_sublist _)
  · next hpc =>
    rw [hpc] at hdeciding
    left
    rw [← Option.some.inj h]
    exact hs.move hpc rfl rfl rfl rfl hdeciding ⟨rfl, rfl, rfl⟩ (List.Sublist.refl _)
  · next hpc =>
    rw [hpc] at hdeciding hlimited hdropped hattempts harrivals
    left
    rw [← Option.some.inj h]
    exact ⟨hdeciding, hlimited, hdropped, hattempts, harrivals⟩
  · next prepared arrival hpc =>
    rw [hpc] at hdeciding hlimited hdropped hattempts harrivals
    left
    rw [← Option.some.inj h]
    refine ⟨hdeciding, hlimited, hdropped, hattempts, List.Sublist.trans ?_ harrivals⟩
    -- the frame published takes the place of the one overwritten
    simp [State.acceptedArrivals, DecodePc.acceptedArrivals, slotArrivals]
  · next hpc =>
    rw [hpc] at hdeciding hlimited hdropped hattempts harrivals
    left
    rw [← Option.some.inj h]
    exact ⟨hdeciding, hlimited, hdropped, hattempts, harrivals⟩
  · cases h

/-- **The pipeline decides on the frames it pops as the worker does**, in every run. -/
theorem exists_follows {as : List (Action Jpeg Tensor ℚ)} {s : State Jpeg Tensor ℚ}
    (run : (pipeline Jpeg Tensor ℚ).Run (fun s a => ahead s a = true) {} as s) :
    ∃ frames w, (∀ frame ∈ frames, frame.arrival ≤ frame.now) ∧ Decided periodS frames w ∧
      Follows s w := by
  -- the invariant: some frames were offered, and the pipeline follows the worker's decisions on
  -- them
  apply run.invariant (I := fun s => ∃ frames w, (∀ frame ∈ frames, frame.arrival ≤ frame.now) ∧
    Decided periodS frames w ∧ Follows s w)
  · refine ⟨[], {}, fun _ hf => absurd hf List.not_mem_nil, .nil, ?_⟩
    exact ⟨rfl, rfl, rfl, rfl, List.Sublist.refl _⟩
  · intro s a t hs hahead hstep
    obtain ⟨frames, w, hclock, hrun, hfollows⟩ := hs
    cases a with
    | capture a => exact ⟨frames, w, hclock, hrun, (captureStep_move hstep).follows hfollows⟩
    | main a => exact ⟨frames, w, hclock, hrun, (mainStep_move hstep).follows hfollows⟩
    | decode a =>
      rcases decodeStep_follows hstep hahead hfollows with hsame | ⟨frame, v, hle, hv, hfollows⟩
      · exact ⟨frames, w, hclock, hrun, hsame⟩
      · refine ⟨frames ++ [frame], v, ?_, hrun.concat hv, hfollows⟩
        intro f hf
        rcases List.mem_append.mp hf with hin | hin
        · exact hclock f hin
        · rw [List.mem_singleton.mp hin]
          exact hle

theorem periodS_pos : (0 : ℚ) < periodS := by
  norm_num [periodS, targetFps]

/-- **The frames inferred come at the rate of the worker**, in every run of the pipeline. -/
theorem inferred_window_le {as : List (Action Jpeg Tensor ℚ)} {s : State Jpeg Tensor ℚ}
    (run : (pipeline Jpeg Tensor ℚ).Run (fun s a => ahead s a = true) {} as s)
    (start length : ℚ) :
    (inWindow start length s.inferredArrivals).length ≤ ⌊length / periodS⌋₊ + 3 := by
  obtain ⟨frames, w, hclock, hrun, hfollows⟩ := exists_follows run
  obtain ⟨xs, hpaced⟩ := hrun.pacedBy periodS_pos hclock
  have hsub : s.inferredArrivals.Sublist (w.accepted.map Frame.arrival) := by
    refine List.Sublist.trans ?_ hfollows.arrivals
    unfold State.acceptedArrivals
    simp only [List.append_assoc]
    exact List.sublist_append_left _ _
  exact (hsub.filter _).length_le.trans (hpaced.window_le periodS_pos start length)

end Perception

end Rave
