import RaveDeployment.Perception.Pipeline

/-!
# Every frame is accounted for once

A frame is at every moment in one place: held by the capture thread, in the compressed slot, held
by the decode thread, in the prepared slot, held by the main loop, or counted. The counters balance
up to what the threads hold (`Balanced`), and the arrivals of the frames still in the pipeline, with
the inferred ones before them, keep the order of capture (`Ordered`).
-/

namespace Rave

namespace Perception

variable {Jpeg Tensor T : Type}

/-! ## What the threads hold

Each frame that has been counted is somewhere: in a slot between two threads, in the hands of one of
them, or accounted for by a counter. -/

def CapturePc.uncounted : CapturePc Jpeg T → Nat
  | .count => 1
  | _ => 0

/-- A frame taken from the compressed slot and not yet counted. -/
def DecodePc.taken : DecodePc Jpeg Tensor T → Nat
  | .due _ _ | .rateLimited | .age _ _ | .stale | .pace _ _ _ | .catchUp _ _ _ | .attempt _ _ => 1
  | _ => 0

/-- A frame counted as a decode attempt without a result yet. -/
def DecodePc.attempted : DecodePc Jpeg Tensor T → Nat
  | .imdecode _ _ | .failed | .publish _ _ | .count => 1
  | _ => 0

def DecodePc.uncounted : DecodePc Jpeg Tensor T → Nat
  | .count => 1
  | _ => 0

/-- The arrival of the frame that a thread may still pass on. -/
def CapturePc.arrivals : CapturePc Jpeg T → List T
  | .store _ arrival => [arrival]
  | _ => []

/-- The arrival of the frame that the decoding thread works on. -/
def DecodePc.arrivals : DecodePc Jpeg Tensor T → List T
  | .due _ arrival | .age _ arrival | .pace _ arrival _ | .catchUp _ arrival _
  | .attempt _ arrival | .imdecode _ arrival | .publish _ arrival => [arrival]
  | _ => []

/-- The arrival of the frame the main loop has taken and not counted. -/
def MainPc.arrivals : MainPc Tensor T → List T
  | .loop _ (.infer _ arrival) | .loop _ (.count arrival) => [arrival]
  | .stopping held | .finished held => held.toList
  | _ => []

def slotArrivals {α : Type} (slot : Option (α × T)) : List T :=
  (slot.map Prod.snd).toList

/-! ## What a step can do

The steps of the three threads, each branch of their loops said once. -/

/-- The capture thread stamps a frame, stores it, counts it, or moves on holding nothing. -/
inductive CaptureMove (s : State Jpeg Tensor T) :
    Answer Jpeg Tensor T → State Jpeg Tensor T → Prop where
  | silent (a : Answer Jpeg Tensor T) (pc : CapturePc Jpeg T) (event : Bool)
      (hcount : pc.uncounted = s.capture.uncounted) (harr : pc.arrivals = s.capture.arrivals) :
      CaptureMove s a { s with capture := pc, frameEvent := event }
  | stamp (jpeg : Jpeg) (arrival : T) (hpc : s.capture = .stamp jpeg) :
      CaptureMove s (.clock arrival)
        { s with lastCaptureTime := some arrival, capture := .store jpeg arrival }
  | store (jpeg : Jpeg) (arrival : T) (hpc : s.capture = .store jpeg arrival) :
      CaptureMove s .go { s with
        stats.compressedOverwrites := s.stats.compressedOverwrites + occupied s.latestCompressed
        latestCompressed := some (jpeg, arrival)
        capture := .count }
  | count (hpc : s.capture = .count) :
      CaptureMove s .go
        { s with stats.captured := s.stats.captured + 1, capture := .signal }

/-- The inversion lemma of the capturing thread. -/
theorem captureStep_move {a : Answer Jpeg Tensor T} {s w : State Jpeg Tensor T}
    (h : captureStep a s = some w) : CaptureMove s a w := by
  -- most steps move the program counter and the event, with no frame more or less
  have silent : ∀ pc event, pc.uncounted = s.capture.uncounted →
      pc.arrivals = s.capture.arrivals →
      some { s with capture := pc, frameEvent := event } = some w →
      CaptureMove s a w := by
    intro pc event hcount harr hw
    rw [← Option.some.inj hw]
    exact .silent a pc event hcount harr
  unfold captureStep at h
  split at h
  · next hpc =>
    apply silent _ _ _ _ h
    · rw [hpc]
      split <;> rfl
    · rw [hpc]
      split <;> rfl
  · next hpc => exact silent .top _ (by rw [hpc]; rfl) (by rw [hpc]; rfl) h
  · next hpc => exact silent .top _ (by rw [hpc]; rfl) (by rw [hpc]; rfl) h
  · next jpeg hpc => exact silent (.stamp jpeg) _ (by rw [hpc]; rfl) (by rw [hpc]; rfl) h
  · next jpeg arrival hpc =>
    rw [← Option.some.inj h]
    exact .stamp jpeg arrival hpc
  · next jpeg arrival hpc =>
    rw [← Option.some.inj h]
    exact .store jpeg arrival hpc
  · next hpc =>
    rw [← Option.some.inj h]
    exact .count hpc
  · next hpc => exact silent .top true (by rw [hpc]; rfl) (by rw [hpc]; rfl) h
  · exact absurd h (by simp)

/-- One program counter leads to another with the same frame on the same side of the counters; the
arrival may be given up on the way. -/
structure DecodePc.Passes (pc pc' : DecodePc Jpeg Tensor T) : Prop where
  taken : pc'.taken = pc.taken
  attempted : pc'.attempted = pc.attempted
  uncounted : pc'.uncounted = pc.uncounted
  arrivals : pc'.arrivals.Sublist pc.arrivals

/-- The decode thread takes what the compressed slot holds, counts a frame one way or another,
stores a prepared one, or moves on. -/
inductive DecodeMove (s : State Jpeg Tensor T) : State Jpeg Tensor T → Prop where
  | silent (pc : DecodePc Jpeg Tensor T) (event : Bool) (nextDue : Option T)
      (hpass : s.decode.Passes pc) :
      DecodeMove s { s with decode := pc, frameEvent := event, nextDue := nextDue }
  | take (jpeg : Jpeg) (arrival : T) (hpc : s.decode = .take)
      (hslot : s.latestCompressed = some (jpeg, arrival)) :
      DecodeMove s { s with latestCompressed := none, decode := .due jpeg arrival }
  | rateLimited (hpc : s.decode = .rateLimited) :
      DecodeMove s { s with stats.rateLimited := s.stats.rateLimited + 1, decode := .top }
  | stale (hpc : s.decode = .stale) :
      DecodeMove s { s with stats.staleDrops := s.stats.staleDrops + 1, decode := .top }
  | attempt (jpeg : Jpeg) (arrival : T) (hpc : s.decode = .attempt jpeg arrival) :
      DecodeMove s { s with
        stats.decodeAttempts := s.stats.decodeAttempts + 1, decode := .imdecode jpeg arrival }
  | failed (hpc : s.decode = .failed) :
      DecodeMove s { s with stats.decodeFailures := s.stats.decodeFailures + 1, decode := .top }
  | publish (prepared : Tensor) (arrival : T) (hpc : s.decode = .publish prepared arrival) :
      DecodeMove s { s with
        stats.preparedOverwrites := s.stats.preparedOverwrites + occupied s.latestPrepared
        latestPrepared := some (prepared, arrival)
        decode := .count }
  | count (hpc : s.decode = .count) :
      DecodeMove s { s with stats.prepared := s.stats.prepared + 1, decode := .top }

/-- The main loop takes what the prepared slot holds, counts a frame as inferred, or moves on with
the frame it holds. -/
inductive MainMove (s : State Jpeg Tensor T) : State Jpeg Tensor T → Prop where
  | silent (pc : MainPc Tensor T) (stop event : Bool) (harr : pc.arrivals = s.main.arrivals) :
      MainMove s { s with main := pc, stopEvent := stop, frameEvent := event }
  | take (endTime : T) (prepared : Tensor) (arrival : T) (hpc : s.main = .loop endTime .take)
      (hslot : s.latestPrepared = some (prepared, arrival)) :
      MainMove s
        { s with latestPrepared := none, main := .loop endTime (.infer prepared arrival) }
  | count (endTime arrival : T) (hpc : s.main = .loop endTime (.count arrival)) :
      MainMove s { s with
        stats.inferred := s.stats.inferred + 1
        inferredArrivals := s.inferredArrivals ++ [arrival]
        main := .loop endTime .top }

section Steps

variable [LinearOrder T] [Add T] [Sub T] [Mul T] [Div T] [NatCast T]

/-- The inversion lemma of the decoding thread. -/
theorem decodeStep_move {a : Answer Jpeg Tensor T} {s w : State Jpeg Tensor T}
    (h : decodeStep a s = some w) : DecodeMove s w := by
  have silent : ∀ {pc pc' event nextDue}, s.decode = pc →
      some { s with decode := pc', frameEvent := event, nextDue := nextDue } = some w →
      pc.Passes pc' → DecodeMove s w := by
    intro pc pc' event nextDue hpc hw hpass
    rw [← Option.some.inj hw]
    exact .silent pc' event nextDue (hpc ▸ hpass)
  -- a counter that holds no frame leads to one that holds none
  have idle : ∀ pc pc' : DecodePc Jpeg Tensor T, pc.taken = 0 → pc.attempted = 0 →
      pc.uncounted = 0 → pc'.taken = 0 → pc'.attempted = 0 → pc'.uncounted = 0 →
      pc'.arrivals = [] → pc.Passes pc' := by
    intro pc pc' h1 h2 h3 h4 h5 h6 harr
    exact ⟨h4.trans h1.symm, h5.trans h2.symm, h6.trans h3.symm, harr ▸ List.nil_sublist _⟩
  unfold decodeStep at h
  split at h
  · next hpc =>
    apply silent hpc h
    split
    · exact idle _ _ rfl rfl rfl rfl rfl rfl rfl
    · exact idle _ _ rfl rfl rfl rfl rfl rfl rfl
  · next hpc => exact silent hpc h (idle _ _ rfl rfl rfl rfl rfl rfl rfl)
  · next hpc => exact silent hpc h (idle _ _ rfl rfl rfl rfl rfl rfl rfl)
  · next hpc =>
    apply silent hpc h
    split
    · exact idle _ _ rfl rfl rfl rfl rfl rfl rfl
    · exact idle _ _ rfl rfl rfl rfl rfl rfl rfl
  · next hpc =>
    split at h
    · exact silent hpc h (idle _ _ rfl rfl rfl rfl rfl rfl rfl)
    · next jpeg arrival hslot =>
      rw [← Option.some.inj h]
      exact .take jpeg arrival hpc hslot
  · next jpeg arrival hpc =>
    apply silent hpc h
    split
    · exact ⟨rfl, rfl, rfl, List.nil_sublist _⟩
    · exact ⟨rfl, rfl, rfl, List.Sublist.refl _⟩
  · next hpc =>
    rw [← Option.some.inj h]
    exact .rateLimited hpc
  · next jpeg arrival now hpc =>
    apply silent hpc h
    split
    · exact ⟨rfl, rfl, rfl, List.nil_sublist _⟩
    · exact ⟨rfl, rfl, rfl, List.Sublist.refl _⟩
  · next hpc =>
    rw [← Option.some.inj h]
    exact .stale hpc
  · next hpc => exact silent hpc h ⟨rfl, rfl, rfl, List.Sublist.refl _⟩
  · next jpeg arrival now hpc =>
    split at h
    · -- one round of the loop that lets `next_due` catch up
      have hw : some { s with
          decode := .catchUp jpeg arrival now
          nextDue := s.nextDue.map (· + periodS) } = some w := by
        rw [← h, ← hpc]
      exact silent hpc hw ⟨rfl, rfl, rfl, List.Sublist.refl _⟩
    · exact silent hpc h ⟨rfl, rfl, rfl, List.Sublist.refl _⟩
  · next jpeg arrival hpc =>
    rw [← Option.some.inj h]
    exact .attempt jpeg arrival hpc
  · next hpc => exact silent hpc h ⟨rfl, rfl, rfl, List.nil_sublist _⟩
  · next hpc => exact silent hpc h ⟨rfl, rfl, rfl, List.Sublist.refl _⟩
  · next hpc =>
    rw [← Option.some.inj h]
    exact .failed hpc
  · next prepared arrival hpc =>
    rw [← Option.some.inj h]
    exact .publish prepared arrival hpc
  · next hpc =>
    rw [← Option.some.inj h]
    exact .count hpc
  · exact absurd h (by simp)

omit [Mul T] [Div T] in
/-- The inversion lemma of the main thread. -/
theorem mainStep_move {a : Answer Jpeg Tensor T} {s w : State Jpeg Tensor T}
    (h : mainStep a s = some w) : MainMove s w := by
  -- most steps move the program counter and the two events alone
  have silent : ∀ {pc pc' stop event}, s.main = pc →
      some { s with main := pc', stopEvent := stop, frameEvent := event } = some w →
      pc'.arrivals = pc.arrivals → MainMove s w := by
    intro pc pc' stop event hpc hw harr
    rw [← Option.some.inj hw]
    exact .silent pc' stop event (hpc ▸ harr)
  unfold mainStep at h
  split at h
  · next hpc =>
    apply silent hpc h
    split <;> rfl
  · next hpc => exact silent hpc h rfl
  · next hpc => exact silent hpc h rfl
  · next hpc =>
    apply silent hpc h
    split <;> rfl
  · next hpc => exact silent hpc h rfl
  · next hpc =>
    apply silent hpc h
    split <;> rfl
  · next endTime hpc =>
    split at h
    · exact silent hpc h rfl
    · next prepared arrival hslot =>
      rw [← Option.some.inj h]
      exact .take endTime prepared arrival hpc hslot
  · next hpc => exact silent hpc h rfl
  · next hpc => exact silent hpc h rfl
  · next endTime arrival hpc =>
    rw [← Option.some.inj h]
    exact .count endTime arrival hpc
  · next hpc => exact silent hpc h rfl
  · next hpc => exact silent hpc h rfl
  · next held hpc => exact silent hpc h rfl
  · exact absurd h (by simp)

end Steps

/-! ## The counters balance

In every state the counters and what is held add up. Where nothing is held, the counters alone do.
-/

/-- The three equations, with what the threads hold on the side it is missing from. -/
structure Balanced (s : State Jpeg Tensor T) : Prop where
  captured : s.stats.captured + s.capture.uncounted
    = s.stats.compressedOverwrites + s.stats.rateLimited + s.stats.staleDrops
      + s.stats.decodeAttempts + s.decode.taken + occupied s.latestCompressed
  attempts : s.stats.decodeAttempts
    = s.stats.decodeFailures + s.stats.prepared + s.decode.attempted
  prepared : s.stats.prepared + s.decode.uncounted
    = s.stats.preparedOverwrites + s.stats.inferred + s.main.arrivals.length
      + occupied s.latestPrepared

@[simp] theorem occupied_some {α : Type} (a : α) : occupied (some a) = 1 := rfl

@[simp] theorem occupied_none {α : Type} : occupied (none : Option α) = 0 := rfl

/-- The capturing thread keeps the balance. -/
theorem CaptureMove.balanced {a : Answer Jpeg Tensor T} {s w : State Jpeg Tensor T}
    (h : CaptureMove s a w) (hs : Balanced s) : Balanced w := by
  obtain ⟨hcaptured, hattempts, hprepared⟩ := hs
  cases h with
  | silent _ pc event hcount harr => exact ⟨by rw [hcount]; exact hcaptured, hattempts, hprepared⟩
  | stamp jpeg arrival hpc =>
    rw [hpc] at hcaptured
    exact ⟨hcaptured, hattempts, hprepared⟩
  | store jpeg arrival hpc =>
    rw [hpc] at hcaptured
    refine ⟨?_, hattempts, hprepared⟩
    simp only [CapturePc.uncounted, occupied_some] at hcaptured ⊢
    omega
  | count hpc =>
    rw [hpc] at hcaptured
    refine ⟨?_, hattempts, hprepared⟩
    simp only [CapturePc.uncounted] at hcaptured ⊢
    omega

/-- The decoding thread keeps the balance. -/
theorem DecodeMove.balanced {s w : State Jpeg Tensor T} (h : DecodeMove s w) (hs : Balanced s) :
    Balanced w := by
  obtain ⟨hcaptured, hattempts, hprepared⟩ := hs
  cases h with
  | silent pc event nextDue hpass =>
    exact ⟨by rw [hpass.taken]; exact hcaptured, by rw [hpass.attempted]; exact hattempts,
      by rw [hpass.uncounted]; exact hprepared⟩
  | take jpeg arrival hpc hslot =>
    rw [hpc, hslot] at hcaptured
    rw [hpc] at hattempts hprepared
    exact ⟨hcaptured, hattempts, hprepared⟩
  | rateLimited hpc | stale hpc | attempt _ _ hpc | failed hpc | publish _ _ hpc | count hpc =>
    rw [hpc] at hcaptured hattempts hprepared
    simp only [DecodePc.taken, DecodePc.attempted,
      DecodePc.uncounted] at hcaptured hattempts hprepared
    constructor
    all_goals
      simp only [DecodePc.taken, DecodePc.attempted, DecodePc.uncounted, occupied_some]
      omega

/-- The main thread keeps the balance. -/
theorem MainMove.balanced {s w : State Jpeg Tensor T} (h : MainMove s w) (hs : Balanced s) :
    Balanced w := by
  obtain ⟨hcaptured, hattempts, hprepared⟩ := hs
  cases h with
  | silent pc stop event harr => exact ⟨hcaptured, hattempts, by rw [harr]; exact hprepared⟩
  | take endTime prepared arrival hpc hslot =>
    rw [hpc, hslot] at hprepared
    refine ⟨hcaptured, hattempts, ?_⟩
    simp only [MainPc.arrivals, List.length_nil, List.length_singleton, occupied_some,
      occupied_none] at hprepared ⊢
    omega
  | count endTime arrival hpc =>
    rw [hpc] at hprepared
    refine ⟨hcaptured, hattempts, ?_⟩
    simp only [MainPc.arrivals, List.length_nil, List.length_singleton] at hprepared ⊢
    omega

def CapturePc.BetweenIterations : CapturePc Jpeg T → Prop
  | .top | .done => True
  | _ => False

def DecodePc.BetweenIterations : DecodePc Jpeg Tensor T → Prop
  | .top | .done => True
  | _ => False

def MainPc.BetweenIterations : MainPc Tensor T → Prop
  | .starting | .timing | .loop _ .top | .leaving | .stopping none | .finished none => True
  | _ => False

def AtRest (s : State Jpeg Tensor T) : Prop :=
  s.capture.BetweenIterations ∧ s.decode.BetweenIterations ∧ s.main.BetweenIterations

def Accounted (s : State Jpeg Tensor T) : Prop :=
  s.stats.captured = s.stats.compressedOverwrites + s.stats.rateLimited + s.stats.staleDrops
      + s.stats.decodeAttempts + occupied s.latestCompressed ∧
  s.stats.decodeAttempts = s.stats.decodeFailures + s.stats.prepared ∧
  s.stats.prepared = s.stats.preparedOverwrites + s.stats.inferred + occupied s.latestPrepared

/-- Between iterations the balance is one of the counters. -/
theorem Balanced.accounted {s : State Jpeg Tensor T} (h : Balanced s) (hrest : AtRest s) :
    Accounted s := by
  obtain ⟨hcaptured, hattempts, hprepared⟩ := h
  obtain ⟨hcapture, hdecode, hmain⟩ := hrest
  -- between its iterations no thread holds a frame that it has not counted
  have huncounted : s.capture.uncounted = 0 := by
    unfold CapturePc.BetweenIterations at hcapture
    split at hcapture
    · next hpc => rw [hpc]; rfl
    · next hpc => rw [hpc]; rfl
    · exact hcapture.elim
  have hidle : s.decode.taken = 0 ∧ s.decode.attempted = 0 ∧ s.decode.uncounted = 0 := by
    unfold DecodePc.BetweenIterations at hdecode
    split at hdecode
    · next hpc => rw [hpc]; exact ⟨rfl, rfl, rfl⟩
    · next hpc => rw [hpc]; exact ⟨rfl, rfl, rfl⟩
    · exact hdecode.elim
  have harr : s.main.arrivals = [] := by
    unfold MainPc.BetweenIterations at hmain
    split at hmain
    all_goals first
      | exact hmain.elim
      | (next hpc => rw [hpc]; rfl)
  rw [huncounted, hidle.1] at hcaptured
  rw [hidle.2.1] at hattempts
  rw [hidle.2.2, harr] at hprepared
  exact ⟨by omega, by omega, by simpa using hprepared⟩

/-! ## The arrivals stay in order

A frame is overtaken by none that came later: a thread hands it on or drops it. -/

/-- The arrivals of the frames inferred, then of those in the pipeline from its end to the camera. -/
def State.arrivals (s : State Jpeg Tensor T) : List T :=
  s.inferredArrivals ++ s.main.arrivals ++ slotArrivals s.latestPrepared ++ s.decode.arrivals
    ++ slotArrivals s.latestCompressed ++ s.capture.arrivals

/-- Frames only move on or disappear, except that the capture thread may add one. -/
theorem CaptureMove.arrivals {a : Answer Jpeg Tensor T} {s w : State Jpeg Tensor T}
    (h : CaptureMove s a w) :
    (w.arrivals.Sublist s.arrivals ∧ w.lastCaptureTime = s.lastCaptureTime) ∨
    ∃ arrival, a = .clock arrival ∧ w.lastCaptureTime = some arrival
      ∧ w.arrivals = s.arrivals ++ [arrival] := by
  cases h with
  | silent _ pc event hcount harr =>
    left
    refine ⟨?_, rfl⟩
    unfold State.arrivals
    rw [harr]
  | stamp jpeg arrival hpc =>
    right
    refine ⟨arrival, rfl, rfl, ?_⟩
    unfold State.arrivals
    rw [hpc]
    simp [CapturePc.arrivals]
  | store jpeg arrival hpc =>
    left
    refine ⟨?_, rfl⟩
    unfold State.arrivals
    rw [hpc]
    -- the frame stored takes the place of the one overwritten
    simp [CapturePc.arrivals, slotArrivals]
  | count hpc =>
    left
    refine ⟨?_, rfl⟩
    unfold State.arrivals
    rw [hpc]
    exact List.Sublist.refl _

/-- The decoding thread hands frames on in their order, or drops them. -/
theorem DecodeMove.arrivals {s w : State Jpeg Tensor T} (h : DecodeMove s w) :
    w.arrivals.Sublist s.arrivals ∧ w.lastCaptureTime = s.lastCaptureTime := by
  cases h with
  | silent pc event nextDue hpass =>
    refine ⟨?_, rfl⟩
    unfold State.arrivals
    apply List.Sublist.append _ (List.Sublist.refl _)
    apply List.Sublist.append _ (List.Sublist.refl _)
    exact (List.Sublist.refl _).append hpass.arrivals
  -- a frame that is taken moves from the slot to the thread
  | take jpeg arrival hpc hslot =>
    refine ⟨?_, rfl⟩
    unfold State.arrivals
    rw [hpc, hslot]
    simp [DecodePc.arrivals, slotArrivals]
  | rateLimited hpc | stale hpc | attempt _ _ hpc | failed hpc | count hpc =>
    refine ⟨?_, rfl⟩
    unfold State.arrivals
    rw [hpc]
    exact List.Sublist.refl _
  | publish prepared arrival hpc =>
    refine ⟨?_, rfl⟩
    unfold State.arrivals
    rw [hpc]
    simp [DecodePc.arrivals, slotArrivals]

theorem MainMove.arrivals {s w : State Jpeg Tensor T} (h : MainMove s w) :
    w.arrivals.Sublist s.arrivals ∧ w.lastCaptureTime = s.lastCaptureTime := by
  cases h with
  | silent pc stop event harr =>
    refine ⟨?_, rfl⟩
    unfold State.arrivals
    rw [harr]
  | take endTime prepared arrival hpc hslot =>
    refine ⟨?_, rfl⟩
    unfold State.arrivals
    rw [hpc, hslot]
    simp [MainPc.arrivals, slotArrivals]
  | count endTime arrival hpc =>
    refine ⟨?_, rfl⟩
    unfold State.arrivals
    rw [hpc]
    simp [MainPc.arrivals]

section Runs

variable [LinearOrder T] [Add T] [Sub T] [Mul T] [Div T] [NatCast T]

/-- The clock the capture thread reads is ahead of the last capture. -/
def increasing (s : State Jpeg Tensor T) : Action Jpeg Tensor T → Bool
  | .capture (.clock arrival) => s.lastCaptureTime.all (fun last => decide (last < arrival))
  | _ => true

/-- The frames that are under way came one after the other, and none after the last that was
stamped. -/
structure InOrder (s : State Jpeg Tensor T) : Prop where
  sorted : s.arrivals.Pairwise (· < ·)
  recent : ∀ t ∈ s.arrivals, ∃ last, s.lastCaptureTime = some last ∧ t ≤ last

omit [Add T] [Sub T] [Mul T] [Div T] [NatCast T] in
/-- Dropping a frame keeps the order. -/
theorem InOrder.of_sublist {s w : State Jpeg Tensor T} (hs : InOrder s)
    (h : w.arrivals.Sublist s.arrivals ∧ w.lastCaptureTime = s.lastCaptureTime) : InOrder w := by
  refine ⟨hs.sorted.sublist h.1, ?_⟩
  intro t ht
  rw [h.2]
  exact hs.recent t (h.1.subset ht)

omit [Add T] [Sub T] [Mul T] [Div T] [NatCast T] in
/-- A new frame came last. -/
theorem InOrder.stamp {s w : State Jpeg Tensor T} {arrival : T} (hs : InOrder s)
    (hlast : ∀ last, s.lastCaptureTime = some last → last < arrival)
    (hw : w.lastCaptureTime = some arrival) (harr : w.arrivals = s.arrivals ++ [arrival]) :
    InOrder w := by
  -- the new capture is later than the last one, and so than all of them
  have hbefore : ∀ t ∈ s.arrivals, t < arrival := by
    intro t ht
    obtain ⟨last, hsome, hle⟩ := hs.recent t ht
    exact lt_of_le_of_lt hle (hlast last hsome)
  constructor
  · rw [harr]
    apply List.pairwise_append.mpr
    refine ⟨hs.sorted, List.pairwise_singleton _ _, ?_⟩
    intro t ht u hu
    rw [List.mem_singleton.mp hu]
    exact hbefore t ht
  · intro t ht
    refine ⟨arrival, hw, ?_⟩
    rw [harr] at ht
    rcases List.mem_append.mp ht with hin | hin
    · exact (hbefore t hin).le
    · exact (List.mem_singleton.mp hin).le

/-- Every step keeps the balance. -/
theorem step_balanced {a : Action Jpeg Tensor T} {s w : State Jpeg Tensor T}
    (h : (pipeline Jpeg Tensor T).step a s = some w) (hs : Balanced s) : Balanced w := by
  cases a with
  | capture a => exact (captureStep_move h).balanced hs
  | decode a => exact (decodeStep_move h).balanced hs
  | main a => exact (mainStep_move h).balanced hs

/-- Every step keeps the order, where the clock increases. -/
theorem step_inOrder {a : Action Jpeg Tensor T} {s w : State Jpeg Tensor T}
    (h : (pipeline Jpeg Tensor T).step a s = some w) (hok : increasing s a = true)
    (hs : InOrder s) : InOrder w := by
  cases a with
  | capture a =>
    rcases (captureStep_move h).arrivals with hsub | ⟨arrival, rfl, hlast, harr⟩
    · exact hs.of_sublist hsub
    · apply hs.stamp _ hlast harr
      intro last hsome
      unfold increasing at hok
      rw [hsome] at hok
      exact of_decide_eq_true hok
  | decode a => exact hs.of_sublist (decodeStep_move h).arrivals
  | main a => exact hs.of_sublist (mainStep_move h).arrivals

variable (Jpeg Tensor T) in
/-- **Every frame is accounted for exactly once**, whatever the schedule, and with an increasing
clock the frames are inferred in the order of their capture, none twice. -/
theorem frames_accounted_for :
    (∀ as s, (pipeline Jpeg Tensor T).Run (fun _ _ => True) {} as s → AtRest s → Accounted s) ∧
    ∀ as s, (pipeline Jpeg Tensor T).Run (fun s a => increasing s a = true) {} as s →
      s.inferredArrivals.Pairwise (· < ·) := by
  constructor
  · intro as s run hrest
    have hinit : Balanced ({} : State Jpeg Tensor T) := ⟨rfl, rfl, rfl⟩
    have hbalanced : Balanced s := run.invariant hinit
      (fun _ _ _ hs _ hstep => step_balanced hstep hs)
    exact hbalanced.accounted hrest
  · intro as s run
    have hinit : InOrder ({} : State Jpeg Tensor T) :=
      ⟨List.Pairwise.nil, fun t ht => absurd ht (List.not_mem_nil)⟩
    have horder : InOrder s := run.invariant hinit
      (fun _ _ _ hs hok hstep => step_inOrder hstep hok hs)
    -- what was inferred is the first part of the arrivals
    have hprefix : s.inferredArrivals.Sublist s.arrivals := by
      unfold State.arrivals
      simp only [List.append_assoc]
      exact List.sublist_append_left _ _
    exact horder.sorted.sublist hprefix

/-- A frame captured at `t`, from the top of the capture thread back to it. -/
def captureAt (t : ℚ) : List (Action Unit Unit ℚ) :=
  [.capture .go, .capture (.sample (some (some ()))), .capture (.clock t), .capture .go,
    .capture .go, .capture .go]

def decodeTake : List (Action Unit Unit ℚ) :=
  [.decode .go, .decode .go, .decode .go, .decode .go, .decode .go, .decode .go]

/-- The first of four frames is inferred, the second rate-limited, the third overwritten and the
fourth too old. -/
def fourFrames : List (Action Unit Unit ℚ) :=
  captureAt 0 ++ decodeTake ++ [.decode (.clock (1 / 1000)), .decode .go, .decode .go, .decode .go,
    .decode (.image (some ())), .decode .go, .decode .go,
    .main .go, .main (.clock 0), .main (.clock (1 / 100)), .main (.clock (1 / 100)), .main .go,
    .main .go, .main .go]
  ++ captureAt (1 / 50) ++ decodeTake ++ [.decode .go]
  ++ captureAt (1 / 20) ++ captureAt (1 / 15) ++ decodeTake ++ [.decode (.clock 1), .decode .go]

/-- The state in which a run on four frames ends. -/
def fourFramesEnd : State Unit Unit ℚ where
  lastCaptureTime := some (1 / 15)
  stats := { captured := 4, compressedOverwrites := 1, rateLimited := 1, staleDrops := 1,
             decodeAttempts := 1, prepared := 1, inferred := 1 }
  nextDue := some (1 / 30)
  main := .loop 20 .top
  inferredArrivals := [0]

theorem frames_accounted_for_fourFrames :
    Accounted fourFramesEnd ∧ fourFramesEnd.inferredArrivals.Pairwise (· < ·) := by
  have hexec : (pipeline Unit Unit ℚ).exec increasing fourFrames {} = some fourFramesEnd := by
    decide +kernel
  have run := System.run_of_exec hexec
  have hrest : AtRest fourFramesEnd := ⟨trivial, trivial, trivial⟩
  exact ⟨(frames_accounted_for Unit Unit ℚ).1 _ _ (run.mono (fun _ _ _ => trivial)) hrest,
    (frames_accounted_for Unit Unit ℚ).2 _ _ run⟩

end Runs

end Perception

end Rave
