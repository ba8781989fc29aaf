import RaveDeployment.Network.Framing
import Mathlib.Data.List.TakeWhile

/-!
# How a request is cut

What `_receive_request` returns for a stream, over every way to cut it into chunks.
`framedAlike_iff`: the cuts make no difference unless the first line has more than 1024 bytes and
fits the limit, and the stream does not; the limit is then applied to what follows the line feed,
as far as it came in the same chunk.
-/

namespace Rave

open Prog

variable {stream request rest line : List UInt8}

/-! ## The first line

What of a stream is a request: the bytes up to its first newline. -/

/-- The first line is complete with its newline. -/
theorem firstLine_append_of_mem (h : newlineByte ∈ request) :
    firstLine (request ++ rest) = firstLine request := by
  induction request with
  | nil => exact absurd h (by simp)
  | cons b request ih =>
    by_cases hb : b = newlineByte
    · rw [hb]
      rfl
    · have hmem : newlineByte ∈ request := (List.mem_cons.mp h).resolve_left (Ne.symm hb)
      have hcons : ∀ l, firstLine (b :: l) = b :: firstLine l := by
        intro l
        exact List.takeWhile_cons_of_pos (by simpa using hb)
      rw [List.cons_append, hcons, hcons, ih hmem]

/-- A stream without a newline is one line. -/
theorem firstLine_eq_self (h : newlineByte ∉ stream) : firstLine stream = stream := by
  apply List.takeWhile_eq_self_iff.mpr
  intro b hb
  simp only [decide_eq_true_eq]
  rintro rfl
  exact h hb

theorem newline_not_mem_firstLine (stream : List UInt8) : newlineByte ∉ firstLine stream := by
  intro h
  have hne := List.mem_takeWhile_imp h
  exact absurd hne (by simp)

/-- A stream that goes on after its first line goes on with a line feed. -/
theorem firstLine_split (h : newlineByte ∈ stream) :
    ∃ rest, stream = firstLine stream ++ newlineByte :: rest := by
  induction stream with
  | nil => exact absurd h (by simp)
  | cons b stream ih =>
    by_cases hb : b = newlineByte
    · exact ⟨stream, by rw [hb]; rfl⟩
    · obtain ⟨rest, hrest⟩ := ih ((List.mem_cons.mp h).resolve_left (Ne.symm hb))
      refine ⟨rest, ?_⟩
      have hcons : firstLine (b :: stream) = b :: firstLine stream :=
        List.takeWhile_cons_of_pos (by simpa using hb)
      rw [hcons, List.cons_append, ← hrest]

/-! ## What the loop has read

The invariant of the loop: it has read a beginning of the stream without a newline, which is no
longer than the bound. -/

/-- What the loop has read when it ends. -/
inductive LoopEnd (stream request : List UInt8) : Prop where
  /-- The peer has closed. -/
  | closed (hall : request = stream) (hno : newlineByte ∉ stream)
      (hlen : request.length ≤ MAX_REQUEST_BYTES)
  /-- No line feed within the limit. -/
  | full (rest : List UInt8) (hpart : stream = request ++ rest) (hno : newlineByte ∉ request)
      (hlen : request.length = MAX_REQUEST_BYTES + 1)
  /-- The last chunk has the line feed, and at most 1023 bytes after it. -/
  | line (rest : List UInt8) (hpart : stream = request ++ rest) (hmem : newlineByte ∈ request)
      (hlen : request.length ≤ MAX_REQUEST_BYTES + 1)
      (hlast : request.length ≤ (firstLine stream).length + 1024)

/-- The chunk that ends the loop. -/
theorem loopEnd_line {read chunk : List UInt8} (h : read ++ (chunk ++ rest) = stream)
    (hread : newlineByte ∉ read) (hmem : newlineByte ∈ chunk)
    (hlen : chunk.length ≤ min 1024 (MAX_REQUEST_BYTES + 1 - read.length))
    (hroom : read.length ≤ MAX_REQUEST_BYTES) : LoopEnd stream (read ++ chunk) := by
  have hpart : stream = read ++ chunk ++ rest := by rw [List.append_assoc, h]
  have hmem' : newlineByte ∈ read ++ chunk := List.mem_append_right _ hmem
  -- the line feed is not in what was read before, so the first line is no shorter than that
  have hfirst : read.length ≤ (firstLine stream).length := by
    have hall : ∀ b ∈ read, decide (b ≠ newlineByte) = true := by
      intro b hb
      simp only [decide_eq_true_eq]
      rintro rfl
      exact hread hb
    rw [← h, firstLine, List.takeWhile_append_of_pos hall, List.length_append]
    omega
  apply LoopEnd.line rest hpart hmem'
  · rw [List.length_append]
    omega
  · rw [List.length_append]
    omega

/-- From every state that the invariant allows the loop ends, and has then read what `LoopEnd` says.
-/
theorem receiveLoop_ends (start : Int) (read pending : List UInt8) (h : read ++ pending = stream)
    (hread : newlineByte ∉ read) (hlen : read.length ≤ MAX_REQUEST_BYTES + 1) :
    (receiveLoop (start + requestFramingTimeout) read).wp delivering
      (fun request _ => LoopEnd stream request) (fun _ _ => False) ⟨some start, pending⟩ := by
  induction hn : pending.length using Nat.strongRecOn generalizing read pending with
  | ind n ih =>
    by_cases hroom : read.length ≤ MAX_REQUEST_BYTES
    · rw [receiveLoop, if_pos hroom]
      refine wp_tick fun now hnow => ?_
      rw [if_neg (by omega)]
      refine wp_recv (by omega) ?_ ?_
      · intro hempty
        rw [hempty, List.append_nil] at h
        intro t _
        exact .closed h (h ▸ hread) hroom
      · intro chunk rest hpending hne hchunk
        dsimp only
        rw [if_neg hne]
        rw [hpending] at h
        by_cases hmem : newlineByte ∈ chunk
        · rw [if_pos hmem]
          intro t _
          exact loopEnd_line h hread hmem hchunk hroom
        · rw [if_neg hmem]
          -- a chunk is not empty, so less is pending after it
          have hshort : rest.length < n := by
            have hpos : 0 < chunk.length := List.length_pos_iff.mpr hne
            rw [← hn, hpending, List.length_append]
            omega
          have hread' : newlineByte ∉ read ++ chunk := by
            rw [List.mem_append, not_or]
            exact ⟨hread, hmem⟩
          have hlen' : (read ++ chunk).length ≤ MAX_REQUEST_BYTES + 1 := by
            rw [List.length_append]
            omega
          rw [← List.append_assoc] at h
          exact ih rest.length hshort _ rest h hread' hlen' rfl
    · rw [receiveLoop, if_neg hroom]
      intro t _
      exact .full pending h.symm hread (by omega)

/-! ## What is returned

The check after the loop, for every way in which it can end. -/

def framed (stream : List UInt8) : Except ServeError (List UInt8) :=
  if MAX_REQUEST_BYTES ≤ (firstLine stream).length ∧ MAX_REQUEST_BYTES < stream.length then
    .error (.protocol "request_too_large")
  else if firstLine stream = [] then .error (.protocol "request_empty")
  else .ok (firstLine stream)

/-- A first line that fits the limit and is longer than a chunk is all that fits the limit. -/
def LineAlone (stream : List UInt8) : Prop :=
  1024 < (firstLine stream).length → (firstLine stream).length < MAX_REQUEST_BYTES →
    stream.length ≤ MAX_REQUEST_BYTES

def checkRequest (request : List UInt8) : RecvProg (List UInt8) := do
  if MAX_REQUEST_BYTES < request.length then throw (.protocol "request_too_large")
  if firstLine request = [] then throw (.protocol "request_empty")
  return firstLine request

theorem receiveRequest_eq : receiveRequest = .op .monotonic fun now : Int =>
    (receiveLoop (now + requestFramingTimeout) []).bind checkRequest := rfl

def checked (request : List UInt8) : Except ServeError (List UInt8) :=
  if MAX_REQUEST_BYTES < request.length then .error (.protocol "request_too_large")
  else if firstLine request = [] then .error (.protocol "request_empty")
  else .ok (firstLine request)

/-- The check depends on the bytes only. -/
theorem checkRequest_eq (request : List UInt8) :
    checkRequest request = Prog.ofExcept (checked request) := by
  unfold checkRequest checked
  by_cases hsize : MAX_REQUEST_BYTES < request.length
  · rw [if_pos hsize, if_pos hsize]
    rfl
  · rw [if_neg hsize, if_neg hsize]
    by_cases hempty : firstLine request = []
    · rw [if_pos hempty, if_pos hempty]
      rfl
    · rw [if_neg hempty, if_neg hempty]
      rfl

/-- Where the line is alone, the check says of what was read what `framed` says of the stream. -/
theorem checked_eq_framed (hstream : LineAlone stream) (h : LoopEnd stream request) :
    checked request = framed stream := by
  unfold checked framed
  cases h with
  | closed hall hno hlen =>
    have hfirst := firstLine_eq_self hno
    rw [hall] at hlen ⊢
    have hsize : ¬MAX_REQUEST_BYTES < stream.length := by omega
    have hboth : ¬(MAX_REQUEST_BYTES ≤ stream.length ∧ MAX_REQUEST_BYTES < stream.length) :=
      fun h => hsize h.2
    rw [hfirst, if_neg hsize, if_neg hboth]
  | full rest hpart hno hlen =>
    -- the limit was reached within the first line, which is therefore too long
    have hfirst : request.length ≤ (firstLine stream).length := by
      have hall : ∀ b ∈ request, decide (b ≠ newlineByte) = true := by
        intro b hb
        simp only [decide_eq_true_eq]
        rintro rfl
        exact hno hb
      rw [hpart, firstLine, List.takeWhile_append_of_pos hall, List.length_append]
      omega
    have hall : request.length ≤ stream.length := by
      rw [hpart, List.length_append]
      omega
    rw [if_pos (by omega), if_pos (by omega)]
  | line rest hpart hmem hlen hlast =>
    -- the loop ended at a newline, so the first line is among what was read
    have hfirst : firstLine stream = firstLine request := by
      rw [hpart]
      exact firstLine_append_of_mem hmem
    have hsize : stream.length = request.length + rest.length := by
      rw [hpart, List.length_append]
    obtain ⟨after, hafter⟩ := firstLine_split hmem
    have hline : (firstLine request).length + 1 + after.length = request.length := by
      have hlen' := congrArg List.length hafter
      rw [List.length_append, List.length_cons] at hlen'
      omega
    by_cases hlong : MAX_REQUEST_BYTES < request.length
    · -- the whole limit was read, so the line itself is too long
      have hover : MAX_REQUEST_BYTES ≤ (firstLine stream).length := by
        by_contra hfits
        rw [not_le] at hfits
        have hwhole : ¬1024 < (firstLine stream).length := by
          intro hbig
          have := hstream hbig hfits
          omega
        have hmax : MAX_REQUEST_BYTES = 2048 := rfl
        omega
      rw [if_pos hlong, if_pos ⟨hover, by omega⟩]
    · have hfits : ¬(MAX_REQUEST_BYTES ≤ (firstLine request).length ∧
          MAX_REQUEST_BYTES < stream.length) := by omega
      rw [if_neg hlong, hfirst, if_neg hfits]

/-- **Where the cuts make no difference.** -/
theorem receiveRequest_framed (hstream : LineAlone stream) {out : Except ServeError (List UInt8)}
    {t : Stream} (h : receiveRequest.Runs delivering ⟨none, stream⟩ out t) :
    out = framed stream := by
  have hwp : receiveRequest.wp delivering (fun data _ => framed stream = .ok data)
      (fun e _ => framed stream = .error e) ⟨none, stream⟩ := by
    rw [receiveRequest_eq]
    refine wp_start fun now => ?_
    have hloop := receiveLoop_ends now [] stream rfl (by simp) (by simp)
    refine Prog.wp_bind.mpr (Prog.wp_mono hloop ?_ fun _ _ h => h.elim)
    intro request t hend
    rw [checkRequest_eq, ← checked_eq_framed hstream hend]
    cases hchecked : checked request with
    | ok data => exact fun _ _ => rfl
    | error e => exact fun _ _ => rfl
  obtain ⟨hok, herror⟩ := Prog.wp_runs hwp h
  cases out with
  | ok data => exact (hok data rfl).symm
  | error e => exact (herror e rfl).symm

/-! ## Two ways to cut a stream

The same bytes in other pieces. For a stream that holds more than one line the pieces can matter. -/

/-- One round of the loop, for a run on given pieces. -/
theorem runs_chunk {start : Int} {read chunk : List UInt8} {out : Except ServeError (List UInt8)}
    {t : Stream} (hroom : read.length ≤ MAX_REQUEST_BYTES) (hne : chunk ≠ [])
    (hlen : chunk.length ≤ min 1024 (MAX_REQUEST_BYTES + 1 - read.length))
    (h : (if newlineByte ∈ chunk then .ret (read ++ chunk)
      else receiveLoop (start + requestFramingTimeout) (read ++ chunk)).Runs delivering
        ⟨some start, rest⟩ out t) :
    (receiveLoop (start + requestFramingTimeout) read).Runs delivering
      ⟨some start, chunk ++ rest⟩ out t := by
  have htime : 0 < requestFramingTimeout := by decide
  rw [receiveLoop, if_pos hroom]
  apply Runs.op rfl (Delivers.tick _ start start (by omega))
  rw [if_neg (by omega)]
  apply Runs.op rfl (Delivers.chunk _ _ _ chunk rest hne hlen)
  dsimp only
  rw [if_neg hne]
  exact h

/-- The bytes before the line feed come one at a time. -/
theorem runs_drip {start : Int} {read : List UInt8} {out : Except ServeError (List UInt8)}
    {t : Stream} (hno : newlineByte ∉ line)
    (hroom : read.length + line.length ≤ MAX_REQUEST_BYTES + 1)
    (h : (receiveLoop (start + requestFramingTimeout) (read ++ line)).Runs delivering
      ⟨some start, rest⟩ out t) :
    (receiveLoop (start + requestFramingTimeout) read).Runs delivering
      ⟨some start, line ++ rest⟩ out t := by
  induction line generalizing read with
  | nil =>
    rw [List.append_nil] at h
    exact h
  | cons b line ih =>
    rw [List.length_cons] at hroom
    -- the first byte is a chunk of its own: it ends no line and leaves the rest of the room
    have hb : newlineByte ∉ [b] := by
      intro hmem
      exact hno (List.mem_cons.mpr (Or.inl (List.mem_singleton.mp hmem)))
    have hno' : newlineByte ∉ line := fun hmem => hno (List.mem_cons_of_mem _ hmem)
    have hlen : (read ++ [b]).length = read.length + 1 := by
      rw [List.length_append, List.length_singleton]
    have hsplit : read ++ b :: line = read ++ [b] ++ line := by
      rw [List.append_assoc, List.singleton_append]
    rw [hsplit] at h
    show (receiveLoop (start + requestFramingTimeout) read).Runs delivering
      ⟨some start, [b] ++ (line ++ rest)⟩ out t
    apply runs_chunk (by omega) (List.cons_ne_nil b []) (by rw [List.length_singleton]; omega)
    rw [if_neg hb]
    exact ih hno' (by omega) h

/-- The line feed comes in front of any part of what follows that fits a chunk. -/
theorem runs_line {chunk : List UInt8} (hno : newlineByte ∉ line)
    (hroom : line.length ≤ MAX_REQUEST_BYTES)
    (hlen : (newlineByte :: chunk).length ≤ min 1024 (MAX_REQUEST_BYTES + 1 - line.length)) :
    receiveRequest.Runs delivering ⟨none, line ++ ((newlineByte :: chunk) ++ rest)⟩
      (checked (line ++ newlineByte :: chunk)) ⟨some 0, rest⟩ := by
  rw [receiveRequest_eq]
  apply Runs.op rfl (Delivers.start _ 0)
  -- the line arrives byte by byte, and the rest with its end in one chunk
  have hloop : (receiveLoop (0 + requestFramingTimeout) []).Runs delivering
      ⟨some 0, line ++ ((newlineByte :: chunk) ++ rest)⟩ (.ok (line ++ newlineByte :: chunk))
      ⟨some 0, rest⟩ := by
    apply runs_drip hno (by simp only [List.length_nil]; omega)
    rw [List.nil_append]
    apply runs_chunk hroom (List.cons_ne_nil _ _) hlen
    rw [if_pos (by simp)]
    exact .ret rfl
  apply hloop.bind
  rw [checkRequest_eq]
  cases checked (line ++ newlineByte :: chunk) with
  | ok data => exact .ret rfl
  | error e => exact .raise rfl

/-- What a peer's bytes decide. -/
structure FramedAlike (stream : List UInt8) : Prop where
  /-- No two ways to cut the stream have different outcomes. -/
  same : ∀ {out out' : Except ServeError (List UInt8)} {t t' : Stream},
    receiveRequest.Runs delivering ⟨none, stream⟩ out t →
      receiveRequest.Runs delivering ⟨none, stream⟩ out' t' → out = out'
  /-- A first line that fits the limit is returned. -/
  fitting : ∀ {line rest : List UInt8}, stream = line ++ newlineByte :: rest →
    newlineByte ∉ line → line ≠ [] → line.length < MAX_REQUEST_BYTES →
      ∀ {out : Except ServeError (List UInt8)} {t : Stream},
        receiveRequest.Runs delivering ⟨none, stream⟩ out t → out = .ok line

/-- Bytes that follow the first line are counted with it when they come in the same chunk. -/
theorem FramedAlike.lineAlone (h : FramedAlike stream) : LineAlone stream := by
  intro hlong hfits
  by_contra hover
  rw [not_le] at hover
  have hmem : newlineByte ∈ stream := by
    by_contra hno
    rw [firstLine_eq_self hno] at hfits
    omega
  obtain ⟨rest, hrest⟩ := firstLine_split hmem
  have hno := newline_not_mem_firstLine stream
  have hsize : stream.length = (firstLine stream).length + (rest.length + 1) := by
    have hlen := congrArg List.length hrest
    rw [List.length_append, List.length_cons] at hlen
    exact hlen
  generalize hfirst : firstLine stream = first at *
  have hmax : MAX_REQUEST_BYTES = 2048 := rfl
  -- the line feed alone
  have halone : receiveRequest.Runs delivering ⟨none, first ++ ([newlineByte] ++ rest)⟩
      (checked (first ++ [newlineByte])) ⟨some 0, rest⟩ :=
    runs_line hno (by omega) (by rw [List.length_singleton]; omega)
  -- the line feed with all that the limit leaves room for
  have hfull : receiveRequest.Runs delivering
      ⟨none, first ++ ((newlineByte :: rest.take (2048 - first.length)) ++
        rest.drop (2048 - first.length))⟩
      (checked (first ++ newlineByte :: rest.take (2048 - first.length)))
      ⟨some 0, rest.drop (2048 - first.length)⟩ :=
    runs_line hno (by omega) (by rw [List.length_cons, List.length_take]; omega)
  rw [List.singleton_append, ← hrest] at halone
  rw [List.cons_append, List.take_append_drop, ← hrest] at hfull
  have hsame := h.same halone hfull
  have hshort : checked (first ++ [newlineByte]) = .ok first := by
    have hline : firstLine (first ++ [newlineByte]) = first := firstLine_append hno
    have hne : first ≠ [] := List.ne_nil_of_length_pos (by omega)
    unfold checked
    rw [hline, if_neg (by rw [List.length_append, List.length_singleton]; omega), if_neg hne]
  have hlarge : checked (first ++ newlineByte :: rest.take (2048 - first.length))
      = .error (.protocol "request_too_large") := by
    apply if_pos
    rw [List.length_append, List.length_cons, List.length_take]
    omega
  rw [hshort, hlarge] at hsame
  exact absurd hsame (by simp)

/-- A line that is alone is framed alike, whatever the pieces. -/
theorem framedAlike_of_lineAlone (hstream : LineAlone stream) : FramedAlike stream := by
  refine ⟨?_, ?_⟩
  · intro out out' t t' hrun hrun'
    rw [receiveRequest_framed hstream hrun, receiveRequest_framed hstream hrun']
  · intro line rest hsplit hno hne hfits out t hrun
    have hfirst : firstLine stream = line := by
      have hmem : newlineByte ∈ line ++ [newlineByte] := by simp
      rw [hsplit, ← List.singleton_append, ← List.append_assoc, firstLine_append_of_mem hmem]
      exact firstLine_append hno
    rw [receiveRequest_framed hstream hrun, framed, hfirst, if_neg (by omega), if_neg hne]

/-- **When the bytes alone decide.** -/
theorem framedAlike_iff (stream : List UInt8) : FramedAlike stream ↔ LineAlone stream :=
  ⟨FramedAlike.lineAlone, framedAlike_of_lineAlone⟩

/-- A first line of 1500 bytes and 600 bytes after its line feed. -/
def trailedLine : List UInt8 :=
  List.replicate 1500 0x61 ++ newlineByte :: List.replicate 600 0x62

/-- A line with bytes behind it is not. -/
theorem not_framedAlike_trailedLine : ¬FramedAlike trailedLine := by
  intro h
  have hno : newlineByte ∉ List.replicate 1500 (0x61 : UInt8) := by
    intro hmem
    exact absurd (List.eq_of_mem_replicate hmem) (by decide)
  have hfirst : firstLine trailedLine = List.replicate 1500 0x61 := by
    have hsplit : trailedLine
        = (List.replicate 1500 0x61 ++ [newlineByte]) ++ List.replicate 600 0x62 := by
      rw [List.append_assoc]
      rfl
    have hmem : newlineByte ∈ List.replicate 1500 0x61 ++ [newlineByte] :=
      List.mem_append_right _ (List.mem_singleton_self _)
    rw [hsplit, firstLine_append_of_mem hmem, firstLine_append hno]
  -- the line is short enough, so it would have to be all that was sent
  have halone := h.lineAlone
  unfold LineAlone at halone
  rw [hfirst, List.length_replicate] at halone
  have hsize : trailedLine.length = 2101 := by
    rw [trailedLine, List.length_append, List.length_cons, List.length_replicate,
      List.length_replicate]
  rw [hsize] at halone
  exact absurd (halone (by decide) (by decide)) (by decide)

end Rave
