import Mathlib.Data.List.DropRight
import Mathlib.Data.List.TakeWhile
import RaveDeployment.Python.Shlex

/-!
# The unit parser of the image verifier

`systemd_directives` of `scripts/verify_rave_image.py` and the three functions that read a setting
off its results. The parser joins continued lines before it looks for comments, so a comment is
inert at some places of a unit and not at others: `inert_iff` says at which.
-/

namespace Rave

open Py

/-- What the checks of a unit raise. -/
inductive UnitError where
  | verificationError (message : String)
  /-- A `VerificationError` whose message lists the drop-ins it found. -/
  | unexpectedDropins (message : String) (dropins : List String)
  | valueError (message : String)
  | indexError
  /-- `read_text` of what is no file. -/
  | osError (path : String)
  deriving DecidableEq

/-- The local variables of `systemd_directives`. -/
structure Directives where
  currentSection : List Char
  values : List (List Char)
  logicalLine : List Char
  deriving DecidableEq

namespace Directives

def init : Directives := ⟨[], [], []⟩

/-- `line.rstrip().endswith("\\")`. -/
def continues (line : List Char) : Bool :=
  (rstrip line).getLast? = some '\\'

/-- `stripped.startswith(("#", ";"))`. -/
def isComment (stripped : List Char) : Bool :=
  stripped.head? = some '#' || stripped.head? = some ';'

/-- `stripped.startswith("[") and stripped.endswith("]")`. -/
def isHeader (stripped : List Char) : Bool :=
  stripped.head? = some '[' && stripped.getLast? = some ']'

def joined (logicalLine rawLine : List Char) : List Char :=
  if logicalLine = [] then rawLine else logicalLine ++ lstrip rawLine

def carried (line : List Char) : List Char :=
  (rstrip line).dropLast ++ [' ']

/-- The part of the loop that sees a whole logical line, stripped. -/
def readLogical (sect key : List Char) (self : Directives) (stripped : List Char) : Directives :=
  if stripped = [] ∨ isComment stripped then self
  else if isHeader stripped then { self with currentSection := (stripped.drop 1).dropLast }
  else if self.currentSection ≠ sect ∨ '=' ∉ stripped then self
  else
    let (directive, _, value) := partitionAt '=' stripped
    if stripChars isSpace directive = key then
      { self with values := self.values ++ [stripChars isSpace value] }
    else self

def readLine (sect key : List Char) (self : Directives) (rawLine : List Char) : Directives :=
  let line := joined self.logicalLine rawLine
  if continues line then { self with logicalLine := carried line }
  else readLogical sect key { self with logicalLine := [] } (stripChars isSpace line)

end Directives

open Directives

/-- What `systemd_directives` does after the loop. -/
def Directives.finish (sect key : List Char) (self : Directives) :
    Except UnitError (List (List Char)) :=
  if self.logicalLine = [] then .ok self.values
  else .error (.verificationError ("unterminated systemd continuation in [" ++ String.ofList sect ++
    "] " ++ String.ofList key))

/-- `systemd_directives`. -/
def systemdDirectives (text sect key : List Char) : Except UnitError (List (List Char)) :=
  ((splitLines text).foldl (readLine sect key) .init).finish sect key

/-- `effective_systemd_list`. -/
def effectiveSystemdList (texts : List (List Char)) (sect key : List Char) :
    Except UnitError (List (List Char)) :=
  texts.foldlM (fun values text => do
    let found ← systemdDirectives text sect key
    return found.foldl (fun values value => if value ≠ [] then values ++ [value] else []) values) []

/-- `effective_systemd_words`. -/
def effectiveSystemdWords (texts : List (List Char)) (sect key : List Char) :
    Except UnitError (List (List Char)) :=
  texts.foldlM (fun values text => do
    let found ← systemdDirectives text sect key
    found.foldlM (fun values value =>
      if value = [] then return []
      else return values ++ (← (shlexSplit value).mapError .valueError)) values) []

/-- `effective_systemd_scalar`. -/
def effectiveSystemdScalar (texts : List (List Char)) (sect key : List Char) :
    Except UnitError (Option (List Char)) := do
  let found ← texts.mapM fun text => systemdDirectives text sect key
  return found.flatten.getLast?

namespace Directives

variable {sect key : List Char}

/-! ## The backslashes a continuation ends in

A line that ends in a backslash is joined with the next one. Blank lines behind it take one
backslash each. -/

/-- The backslashes at the end of a line, white space between them left out. Each blank line after
the line takes one of them for its own continuation. -/
def slashes (line : List Char) : Nat :=
  (line.reverse.takeWhile fun c => c == '\\' || isSpace c).count '\\'

theorem slashes_of_reverse {line r : List Char} (h : line.reverse = r) :
    slashes line = (r.takeWhile fun c => c == '\\' || isSpace c).count '\\' := by
  rw [slashes, h]

theorem not_isSpace_backslash : isSpace '\\' = false := by decide

/-- A line, from its end: white space, then either a backslash, or nothing that continues it. -/
theorem continues_iff (line : List Char) : continues line = true ↔ 0 < slashes line := by
  rw [continues, rstrip, List.getLast?_reverse, slashes, decide_eq_true_eq]
  induction line.reverse with
  | nil => simp
  | cons c r ih =>
    by_cases hspace : isSpace c = true
    · have hne : c ≠ '\\' := by
        rintro rfl
        rw [not_isSpace_backslash] at hspace
        cases hspace
      simpa [List.dropWhile_cons, List.takeWhile_cons, hspace, hne] using ih
    · by_cases hslash : c = '\\'
      · simp [hslash, not_isSpace_backslash]
      · simp [hspace, hslash]

/-- A line continues exactly when it ends in a backslash. -/
theorem not_continues_iff (line : List Char) : continues line = false ↔ slashes line = 0 := by
  have h := continues_iff line
  cases hc : continues line with
  | true => simpa using Nat.ne_of_gt (h.mp hc)
  | false =>
    rw [hc] at h
    simpa using h

/-- A continuation takes one of them. -/
theorem slashes_carried {line : List Char} (h : continues line = true) :
    slashes (carried line) + 1 = slashes line := by
  -- read from the end: the mark that goes is the last character that is no blank
  have hrev : ∀ r : List Char, (r.dropWhile isSpace).head? = some '\\' →
      (((' ' :: (r.dropWhile isSpace).tail).takeWhile fun c => c == '\\' || isSpace c).count '\\')
        + 1 = (r.takeWhile fun c => c == '\\' || isSpace c).count '\\' := by
    intro r
    induction r with
    | nil => simp
    | cons c r ih =>
      intro hhead
      by_cases hspace : isSpace c = true
      -- a blank at the end counts for nothing on either side
      · have hne : c ≠ '\\' := by
          rintro rfl
          rw [not_isSpace_backslash] at hspace
          cases hspace
        rw [List.dropWhile_cons_of_pos hspace] at hhead ⊢
        rw [ih hhead]
        simp [hspace, hne]
      · rw [List.dropWhile_cons_of_neg hspace] at hhead ⊢
        obtain rfl : c = '\\' := by simpa using hhead
        have hblank : isSpace ' ' = true := by decide
        simp [hblank]
  have hhead : (line.reverse.dropWhile isSpace).head? = some '\\' := by
    rw [continues, rstrip, List.getLast?_reverse, decide_eq_true_eq] at h
    exact h
  have hcarried : (carried line).reverse = ' ' :: (line.reverse.dropWhile isSpace).tail := by
    simp [carried, rstrip]
  rw [slashes_of_reverse hcarried]
  exact hrev _ hhead

/-- Two lines that end in the same backslashes still do with the same text after them. -/
theorem slashes_append {a b : List Char} (h : slashes a = slashes b) (rest : List Char) :
    slashes (a ++ rest) = slashes (b ++ rest) := by
  simp only [slashes, List.reverse_append, List.takeWhile_append] at h ⊢
  split
  · rw [List.count_append, List.count_append, h]
  · rfl

/-- What stands before a character that is neither white space nor a backslash does not count. -/
theorem slashes_append_cons (a : List Char) {c : Char} (hspace : isSpace c = false)
    (hslash : c ≠ '\\') (rest : List Char) : slashes (a ++ c :: rest) = slashes (c :: rest) := by
  have hc : (c == '\\' || isSpace c) = false := by simp [hspace, hslash]
  simp only [slashes, List.reverse_append, List.reverse_cons, List.append_assoc,
    List.takeWhile_append, List.takeWhile_cons, List.singleton_append, hc]
  split
  · simp
  · simp

/-! ## Comments

A comment line is dropped where it stands alone. Within a continuation it is not. -/

theorem exists_of_isComment {l : List Char} (h : isComment l = true) :
    ∃ c rest, l = c :: rest ∧ (c = '#' ∨ c = ';') := by
  cases l with
  | nil => simp [isComment] at h
  | cons c rest => exact ⟨c, rest, rfl, by simpa [isComment] using h⟩

/-- With neither a blank nor a backslash. -/
theorem comment_char {c : Char} (h : c = '#' ∨ c = ';') : isSpace c = false ∧ c ≠ '\\' := by
  rcases h with rfl | rfl
  · exact ⟨by decide, by decide⟩
  · exact ⟨by decide, by decide⟩

/-- A comment line has blanks before its sign at most. -/
theorem isComment_lstrip_iff {line : List Char} : isComment (lstrip line) = true ↔
    ∃ blanks c rest, line = blanks ++ c :: rest ∧ (∀ d ∈ blanks, isSpace d = true) ∧
      (c = '#' ∨ c = ';') := by
  constructor
  · intro h
    obtain ⟨c, rest, hrest, hc⟩ := exists_of_isComment h
    refine ⟨line.takeWhile isSpace, c, rest, ?_, fun d hd => List.mem_takeWhile_imp hd, hc⟩
    rw [← hrest]
    exact (List.takeWhile_append_dropWhile).symm
  · intro h
    obtain ⟨blanks, c, rest, rfl, hblanks, hc⟩ := h
    have hdrop : lstrip blanks = [] := List.dropWhile_eq_nil_iff.mpr hblanks
    rw [lstrip_append_cons blanks (comment_char hc).1, hdrop]
    simpa [isComment] using hc

/-- Text after a comment is part of it. -/
theorem isComment_lstrip_append {line : List Char} (h : isComment (lstrip line) = true)
    (rest : List Char) : isComment (lstrip (line ++ rest)) = true := by
  obtain ⟨blanks, c, tail, hline, hblanks, hc⟩ := isComment_lstrip_iff.mp h
  refine isComment_lstrip_iff.mpr ⟨blanks, c, tail ++ rest, ?_, hblanks, hc⟩
  rw [hline, List.append_assoc, List.cons_append]

/-- A comment character stays in the buffer. -/
theorem carried_append_comment (l : List Char) {c : Char} {rest : List Char} (hc : c = '#' ∨ c = ';')
    (hcont : continues (l ++ c :: rest) = true) : ∃ w, carried (l ++ c :: rest) = l ++ c :: w := by
  obtain ⟨hspace, hslash⟩ := comment_char hc
  refine ⟨(rstrip rest).dropLast ++ [' '], ?_⟩
  rw [carried, rstrip_append_cons l hspace]
  cases hrest : rstrip rest with
  | nil =>
    -- the last character is `c` itself, which is no backslash
    rw [continues, rstrip_append_cons l hspace, hrest] at hcont
    simp [hslash] at hcont
  | cons d ds =>
    rw [List.dropLast_append_cons]
    simp

/-- A continued comment is carried on as a comment. -/
theorem isComment_lstrip_carried {line : List Char} (h : isComment (lstrip line) = true)
    (hcont : continues line = true) : isComment (lstrip (carried line)) = true := by
  obtain ⟨blanks, c, rest, rfl, hblanks, hc⟩ := isComment_lstrip_iff.mp h
  obtain ⟨w, hcarried⟩ := carried_append_comment blanks hc hcont
  exact isComment_lstrip_iff.mpr ⟨blanks, c, w, hcarried, hblanks, hc⟩

/-- A comment that stands alone is dropped. -/
theorem readLogical_comment {self : Directives} {line : List Char}
    (h : isComment (lstrip line) = true) :
    readLogical sect key self (stripChars isSpace line) = self := by
  obtain ⟨c, rest, hrest, hc⟩ := exists_of_isComment h
  have hstrip : stripChars isSpace line = c :: rstrip rest := by
    rw [stripChars_isSpace, hrest]
    exact rstrip_append_cons [] (comment_char hc).1 rest
  have hcomment : isComment (stripChars isSpace line) = true := by
    rw [hstrip]
    simpa [isComment] using hc
  rw [readLogical, if_pos (Or.inr hcomment)]

/-! ## States that no line tells apart

Two states with the same section and the same values, whose buffers hold a comment that goes on
equally long. -/

/-- Two states of the parser that no line tells apart: a comment is carried on in both, and the
same number of blank lines would go on with it. -/
structure Twin (a b : Directives) : Prop where
  sect : a.currentSection = b.currentSection
  values : a.values = b.values
  buffer : a.logicalLine = b.logicalLine ∨ isComment (lstrip a.logicalLine) = true ∧
    isComment (lstrip b.logicalLine) = true ∧ slashes a.logicalLine = slashes b.logicalLine

theorem ne_nil_of_isComment {line : List Char} (h : isComment (lstrip line) = true) :
    line ≠ [] := by
  rintro rfl
  simp [lstrip, isComment] at h

/-- A line keeps them apart as little as before. -/
theorem Twin.readLine {a b : Directives} (h : Twin a b) (rawLine : List Char) :
    Twin (readLine sect key a rawLine) (readLine sect key b rawLine) := by
  obtain ⟨hsect, hvalues, hbuffer⟩ := h
  obtain ⟨sa, va, la⟩ := a
  obtain ⟨sb, vb, lb⟩ := b
  obtain rfl : sa = sb := hsect
  obtain rfl : va = vb := hvalues
  rcases hbuffer with hbuffer | ⟨hla, hlb, hslashes⟩
  · obtain rfl : la = lb := hbuffer
    exact ⟨rfl, rfl, Or.inl rfl⟩
  · have hjoin : ∀ l, isComment (lstrip l) = true → joined l rawLine = l ++ lstrip rawLine :=
      fun l hl => if_neg (ne_nil_of_isComment hl)
    -- both buffers open a comment, and only the backslashes at the end say whether they go on
    have hjoined : slashes (la ++ lstrip rawLine) = slashes (lb ++ lstrip rawLine) :=
      slashes_append hslashes _
    have hca := isComment_lstrip_append hla (lstrip rawLine)
    have hcb := isComment_lstrip_append hlb (lstrip rawLine)
    simp only [Directives.readLine, hjoin la hla, hjoin lb hlb]
    cases hcont : continues (la ++ lstrip rawLine) with
    | true =>
      have hcont' : continues (lb ++ lstrip rawLine) = true := by
        rw [continues_iff, ← hjoined, ← continues_iff]
        exact hcont
      rw [if_pos rfl, if_pos hcont']
      refine ⟨rfl, rfl, Or.inr ⟨isComment_lstrip_carried hca hcont,
        isComment_lstrip_carried hcb hcont', ?_⟩⟩
      have ha := slashes_carried hcont
      have hb := slashes_carried hcont'
      show slashes (carried (la ++ lstrip rawLine)) = slashes (carried (lb ++ lstrip rawLine))
      omega
    | false =>
      have hcont' : continues (lb ++ lstrip rawLine) = false := by
        rw [not_continues_iff, ← hjoined, ← not_continues_iff]
        exact hcont
      rw [if_neg (by simp), if_neg (by simp [hcont']), readLogical_comment hca,
        readLogical_comment hcb]
      exact ⟨rfl, rfl, Or.inl rfl⟩

theorem Twin.foldl {a b : Directives} (h : Twin a b) (lines : List (List Char)) :
    Twin (lines.foldl (Directives.readLine sect key) a)
      (lines.foldl (Directives.readLine sect key) b) := by
  induction lines generalizing a b with
  | nil => exact h
  | cons l ls ih => exact ih (h.readLine l)

theorem Twin.logicalLine {a b : Directives} (h : Twin a b) :
    a.logicalLine = [] ↔ b.logicalLine = [] := by
  rcases h.buffer with hbuffer | ⟨ha, hb, -⟩
  · rw [hbuffer]
  · exact ⟨fun hnil => absurd hnil (ne_nil_of_isComment ha),
      fun hnil => absurd hnil (ne_nil_of_isComment hb)⟩

/-- In the end they have the same values. -/
theorem Twin.finish {a b : Directives} (h : Twin a b) :
    a.finish sect key = b.finish sect key := by
  have hnil := h.logicalLine
  unfold Directives.finish
  by_cases ha : a.logicalLine = []
  · rw [if_pos ha, if_pos (hnil.mp ha), h.values]
  · rw [if_neg ha, if_neg fun hb => ha (hnil.mpr hb)]

/-- The same results: both raise, or neither does. -/
theorem logicalLine_of_finish {a b : Directives} (h : a.finish sect key = b.finish sect key) :
    (a.logicalLine = [] ↔ b.logicalLine = []) ∧ (a.logicalLine = [] → a.values = b.values) := by
  unfold Directives.finish at h
  by_cases ha : a.logicalLine = []
  · by_cases hb : b.logicalLine = []
    · rw [if_pos ha, if_pos hb] at h
      exact ⟨⟨fun _ => hb, fun _ => ha⟩, fun _ => Except.ok.inj h⟩
    · rw [if_pos ha, if_neg hb] at h
      cases h
  · by_cases hb : b.logicalLine = []
    · rw [if_neg ha, if_pos hb] at h
      cases h
    · exact ⟨⟨fun h => absurd h ha, fun h => absurd h hb⟩, fun h => absurd h ha⟩

/-! ## What one line does

To the section, to the buffer and to the values, each by itself. -/

/-- Reading a logical line leaves the buffer as it is. -/
theorem readLogical_logicalLine (self : Directives) (stripped : List Char) :
    (readLogical sect key self stripped).logicalLine = self.logicalLine := by
  unfold readLogical
  split
  · rfl
  · split
    · rfl
    · split
      · rfl
      · dsimp only
        split
        · rfl
        · rfl

/-- Only a header changes the section. -/
theorem readLogical_currentSection (self : Directives) (stripped : List Char) :
    (readLogical sect key self stripped).currentSection =
      if stripped = [] ∨ isComment stripped then self.currentSection
      else if isHeader stripped then (stripped.drop 1).dropLast else self.currentSection := by
  unfold readLogical
  by_cases hcomment : stripped = [] ∨ isComment stripped
  · rw [if_pos hcomment, if_pos hcomment]
  · by_cases hheader : isHeader stripped
    · rw [if_neg hcomment, if_neg hcomment, if_pos hheader, if_pos hheader]
    · rw [if_neg hcomment, if_neg hcomment, if_neg hheader, if_neg hheader]
      split
      · rfl
      · dsimp only
        split
        · rfl
        · rfl

/-- The section and the buffer do not depend on what is looked for. -/
theorem readLine_cursor (sect key sect' key' : List Char) {a b : Directives}
    (hsect : a.currentSection = b.currentSection) (hbuffer : a.logicalLine = b.logicalLine)
    (rawLine : List Char) :
    (readLine sect key a rawLine).currentSection = (readLine sect' key' b rawLine).currentSection ∧
      (readLine sect key a rawLine).logicalLine = (readLine sect' key' b rawLine).logicalLine := by
  simp only [Directives.readLine, hbuffer]
  split
  · exact ⟨hsect, rfl⟩
  · simp only [readLogical_currentSection, readLogical_logicalLine, hsect, and_self]

/-- The section and the buffer do not depend on what is looked for. -/
theorem foldl_cursor (sect key sect' key' : List Char) (lines : List (List Char))
    {a b : Directives} (hsect : a.currentSection = b.currentSection)
    (hbuffer : a.logicalLine = b.logicalLine) :
    (lines.foldl (readLine sect key) a).currentSection
        = (lines.foldl (readLine sect' key') b).currentSection ∧
      (lines.foldl (readLine sect key) a).logicalLine
        = (lines.foldl (readLine sect' key') b).logicalLine := by
  induction lines generalizing a b with
  | nil => exact ⟨hsect, hbuffer⟩
  | cons l ls ih =>
    obtain ⟨hs, hb⟩ := readLine_cursor sect key sect' key' hsect hbuffer l
    exact ih hs hb

theorem carried_ne_nil (line : List Char) : carried line ≠ [] := by simp [carried]

/-- A comment where nothing is carried over, which carries nothing over either. -/
theorem readLine_comment {self : Directives} {comment : List Char} (hself : self.logicalLine = [])
    (hcomment : isComment (lstrip comment) = true) (hcont : continues comment = false) :
    readLine sect key self comment = self := by
  obtain ⟨s, v, l⟩ := self
  obtain rfl : l = [] := hself
  have hjoin : joined [] comment = comment := rfl
  simp only [readLine, hjoin]
  rw [if_neg (by simp [hcont]), readLogical_comment hcomment]

/-- Blank lines go on with a continuation as long as it ends in backslashes. -/
theorem blanks_logicalLine (n : Nat) {self : Directives} (h : self.logicalLine ≠ []) :
    ((List.replicate n []).foldl (readLine sect key) self).logicalLine = [] ↔
      slashes self.logicalLine < n := by
  induction n generalizing self with
  | zero => simp [h]
  | succ n ih =>
    have hjoin : joined self.logicalLine [] = self.logicalLine := by
      rw [joined, if_neg h]
      exact List.append_nil _
    rw [List.replicate_succ, List.foldl_cons]
    cases hcont : continues self.logicalLine with
    | true =>
      have hstep : readLine sect key self []
          = { self with logicalLine := carried self.logicalLine } := by
        simp only [readLine, hjoin]
        rw [if_pos hcont]
      -- each blank line takes one backslash off the end
      have hslashes := slashes_carried hcont
      rw [hstep, ih (carried_ne_nil _)]
      show slashes (carried self.logicalLine) < n ↔ slashes self.logicalLine < n + 1
      omega
    | false =>
      have hzero := (not_continues_iff _).mp hcont
      have hstep : (readLine sect key self []).logicalLine = [] := by
        simp only [readLine, hjoin]
        rw [if_neg (by simp [hcont]), readLogical_logicalLine]
      -- once the continuation has ended, blank lines are blank lines
      have hrest : ∀ (m : Nat) (b : Directives), b.logicalLine = [] →
          ((List.replicate m []).foldl (readLine sect key) b).logicalLine = [] := by
        intro m
        induction m with
        | zero => exact fun b hb => hb
        | succ m ihm =>
          intro b hb
          rw [List.replicate_succ, List.foldl_cons]
          apply ihm
          have hjoin' : joined b.logicalLine [] = [] := by rw [joined, if_pos hb]
          have hblank : continues [] = false := by decide
          simp only [readLine, hjoin', hblank]
          rfl
      simp only [hrest n _ hstep, true_iff]
      omega

/-! ## A line that tells a comment from what it stands in

If the comment line changes what is carried over, some file shows it. -/

/-- Every logical line ends in this one, so that none is a header and each has an `=`. -/
def probe : List Char := ['=', 'x']

/-- The probe is not stripped. -/
theorem strip_append_probe (l : List Char) :
    stripChars isSpace (l ++ probe) = lstrip l ++ probe := by
  have heq : isSpace '=' = false := by decide
  rw [stripChars_isSpace, probe, lstrip_append_cons l heq, rstrip_append_cons _ heq]
  rfl

/-- An assignment of the section that is looked into. -/
theorem readLogical_assignment {v : List (List Char)} (line : List Char)
    (h : isComment (line ++ probe) = false) :
    (readLogical sect key ⟨sect, v, []⟩ (line ++ probe)).values =
      if stripChars isSpace (partitionAt '=' (line ++ probe)).1 = key then
        v ++ [stripChars isSpace (partitionAt '=' (line ++ probe)).2.2]
      else v := by
  have hne : ¬(line ++ probe = [] ∨ isComment (line ++ probe) = true) := by
    rw [h]
    simp [probe]
  have hheader : ¬isHeader (line ++ probe) = true := by simp [isHeader, probe]
  have hmem : ¬(sect ≠ sect ∨ '=' ∉ line ++ probe) := by simp [probe]
  unfold readLogical
  rw [if_neg hne, if_neg hheader, if_neg hmem]
  dsimp only
  split
  · rfl
  · rfl

/-- A comment that a continued line runs into changes what is read off it. -/
theorem values_ne {u : List Char} {c : Char} (w : List Char) {v : List (List Char)}
    (hu : isComment u = false) (hlstrip : lstrip u = u) (hc : c = '#' ∨ c = ';')
    (hkey : key = stripChars isSpace (partitionAt '=' (u ++ probe)).1) :
    (readLogical sect key ⟨sect, v, []⟩ (u ++ probe)).values ≠
      (readLogical sect key ⟨sect, v, []⟩ (u ++ c :: w ++ probe)).values := by
  obtain ⟨hspace, -⟩ := comment_char hc
  -- `c` opens a comment, so it is neither the separator of a line nor blank
  have hceq : c ≠ '=' := by
    rcases hc with rfl | rfl
    · decide
    · decide
  have hplain : isComment (u ++ probe) = false := by
    cases u with
    | nil => rfl
    | cons d u => simpa [isComment] using hu
  rw [readLogical_assignment u hplain, if_pos hkey.symm]
  by_cases hnil : u = []
  · -- nothing stood before the comment, and the whole line is one
    have hcomment : isComment (u ++ c :: w ++ probe) = true := by
      rw [hnil]
      simpa [isComment] using hc
    rw [readLogical, if_pos (Or.inr hcomment)]
    simp
  · have hplain' : isComment (u ++ c :: w ++ probe) = false := by
      cases u with
      | nil => exact absurd rfl hnil
      | cons d u => simpa [isComment] using hu
    rw [readLogical_assignment _ hplain']
    by_cases hmem : '=' ∈ u
    · -- the same key, and a longer value
      obtain ⟨a, b, rfl, ha⟩ := List.eq_append_cons_of_mem hmem
      have hleft : partitionAt '=' (a ++ '=' :: b ++ probe) = (a, true, b ++ probe) := by
        rw [List.append_assoc, List.cons_append]
        exact partitionAt_append '=' a _ ha
      have hright : partitionAt '=' (a ++ '=' :: b ++ c :: w ++ probe)
          = (a, true, b ++ c :: w ++ probe) := by
        rw [List.append_assoc, List.append_assoc, List.cons_append,
          partitionAt_append '=' a _ ha, List.append_assoc]
      rw [hleft] at hkey ⊢
      rw [hright, if_pos hkey.symm]
      have hlong : stripChars isSpace (b ++ c :: w ++ probe) = lstrip b ++ c :: w ++ probe := by
        rw [strip_append_probe, lstrip_append_cons b hspace]
      simp only [strip_append_probe, hlong]
      intro h
      have hvalue := (List.cons.inj (List.append_cancel_left h)).1
      have hlength := congrArg List.length hvalue
      simp only [List.length_append, List.length_cons] at hlength
      omega
    · -- a longer key
      have hleft : partitionAt '=' (u ++ probe) = (u, true, ['x']) :=
        partitionAt_append '=' u _ hmem
      rw [hleft] at hkey
      have hmem' : '=' ∈ w ++ probe := by simp [probe]
      obtain ⟨a, b, hab, ha⟩ := List.eq_append_cons_of_mem hmem'
      have hline : u ++ c :: w ++ probe = (u ++ c :: a) ++ '=' :: b := by
        rw [List.append_assoc, List.cons_append, hab]
        simp
      have hnot : '=' ∉ u ++ c :: a := by simp [hmem, ha, hceq.symm]
      rw [hline, partitionAt_append '=' _ _ hnot]
      have hlonger : stripChars isSpace (u ++ c :: a) ≠ key := by
        rw [hkey, stripChars_isSpace, stripChars_isSpace, lstrip_append_cons u hspace, hlstrip,
          rstrip_append_cons u hspace]
        intro h
        have hlength := congrArg List.length h
        have hle := length_rstrip_le u
        simp at hlength
        omega
      rw [if_neg hlonger]
      simp

def buffer (lines : List (List Char)) : List Char :=
  (lines.foldl (readLine [] []) .init).logicalLine

theorem foldl_logicalLine (sect key : List Char) (lines : List (List Char)) :
    (lines.foldl (readLine sect key) .init).logicalLine = buffer lines :=
  (foldl_cursor sect key [] [] lines rfl rfl).2

end Directives

/-! ## Places

The condition under which a comment line may be put in, and that it is exact. -/

def singleLine (l : List Char) : Bool :=
  l.all fun c => !isLineBreak c

/-- A text is a single line when no character ends one. -/
theorem singleLine_iff {l : List Char} :
    singleLine l = true ↔ ∀ c ∈ l, isLineBreak c = false := by
  simp [singleLine]

/-- A place between two lines of a unit, given by the lines before it, and a comment line for it. -/
structure CommentPlace where
  before : List (List Char)
  comment : List Char
  lines : ∀ l ∈ comment :: before, singleLine l = true
  isComment : Directives.isComment (lstrip comment) = true

namespace CommentPlace

variable (p : CommentPlace)

/-- Whatever text follows, no section and no key tells whether the comment is there. -/
def Inert : Prop :=
  ∀ text text' after sect key, splitLines text = p.before ++ after →
    splitLines text' = p.before ++ p.comment :: after →
      systemdDirectives text' sect key = systemdDirectives text sect key

/-- Nothing is carried over to the comment and nothing on from it; or the lines before it end in a
comment that is continued, and the new one continues it by as many backslashes. -/
def Apart : Prop :=
  buffer p.before = [] ∧ continues p.comment = false ∨
    Directives.isComment (lstrip (buffer p.before)) = true ∧
      slashes p.comment = slashes (buffer p.before) + 1

instance : Decidable p.Apart := by
  unfold Apart
  infer_instance

/-- The states after the comment and without it, once more lines have been read. -/
def Same (after : List (List Char)) (sect key : List Char) : Prop :=
  let self := p.before.foldl (readLine sect key) .init
  (after.foldl (readLine sect key) (readLine sect key self p.comment)).finish sect key =
    (after.foldl (readLine sect key) self).finish sect key

variable {p}

/-- Where the comment is inert, the states with and without it end in the same values. -/
theorem same_of_inert (h : p.Inert) (after : List (List Char))
    (hafter : ∀ l ∈ after, singleLine l = true) (sect key : List Char) :
    p.Same after sect key := by
  have hbefore : ∀ l ∈ p.before, singleLine l = true :=
    fun l hl => p.lines l (List.mem_cons_of_mem _ hl)
  have htext := splitLines_flatMap (p.before ++ after) fun l hl => singleLine_iff.mp <|
    (List.mem_append.mp hl).elim (hbefore l) (hafter l)
  have htext' := splitLines_flatMap (p.before ++ p.comment :: after) fun l hl => by
    apply singleLine_iff.mp
    rcases List.mem_append.mp hl with hl | hl
    · exact hbefore l hl
    · rcases List.mem_cons.mp hl with rfl | hl
      · exact p.lines _ (List.mem_cons_self ..)
      · exact hafter l hl
  have hsame := h _ _ after sect key htext htext'
  rw [systemdDirectives, systemdDirectives, htext, htext', List.foldl_append,
    List.foldl_append] at hsame
  exact hsame

/-- The comment, read where something is carried over. -/
theorem readLine_carried (p : CommentPlace) (sect key : List Char) {self : Directives}
    {buf : List Char} (hself : self.logicalLine = buf) (hbuf : buf ≠ [])
    (hcont : continues p.comment = true) :
    ∃ c w, (c = '#' ∨ c = ';') ∧ slashes (buf ++ c :: w) + 1 = slashes p.comment ∧
      readLine sect key self p.comment = { self with logicalLine := buf ++ c :: w } := by
  obtain ⟨blanks, c, rest, hcomment, hblanks, hc⟩ := isComment_lstrip_iff.mp p.isComment
  obtain ⟨hspace, hslash⟩ := comment_char hc
  have hlstrip : lstrip p.comment = c :: rest := by
    have hdrop : lstrip blanks = [] := List.dropWhile_eq_nil_iff.mpr hblanks
    rw [hcomment, lstrip_append_cons blanks hspace, hdrop]
    rfl
  have hslashes : slashes (buf ++ c :: rest) = slashes p.comment := by
    rw [hcomment, slashes_append_cons buf hspace hslash, slashes_append_cons blanks hspace hslash]
  have hcont' : continues (buf ++ c :: rest) = true := by
    rw [continues_iff, hslashes, ← continues_iff]
    exact hcont
  obtain ⟨w, hcarried⟩ := carried_append_comment buf hc hcont'
  refine ⟨c, w, hc, ?_, ?_⟩
  · rw [← hcarried, slashes_carried hcont', hslashes]
  · have hjoin : joined self.logicalLine p.comment = buf ++ c :: rest := by
      rw [hself, joined, if_neg hbuf, hlstrip]
    simp only [readLine, hjoin]
    rw [if_pos hcont', hcarried]

theorem inert_of_apart (h : p.Apart) : p.Inert := by
  intro text text' after sect key htext htext'
  rw [systemdDirectives, systemdDirectives, htext, htext', List.foldl_append, List.foldl_append,
    List.foldl_cons]
  have hbuffer := foldl_logicalLine sect key p.before
  rcases h with ⟨hnil, hcont⟩ | ⟨hcarried, hslashes⟩
  · rw [readLine_comment (hbuffer.trans hnil) p.isComment hcont]
  · have hcont : continues p.comment = true := by
      rw [continues_iff]
      omega
    obtain ⟨c, w, -, hafter, hread⟩ :=
      p.readLine_carried sect key hbuffer (ne_nil_of_isComment hcarried) hcont
    have htwin : Twin (readLine sect key (p.before.foldl (readLine sect key) .init) p.comment)
        (p.before.foldl (readLine sect key) .init) := by
      rw [hread]
      refine ⟨rfl, rfl, Or.inr ⟨isComment_lstrip_append hcarried _, ?_, ?_⟩⟩
      · rw [hbuffer]
        exact hcarried
      · rw [hbuffer]
        show slashes (buffer p.before ++ c :: w) = slashes (buffer p.before)
        omega
    exact (htwin.foldl after).finish

/-- Blank lines tell two continuations with different backslashes apart. -/
theorem slashes_of_same (sect key : List Char) {self self' : Directives}
    (hself : self.logicalLine ≠ []) (hself' : self'.logicalLine ≠ [])
    (h : ∀ n, ((List.replicate n []).foldl (readLine sect key) self).finish sect key =
      ((List.replicate n []).foldl (readLine sect key) self').finish sect key) :
    slashes self.logicalLine = slashes self'.logicalLine := by
  have hiff : ∀ n, slashes self.logicalLine < n ↔ slashes self'.logicalLine < n := by
    intro n
    rw [← blanks_logicalLine n hself, ← blanks_logicalLine n hself']
    exact (logicalLine_of_finish (h n)).1
  have hle := (hiff (slashes self.logicalLine + 1)).mp (Nat.lt_succ_self _)
  have hge := (hiff (slashes self'.logicalLine + 1)).mpr (Nat.lt_succ_self _)
  omega

/-- A continuation that is no comment takes the comment in. -/
theorem isComment_of_inert (h : p.Inert) (hbuf : buffer p.before ≠ [])
    (hcont : continues p.comment = true) :
    Directives.isComment (lstrip (buffer p.before)) = true := by
  by_contra hplain
  have hprobe : ∀ l ∈ [probe], singleLine l = true := by decide
  let sect := (p.before.foldl (readLine [] []) .init).currentSection
  let u := lstrip (buffer p.before)
  let key := stripChars isSpace (partitionAt '=' (u ++ probe)).1
  have hsame := same_of_inert h [probe] hprobe sect key
  have hcursor := foldl_cursor sect key [] [] p.before (a := .init) rfl rfl
  generalize hself : p.before.foldl (readLine sect key) .init = self at hcursor
  obtain ⟨s, v, l⟩ := self
  obtain rfl : s = sect := hcursor.1
  obtain rfl : l = buffer p.before := hcursor.2
  have hself' : (⟨sect, v, buffer p.before⟩ : Directives).logicalLine = buffer p.before := rfl
  obtain ⟨c, w, hc, -, hread⟩ := p.readLine_carried sect key hself' hbuf hcont
  -- the probe ends both logical lines
  have hend : ∀ (l : List Char), l ≠ [] → readLine sect key ⟨sect, v, l⟩ probe =
      readLogical sect key ⟨sect, v, []⟩ (lstrip l ++ probe) := by
    intro l hl
    have hjoin : joined l probe = l ++ probe := if_neg hl
    have hlast : continues (l ++ probe) = false := by
      rw [not_continues_iff, probe, slashes_append_cons l (by decide) (by decide)]
      decide
    simp only [readLine, hjoin]
    rw [if_neg (by simp [hlast]), strip_append_probe]
  have hvalues : (readLogical sect key ⟨sect, v, []⟩ (u ++ c :: w ++ probe)).values =
      (readLogical sect key ⟨sect, v, []⟩ (u ++ probe)).values := by
    unfold CommentPlace.Same at hsame
    simp only [hself, hread, List.foldl_cons, List.foldl_nil] at hsame
    rw [hend _ (by simp), hend _ hbuf, lstrip_append_cons _ (comment_char hc).1] at hsame
    exact (logicalLine_of_finish hsame).2 (readLogical_logicalLine _ _)
  have hlstrip : lstrip u = u := List.dropWhile_idempotent isSpace _
  exact values_ne w (by simpa using hplain) hlstrip hc rfl hvalues.symm

theorem apart_of_inert (h : p.Inert) : p.Apart := by
  have hbuffer := foldl_logicalLine [] [] p.before
  have hsame := logicalLine_of_finish (same_of_inert h [] (by simp) [] [])
  simp only [List.foldl_nil, hbuffer] at hsame
  by_cases hnil : buffer p.before = []
  · refine Or.inl ⟨hnil, ?_⟩
    by_contra hcont
    have hcont : continues p.comment = true := by simpa using hcont
    have hread := hsame.1.mpr hnil
    have hjoin : joined (buffer p.before) p.comment = p.comment := by rw [joined, if_pos hnil]
    simp only [readLine, hbuffer, hjoin, hcont] at hread
    exact absurd hread (carried_ne_nil _)
  · cases hcont : continues p.comment with
    | false =>
      -- the comment ends the continuation
      have hread : (readLine [] [] (p.before.foldl (readLine [] []) .init) p.comment).logicalLine
          = [] := by
        obtain ⟨blanks, c, rest, hcomment, hblanks, hc⟩ := isComment_lstrip_iff.mp p.isComment
        obtain ⟨hspace, hslash⟩ := comment_char hc
        have hlstrip : lstrip p.comment = c :: rest := by
          have hdrop : lstrip blanks = [] := List.dropWhile_eq_nil_iff.mpr hblanks
          rw [hcomment, lstrip_append_cons blanks hspace, hdrop]
          rfl
        have hjoin : joined (buffer p.before) p.comment = buffer p.before ++ c :: rest := by
          rw [joined, if_neg hnil, hlstrip]
        have hcont' : continues (buffer p.before ++ c :: rest) = false := by
          rw [not_continues_iff, hcomment, slashes_append_cons _ hspace hslash] at hcont
          rw [not_continues_iff, slashes_append_cons _ hspace hslash]
          exact hcont
        simp only [readLine, hbuffer, hjoin]
        rw [if_neg (by simp [hcont']), readLogical_logicalLine]
      exact absurd (hsame.1.mp hread) hnil
    | true =>
      have hcarried := isComment_of_inert h hnil hcont
      obtain ⟨c, w, hc, hafter, hread⟩ :=
        p.readLine_carried [] [] hbuffer hnil hcont
      refine Or.inr ⟨hcarried, ?_⟩
      have hblanks : ∀ n, ∀ l ∈ List.replicate n ([] : List Char), singleLine l = true := by
        intro n l hl
        rw [List.eq_of_mem_replicate hl]
        rfl
      have hslashes := slashes_of_same [] [] (by rw [hread]; simp)
        (by rw [hbuffer]; exact hnil) fun n => same_of_inert h _ (hblanks n) [] []
      rw [hread, hbuffer] at hslashes
      show slashes p.comment = slashes (buffer p.before) + 1
      rw [← hafter]
      exact congrArg (· + 1) hslashes

/-- **A comment is inert exactly where the parser neither carries anything over to it nor anything
on from it**, or where it prolongs a continued comment by as many backslashes. -/
theorem inert_iff (p : CommentPlace) : p.Inert ↔ p.Apart :=
  ⟨apart_of_inert, inert_of_apart⟩

/-- **A comment that ends in a backslash hides the directive after it.** -/
theorem not_inert : ¬∀ p : CommentPlace, p.Inert := by
  intro h
  have hcomment := h ⟨["[Service]".toList], "# \\".toList, by decide, by decide⟩
    "[Service]\nUser=root\n".toList "[Service]\n# \\\nUser=root\n".toList ["User=root".toList]
    "Service".toList "User".toList (by decide) (by decide)
  exact absurd hcomment (by decide)

/-- A comment between a continued line and its continuation takes the latter's place. -/
example : (systemdDirectives "[Socket]\nListenStream= \\\n8080\n".toList "Socket".toList
      "ListenStream".toList,
    systemdDirectives "[Socket]\nListenStream= \\\n# the port\n8080\n".toList "Socket".toList
      "ListenStream".toList) = (.ok ["8080".toList], .ok ["# the port".toList]) := by decide

end CommentPlace

end Rave
