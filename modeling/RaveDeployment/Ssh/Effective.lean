import RaveDeployment.Ssh.Verifier

/-!
# What sshd makes of its configuration

`Sshd.config` is the order in which sshd reads its directives: line by line, an `Include` expanded
in place in the order of the file names. For each keyword the first value counts (`effective`).

The verifier looks for its lines in one of these files. `effective_eq_iff` says when that is enough:
when nothing that is read before the policy's own line gives the keyword another value.
`unsound_dropIn` is an image that passes and accepts passwords.
-/

namespace Rave

open Py

/-- Lines as `getline` reads them: only a newline ends one. -/
def splitNewlines : List Char → List (List Char)
  | [] => []
  | c :: cs => if c = '\n' then [] :: splitNewlines cs else consLine c (splitNewlines cs)

def PlainText (text : List Char) : Prop :=
  ∀ c ∈ text, isLineBreak c = true → c = '\n'

/-- What the model takes from OpenSSH. -/
structure Sshd where
  /-- What a line says: nothing, or a keyword with its arguments. -/
  line : List Char → Option (String × String)
  /-- The paths an `Include` pattern stands for. -/
  included : String → String → Bool
  /-- The value of a keyword that is given nowhere. -/
  default : String → String
  line_required : ∀ r ∈ requiredPolicy, line r.text = some (r.keyword, r.value)
  line_include : line INCLUDE_LINE.toList = some ("Include", INCLUDE_PATTERN)
  included_policy : included INCLUDE_PATTERN POLICY_PATH = true

def lowerKeyword (keyword : String) : String :=
  String.ofList (keyword.toList.map Char.toLower)

/-- A directive, with the file it stands in. -/
structure Directive where
  path : String
  keyword : String
  value : String
  deriving DecidableEq

/-- `SERVCONF_MAX_DEPTH`: sshd refuses to start where includes are nested more deeply. -/
def MAX_INCLUDE_DEPTH : Nat := 16

namespace Sshd

variable (S : Sshd) (rootfs : RootFs)

/-- The directives a line stands for, where `inner` reads the files of an include. -/
def lineDirectives (inner : String → List Directive) (path : String) (text : List Char) :
    List Directive :=
  match S.line text with
  | none => []
  | some (keyword, value) =>
    if lowerKeyword keyword = "include" then
      ((rootfs.files.map Prod.fst).filter (S.included value)).flatMap inner
    else [⟨path, lowerKeyword keyword, value⟩]

def fileLines (path : String) : List (List Char) :=
  splitNewlines ((rootfs.content path).getD [])

/-- The directives of a file with at most `depth` levels of includes below it. -/
def directives : Nat → String → List Directive
  | 0, path => (fileLines rootfs path).flatMap (S.lineDirectives rootfs (fun _ => []) path)
  | depth + 1, path =>
    (fileLines rootfs path).flatMap (S.lineDirectives rootfs (directives depth) path)

/-- All directives, in the order in which sshd reads them. -/
def config : List Directive :=
  S.directives rootfs MAX_INCLUDE_DEPTH SSHD_CONFIG

/-- The value sshd uses: the first one, or the default. -/
def effective (keyword : String) : String :=
  match (S.config rootfs).find? fun d => d.keyword = lowerKeyword keyword with
  | some d => d.value
  | none => S.default (lowerKeyword keyword)

def policyLine (r : Requirement) : Directive where
  path := POLICY_PATH
  keyword := lowerKeyword r.keyword
  value := r.value

/-- What sshd reads before the policy's own line: everything, where it does not see that line. -/
def readBefore (r : Requirement) : List Directive :=
  (S.config rootfs).takeWhile fun d => d ≠ policyLine r

/-- Before the policy's own line the keyword has got another value. -/
def Overridden (r : Requirement) : Prop :=
  ∃ d, (S.readBefore rootfs r).find? (fun d => d.keyword = lowerKeyword r.keyword) = some d ∧
    d.value ≠ r.value

def Unstated (r : Requirement) : Prop :=
  ∀ d ∈ S.config rootfs, d.keyword ≠ lowerKeyword r.keyword

end Sshd

/-! ## Which directive comes first

sshd takes the first value that it reads of a keyword. What stands before the policy's own line
decides. -/

/-- A search is decided before `a`, or by `a`. -/
theorem find?_takeWhile_ne {α : Type} [DecidableEq α] {p : α → Bool} {a : α} (ha : p a = true)
    (l : List α) : l.find? p = ((l.takeWhile fun b => b ≠ a).find? p).or
      (if a ∈ l then some a else none) := by
  induction l with
  | nil => rfl
  | cons b l ih =>
    by_cases hb : b = a
    · subst hb
      simp [ha]
    · rw [List.takeWhile_cons_of_pos (by simpa using hb)]
      cases hp : p b with
      | true => simp [hp]
      | false => simp [hp, ih, Ne.symm hb]

section

variable {S : Sshd} {rootfs : RootFs} {r : Requirement}

/-- **First value wins.** The required value is used exactly where the keyword gets no other value
before the policy's own line, and, where sshd reads nothing about it, has it by default. -/
theorem Sshd.effective_eq_iff : S.effective rootfs r.keyword = r.value ↔
    ¬S.Overridden rootfs r ∧
      (S.Unstated rootfs r → S.default (lowerKeyword r.keyword) = r.value) := by
  have hfind := find?_takeWhile_ne (p := fun d => d.keyword = lowerKeyword r.keyword)
    (a := Sshd.policyLine r) (by simp [Sshd.policyLine]) (S.config rootfs)
  unfold Sshd.effective Sshd.Overridden
  rw [hfind, Sshd.readBefore]
  cases hbefore : ((S.config rootfs).takeWhile fun d => d ≠ Sshd.policyLine r).find?
      fun d => d.keyword = lowerKeyword r.keyword with
  | some d =>
    -- decided before the policy's own line
    have hstated : ¬S.Unstated rootfs r := by
      intro hnone
      have hmem := List.mem_of_find?_eq_some hbefore
      have hkey := List.find?_some hbefore
      exact hnone d ((List.takeWhile_sublist _).subset hmem) (by simpa using hkey)
    simp [hstated]
  | none =>
    by_cases hmem : Sshd.policyLine r ∈ S.config rootfs
    · -- decided by the policy's own line
      have hstated : ¬S.Unstated rootfs r := fun hnone => hnone _ hmem rfl
      rw [if_pos hmem]
      simp [hstated, Sshd.policyLine]
    · have hnone : S.Unstated rootfs r := by
        rw [hbefore, if_neg hmem] at hfind
        simpa [Sshd.Unstated] using hfind
      rw [if_neg hmem]
      simp [hnone]

/-! ## The policy's own line is read

Through the `Include` of the main file, if both files are plain text. -/

/-- Python's lines of a text are those of sshd, where the text has no other line boundaries. -/
theorem splitLines_eq_splitNewlines {l : List Char} (h : PlainText l) :
    splitLines l = splitNewlines l := by
  induction l with
  | nil => rfl
  | cons c cs ih =>
    have hcs := ih fun d hd => h d (List.mem_cons_of_mem c hd)
    rw [splitNewlines]
    by_cases hc : c = '\n'
    · rw [if_pos hc, hc, splitLines, hcs]
      · rfl
      · rintro cs' ⟨⟩
    · have hbreak : isLineBreak c = false := by
        by_contra hbreak
        exact hc (h c (by simp) (by simpa using hbreak))
      rw [if_neg hc, splitLines_cons hbreak, hcs]

/-- In a plain text, Python's lines are those between the newlines. -/
theorem splitLines_of_plainText {text : List Char} (h : PlainText text) :
    splitLines (universalNewlines text) = splitNewlines text := by
  have hreturn : '\r' ∉ text := by
    intro hmem
    exact absurd (h _ hmem (by decide)) (by decide)
  rw [universalNewlines_of_not_mem hreturn, splitLines_eq_splitNewlines h]

/-- A file that has a content is one of the files. -/
theorem RootFs.mem_paths {path : String} {text : List Char} (h : rootfs.content path = some text) :
    path ∈ rootfs.files.map Prod.fst := by
  obtain ⟨⟨path', text'⟩, hfind, -⟩ := Option.map_eq_some_iff.mp h
  obtain rfl : path' = path := by simpa using List.find?_some hfind
  exact List.mem_map.mpr ⟨_, List.mem_of_find?_eq_some hfind, rfl⟩

/-- In an image that is accepted, sshd reads every required line, unless a text has line boundaries
that are none to sshd. -/
theorem PolicyAccepted.policyLine_mem {policy main : List Char}
    (h : PolicyAccepted rootfs policy main) (hr : r ∈ requiredPolicy) (hpolicy : PlainText policy)
    (hmain : PlainText main) :
    Sshd.policyLine r ∈ S.config rootfs := by
  -- the main file includes the directory, and the policy file has the line
  have hinclude : INCLUDE_LINE.toList ∈ Sshd.fileLines rootfs SSHD_CONFIG := by
    rw [Sshd.fileLines, h.main_content, Option.getD_some, ← splitLines_of_plainText hmain]
    exact h.included
  have hline : r.text ∈ Sshd.fileLines rootfs POLICY_PATH := by
    rw [Sshd.fileLines, h.policy_content, Option.getD_some, ← splitLines_of_plainText hpolicy]
    exact h.required r hr
  have hkeyword : ∀ r ∈ requiredPolicy, lowerKeyword r.keyword ≠ "include" := by
    decide
  -- the policy file is one of those that the pattern matches
  have hown : Sshd.policyLine r ∈ S.directives rootfs 15 POLICY_PATH := by
    refine List.mem_flatMap.mpr ⟨r.text, hline, ?_⟩
    simp [Sshd.lineDirectives, S.line_required r hr, hkeyword r hr, Sshd.policyLine]
  have hpath : POLICY_PATH ∈
      (rootfs.files.map Prod.fst).filter (S.included INCLUDE_PATTERN) :=
    List.mem_filter.mpr ⟨RootFs.mem_paths h.policy_content, S.included_policy⟩
  have hlower : lowerKeyword "Include" = "include" := by decide
  refine List.mem_flatMap.mpr ⟨INCLUDE_LINE.toList, hinclude, ?_⟩
  rw [Sshd.lineDirectives, S.line_include]
  simp only [hlower, if_true]
  exact List.mem_flatMap.mpr ⟨POLICY_PATH, hpath, hown⟩

end

section

variable [PyUnicode] {S : Sshd} {rootfs : RootFs} {r : Requirement}

/-- **When the verifier is sound.** In an image it accepts, a required value is the one sshd uses
exactly where the keyword gets no other value before the policy's own line; that sshd reads nothing
about the keyword is possible only through line boundaries that are none to sshd. -/
theorem verified_effective_iff (h : verifySshPolicy rootfs = .ok ()) (hr : r ∈ requiredPolicy) :
    (S.effective rootfs r.keyword = r.value ↔ ¬S.Overridden rootfs r ∧
      (S.Unstated rootfs r → S.default (lowerKeyword r.keyword) = r.value)) ∧
    ((∀ path ∈ [SSHD_CONFIG, POLICY_PATH], ∀ text ∈ rootfs.content path, PlainText text) →
      ¬S.Unstated rootfs r) := by
  refine ⟨Sshd.effective_eq_iff, fun hplain hnone => ?_⟩
  obtain ⟨policy, main, haccepted⟩ := policyAccepted_of_verified h
  have hpolicy := hplain POLICY_PATH (by simp) policy haccepted.policy_content
  have hmain := hplain SSHD_CONFIG (by simp) main haccepted.main_content
  exact hnone _ (haccepted.policyLine_mem hr hpolicy hmain) rfl

end

/-! ## An image that is accepted and takes passwords

A drop-in that is read before the policy. The verifier does not look at it. -/

def opensshLine (text : List Char) : Option (String × String) :=
  match splitWords [] text with
  | [] => none
  | keyword :: arguments =>
    if keyword.head? = some '#' then none
    else some (String.ofList keyword, String.ofList (List.intercalate [' '] arguments))

def opensshIncluded (pattern path : String) : Bool :=
  if pattern = INCLUDE_PATTERN then
    RootFs.isDropIn path && path.toList[SSHD_DROP_INS.toList.length]? ≠ some '.'
  else pattern = path

/-- The lines of the policy are read as its requirements. -/
theorem opensshLine_required :
    ∀ r ∈ requiredPolicy, opensshLine r.text = some (r.keyword, r.value) := by
  decide

/-- The line that includes the drop-ins is read as such. -/
theorem opensshLine_include :
    opensshLine INCLUDE_LINE.toList = some ("Include", INCLUDE_PATTERN) := by
  decide

theorem opensshIncluded_policy : opensshIncluded INCLUDE_PATTERN POLICY_PATH = true := by
  decide

def openssh : Sshd where
  line := opensshLine
  included := opensshIncluded
  default keyword :=
    if keyword = "permitrootlogin" then "prohibit-password"
    else if keyword = "allowusers" then ""
    else if keyword ∈ ["permitemptypasswords", "gatewayports", "x11forwarding", "permittunnel"] then
      "no"
    else "yes"
  line_required := opensshLine_required
  line_include := opensshLine_include
  included_policy := opensshIncluded_policy

def reviewedPolicy : List Char :=
  "# Gate 2B engineering access only. This policy is not public-release qualified.\n".toList ++
    requiredPolicy.flatMap fun r => r.text ++ ['\n']

def reviewedImage : RootFs where
  files := [(SSHD_CONFIG, INCLUDE_LINE.toList), (POLICY_PATH, reviewedPolicy)]
  sorted := by decide

/-- The reviewed image with another drop-in, which is read first. -/
def cloudImage : RootFs where
  files := [(SSHD_CONFIG, INCLUDE_LINE.toList),
    ("/etc/ssh/sshd_config.d/00-cloud.conf", "PasswordAuthentication yes".toList),
    (POLICY_PATH, reviewedPolicy)]
  sorted := by decide

/-- `PasswordAuthentication no`. -/
def noPasswords : Requirement := ⟨"PasswordAuthentication", "no"⟩

theorem noPasswords_mem : noPasswords ∈ requiredPolicy := by
  simp [noPasswords, requiredPolicy]

theorem verified_images : @verifySshPolicy asciiUnicode reviewedImage = .ok () ∧
    @verifySshPolicy asciiUnicode cloudImage = .ok () := by
  constructor
  · decide +kernel
  · decide +kernel

/-- The files of the reviewed image are plain text. -/
theorem plainText_reviewed (path : String) :
    ∀ text ∈ reviewedImage.content path, PlainText text := by
  have hplain : (reviewedImage.files.all fun file =>
      file.2.all fun c => !isLineBreak c || c == '\n') = true := by
    decide +kernel
  intro text htext c hc hbreak
  obtain ⟨file, hfile, rfl⟩ := Option.map_eq_some_iff.mp htext
  have hmem := List.mem_of_find?_eq_some hfile
  have hchar := List.all_eq_true.mp (List.all_eq_true.mp hplain file hmem) c hc
  simpa [hbreak] using hchar

theorem effective_reviewedImage :
    (openssh.effective reviewedImage noPasswords.keyword == noPasswords.value) = true := by
  decide

/-- The reviewed image states the keyword in plain lines, and nothing is read before its policy. -/
theorem verified_effective_reviewed :
    openssh.effective reviewedImage noPasswords.keyword = noPasswords.value ∧
      ¬openssh.Overridden reviewedImage noPasswords ∧
      ¬openssh.Unstated reviewedImage noPasswords := by
  obtain ⟨heffective, hstated⟩ := @verified_effective_iff asciiUnicode openssh reviewedImage
    noPasswords verified_images.1 noPasswords_mem
  have hvalue := beq_iff_eq.mp effective_reviewedImage
  exact ⟨hvalue, (heffective.mp hvalue).1, hstated fun path _ => plainText_reviewed path⟩

theorem effective_cloudImage :
    (openssh.effective cloudImage noPasswords.keyword == noPasswords.value) = false := by
  decide

/-- **The verifier accepts an image whose sshd takes passwords.** -/
theorem unsound_dropIn : ¬∀ (_ : PyUnicode) (S : Sshd) (rootfs : RootFs),
    verifySshPolicy rootfs = .ok () → ∀ r ∈ requiredPolicy,
      S.effective rootfs r.keyword = r.value := by
  intro hall
  have heffective := hall asciiUnicode openssh cloudImage verified_images.2 noPasswords
    noPasswords_mem
  exact absurd heffective (beq_eq_false_iff_ne.mp effective_cloudImage)

end Rave
