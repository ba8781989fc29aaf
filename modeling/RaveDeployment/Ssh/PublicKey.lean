import RaveDeployment.Python.Base64
import RaveDeployment.Python.Text
import RaveDeployment.Python.Utf8

/-!
# The engineering public key

`parse_public_key` of `scripts/engineering_ssh_key.py`. `parsePublicKey_eq_ok` says what it accepts,
`parsePublicKey_line` that it accepts a line of its own, and `parsePublicKey_stable` is assembled
from the two: what is accepted is accepted again in its normalised form, with the same result.
-/

namespace Rave

open Py

/-- `ssh-ed25519`. -/
def KEY_TYPE : List UInt8 := [115, 115, 104, 45, 101, 100, 50, 53, 53, 49, 57]

/-- `KEY_TYPE.decode()`. -/
def keyTypeText : List Char := "ssh-ed25519".toList

def MAX_INPUT_BYTES : Nat := 1024
def MAX_COMMENT_LENGTH : Nat := 128

structure EngineeringPublicKey where
  normalized : List Char
  fingerprint : List Char
  deriving DecidableEq

/-- The message of a `PublicKeyError`, or the result. -/
abbrev KeyResult : Type → Type := Except String

/-! ## The payload

The binary form of a key: two fields, each with its length in four bytes. -/

/-- `struct.unpack(">I", word)[0]`. -/
def unpackWord (word : List UInt8) : Nat :=
  word.foldl (fun n b => n * 256 + b.toNat) 0

/-- `_read_field`. -/
def readField (blob : List UInt8) (offset : Nat) : KeyResult (List UInt8 × Nat) :=
  if offset + 4 > blob.length then .error "engineering public key payload is truncated"
  else
    let length := unpackWord ((blob.take (offset + 4)).drop offset)
    let start := offset + 4
    let stop := start + length
    if stop > blob.length then .error "engineering public key payload is truncated"
    else .ok ((blob.take stop).drop start, stop)

/-- The payload is the type and a key of 32 bytes. -/
def checkPayload (blob : List UInt8) : KeyResult Unit := do
  let (keyType, offset) ← readField blob 0
  let (keyMaterial, offset) ← readField blob offset
  if keyType ≠ KEY_TYPE ∨ keyMaterial.length ≠ 32 ∨ offset ≠ blob.length then
    throw "engineering public key payload is not ED25519"

/-! ## The line

The words of the line, and the line that is written in its place. -/

/-- `line.strip().split(maxsplit=2)`. -/
def keyFields (line : List Char) : List (List Char) :=
  splitMax 2 (stripChars isSpace line)

/-- Whether the comment is too long or has a control character. -/
def commentInvalid (comment : List Char) : Bool :=
  MAX_COMMENT_LENGTH < comment.length ||
    comment.any fun c => c.toNat < 0x20 || c.toNat = 0x7f

def normalizedLine (blob : List UInt8) (comment : List Char) : List Char :=
  let normalized := keyTypeText ++ [' '] ++ b64encode blob
  if comment = [] then normalized else normalized ++ [' '] ++ comment

section

variable (sha256 : List UInt8 → List UInt8)

def fingerprintOf (blob : List UInt8) : List Char :=
  "SHA256:".toList ++ ((b64encode (sha256 blob)).reverse.dropWhile fun c => c = '=').reverse

/-- `parse_public_key`. -/
def parsePublicKey (content : List Char) : KeyResult EngineeringPublicKey :=
  if (encodeUtf8 content).length > MAX_INPUT_BYTES then
    .error "engineering public key input is too large"
  else
    match splitLines content with
    | [line] =>
      let fields := keyFields line
      if (fields.length ≠ 2 ∧ fields.length ≠ 3) ∨ fields.getD 0 [] ≠ keyTypeText then
        .error "engineering public key must be OpenSSH ssh-ed25519"
      else
        match b64decode (fields.getD 1 []) with
        | none => .error "engineering public key base64 is invalid"
        | some blob => do
          checkPayload blob
          let comment := fields.getD 2 []
          if commentInvalid comment then throw "engineering public key comment is invalid"
          return ⟨normalizedLine blob comment, fingerprintOf sha256 blob⟩
    | _ => .error "engineering public key input must contain exactly one line"

end

/-! ## What the payload is

A payload that is accepted is the one of its 32 bytes. -/

/-- `struct.pack(">I", n)`. -/
def packWord (n : Nat) : List UInt8 :=
  [UInt8.ofNat (n / 16777216), UInt8.ofNat (n / 65536 % 256), UInt8.ofNat (n / 256 % 256),
    UInt8.ofNat (n % 256)]

def lengthPrefixed (s : List UInt8) : List UInt8 :=
  packWord s.length ++ s

def keyBlob (key : List UInt8) : List UInt8 :=
  lengthPrefixed KEY_TYPE ++ lengthPrefixed key

/-- A length is written as it was read. -/
theorem packWord_unpackWord {word : List UInt8} (h : word.length = 4) :
    packWord (unpackWord word) = word := by
  match word, h with
  | [a, b, c, d], _ =>
    have ha := a.toNat_lt
    have hb := b.toNat_lt
    have hc := c.toNat_lt
    have hd := d.toNat_lt
    have hword : unpackWord [a, b, c, d]
        = ((a.toNat * 256 + b.toNat) * 256 + c.toNat) * 256 + d.toNat := by
      simp [unpackWord]
    rw [packWord, hword]
    -- one byte at a time, from the most significant one
    congr 1
    · exact ofNat_of_toNat_eq (by omega)
    congr 1
    · exact ofNat_of_toNat_eq (by omega)
    congr 1
    · exact ofNat_of_toNat_eq (by omega)
    congr 1
    exact ofNat_of_toNat_eq (by omega)

/-- A length is read as it was written. -/
theorem unpackWord_packWord {n : Nat} (h : n < 4294967296) : unpackWord (packWord n) = n := by
  have hbyte : ∀ m, m < 256 → (UInt8.ofNat m).toNat = m := by
    intro m hm
    rw [UInt8.toNat_ofNat']
    exact Nat.mod_eq_of_lt hm
  simp only [unpackWord, packWord, List.foldl_cons, List.foldl_nil, hbyte (n / 16777216) (by omega),
    hbyte (n / 65536 % 256) (by omega), hbyte (n / 256 % 256) (by omega),
    hbyte (n % 256) (by omega)]
  omega

/-- A field that is read is what stands there, with its length in front. -/
theorem readField_eq_ok {blob field : List UInt8} {offset stop : Nat}
    (h : readField blob offset = .ok (field, stop)) :
    blob.drop offset = lengthPrefixed field ++ blob.drop stop ∧ stop ≤ blob.length := by
  unfold readField at h
  split at h
  · exact absurd h (by simp)
  next hword =>
  dsimp only at h
  split at h
  · exact absurd h (by simp)
  next hstop =>
  obtain ⟨hfield, hend⟩ := pair_of_ok h
  set word := (blob.take (offset + 4)).drop offset with hwordeq
  have hlength : word.length = 4 := by
    rw [hwordeq, List.length_drop, List.length_take]
    omega
  have hfieldlength : field.length = unpackWord word := by
    rw [← hfield, List.length_drop, List.length_take]
    omega
  -- what lies between two offsets, then the rest
  have hsplit : ∀ i n, blob.drop i = (blob.take (i + n)).drop i ++ blob.drop (i + n) := by
    intro i n
    rw [List.drop_take, Nat.add_sub_cancel_left, ← List.drop_drop, List.take_append_drop]
  have hrest : blob.drop (offset + 4) = field ++ blob.drop stop := by
    rw [← hfield, ← hend]
    exact hsplit (offset + 4) (unpackWord word)
  have hfirst : blob.drop offset = word ++ blob.drop (offset + 4) := hsplit offset 4
  refine ⟨?_, by omega⟩
  rw [hfirst, hrest, lengthPrefixed, hfieldlength, packWord_unpackWord hlength, List.append_assoc]

/-- A string with its length in front is read. -/
theorem readField_lengthPrefixed (before field rest : List UInt8)
    (h : field.length < 4294967296) :
    readField (before ++ (lengthPrefixed field ++ rest)) before.length
      = .ok (field, before.length + 4 + field.length) := by
  have hpack : (packWord field.length).length = 4 := rfl
  have hsize : (before ++ (lengthPrefixed field ++ rest)).length
      = before.length + 4 + field.length + rest.length := by
    simp only [lengthPrefixed, List.length_append, hpack]
    omega
  -- the length is the four bytes at the offset, and the field is what follows them
  have hword : ((before ++ (lengthPrefixed field ++ rest)).take (before.length + 4)).drop
      before.length = packWord field.length := by
    rw [List.drop_take, List.drop_left, Nat.add_sub_cancel_left, lengthPrefixed, List.append_assoc]
    exact List.take_left' hpack
  have hfield : ((before ++ (lengthPrefixed field ++ rest)).take
      (before.length + 4 + field.length)).drop (before.length + 4) = field := by
    rw [List.drop_take, Nat.add_sub_cancel_left, ← List.drop_drop, List.drop_left, lengthPrefixed,
      List.append_assoc, List.drop_left' hpack, List.take_left' rfl]
  rw [readField, if_neg (by omega), hword, unpackWord_packWord h]
  dsimp only
  rw [if_neg (by omega), hfield]

theorem length_keyBlob (key : List UInt8) : (keyBlob key).length = 19 + key.length := by
  simp only [keyBlob, lengthPrefixed, packWord, KEY_TYPE, List.length_append, List.length_cons,
    List.length_nil]
  omega

/-- A payload that is accepted holds a key of 32 bytes and nothing else. -/
theorem checkPayload_eq_ok {blob : List UInt8} (h : checkPayload blob = .ok ()) :
    ∃ key : List UInt8, key.length = 32 ∧ blob = keyBlob key := by
  unfold checkPayload at h
  -- two fields are read one after the other, and nothing may follow the second
  cases hfirst : readField blob 0 with
  | error e =>
    rw [hfirst] at h
    exact absurd h (by simp [bind, Except.bind])
  | ok first =>
    obtain ⟨keyType, offset⟩ := first
    rw [hfirst] at h
    dsimp only [bind, Except.bind] at h
    cases hsecond : readField blob offset with
    | error e =>
      rw [hsecond] at h
      exact absurd h (by simp)
    | ok second =>
      obtain ⟨key, stop⟩ := second
      rw [hsecond] at h
      dsimp only at h
      split at h
      · exact absurd h (by simp [throw, throwThe, MonadExceptOf.throw])
      · next hok =>
        simp only [ne_eq, not_or, not_not] at hok
        obtain ⟨htype, hlength, hstop⟩ := hok
        -- each field is its length and its content
        obtain ⟨hblob, -⟩ := readField_eq_ok hfirst
        obtain ⟨hrest, -⟩ := readField_eq_ok hsecond
        refine ⟨key, hlength, ?_⟩
        rw [hstop, List.drop_length, List.append_nil] at hrest
        rw [List.drop_zero, hrest, htype] at hblob
        exact hblob

theorem checkPayload_keyBlob {key : List UInt8} (h : key.length = 32) :
    checkPayload (keyBlob key) = .ok () := by
  have hfirst : readField (keyBlob key) 0 = .ok (KEY_TYPE, 15) :=
    readField_lengthPrefixed [] KEY_TYPE (lengthPrefixed key) (by decide)
  have hsecond : readField (keyBlob key) 15 = .ok (key, 51) := by
    have hread := readField_lengthPrefixed (lengthPrefixed KEY_TYPE) key [] (by omega)
    rw [List.append_nil, h] at hread
    exact hread
  have hsize := length_keyBlob key
  rw [h] at hsize
  unfold checkPayload
  rw [hfirst]
  dsimp only [bind, Except.bind]
  rw [hsecond]
  dsimp only
  rw [if_neg (by simp [h, hsize])]
  rfl

/-! ## What a comment is

What is left of a comment has no control characters and no blanks at its ends. -/

/-- A comment that a line can carry. -/
structure PlainComment (comment : List Char) : Prop where
  length : comment.length ≤ MAX_COMMENT_LENGTH
  control : ∀ c ∈ comment, 0x20 ≤ c.toNat ∧ c.toNat ≠ 0x7f
  unbroken : ∀ c ∈ comment, isLineBreak c = false
  first : ∀ c ∈ comment.head?, isSpace c = false
  last : ∀ c ∈ comment.getLast?, isSpace c = false

theorem commentInvalid_eq_false {comment : List Char} : commentInvalid comment = false ↔
    comment.length ≤ MAX_COMMENT_LENGTH ∧ ∀ c ∈ comment, 0x20 ≤ c.toNat ∧ c.toNat ≠ 0x7f := by
  simp only [commentInvalid, Bool.or_eq_false_iff, decide_eq_false_iff_not, not_lt,
    List.any_eq_false, Bool.or_eq_true, decide_eq_true_eq, not_or]

/-- What is stripped does not end with a blank. -/
theorem getLast_strip (l : List Char) :
    ∀ c ∈ (stripChars isSpace l).getLast?, isSpace c = false := by
  intro c hc
  have hhead := List.head?_dropWhile_not isSpace (l.dropWhile isSpace).reverse
  rw [stripChars, List.getLast?_reverse] at hc
  rw [Option.mem_def.mp hc] at hhead
  simpa using hhead

theorem mem_of_mem_strip {l : List Char} {c : Char} (h : c ∈ stripChars isSpace l) : c ∈ l := by
  rw [stripChars, List.mem_reverse] at h
  have hdrop := (List.dropWhile_suffix isSpace).subset h
  exact (List.dropWhile_suffix isSpace).subset (List.mem_reverse.mp hdrop)

/-- The comment of a line that is accepted. -/
theorem plainComment_keyFields {line : List Char} (hline : ∀ c ∈ line, isLineBreak c = false)
    (h : commentInvalid ((keyFields line).getD 2 []) = false) :
    PlainComment ((keyFields line).getD 2 []) := by
  obtain ⟨hlength, hcontrol⟩ := commentInvalid_eq_false.mp h
  rw [List.getD_eq_getElem?_getD] at hlength hcontrol ⊢
  cases hpart : (keyFields line)[2]? with
  | none => exact ⟨by simp, by simp, by simp, by simp, by simp⟩
  | some part =>
    rw [hpart, Option.getD_some] at hlength hcontrol
    obtain ⟨hwithin, hfirst⟩ := splitMax_parts 2 _ part (List.mem_of_getElem? hpart)
    have hsuffix : part <:+ stripChars isSpace line := splitMax_last hpart
    refine ⟨hlength, hcontrol, ?_, hfirst, ?_⟩
    · intro c hc
      exact hline c (mem_of_mem_strip (hwithin.subset hc))
    · intro c hc
      -- it ends where the line ends
      obtain ⟨before, hbefore⟩ := hsuffix
      rw [Option.getD_some] at hc
      apply getLast_strip line c
      rw [← hbefore, List.getLast?_append, Option.mem_def.mp hc]
      rfl

/-! ## What is accepted

A line that is accepted is normalised to one that is accepted and normalised to itself. -/

section

variable {sha256 : List UInt8 → List UInt8}

/-- The inversion lemma of `parse_public_key`. -/
theorem parsePublicKey_eq_ok {content : List Char} {r : EngineeringPublicKey}
    (h : parsePublicKey sha256 content = .ok r) :
    ∃ line key comment, splitLines content = [line] ∧ key.length = 32 ∧
      b64decode ((keyFields line).getD 1 []) = some (keyBlob key) ∧ PlainComment comment ∧
      r = ⟨normalizedLine (keyBlob key) comment, fingerprintOf sha256 (keyBlob key)⟩ := by
  unfold parsePublicKey at h
  -- one step for each check, in the order they are made
  split at h
  · exact absurd h (by simp)
  split at h
  · next line hlines =>
    dsimp only at h
    split at h
    · exact absurd h (by simp)
    split at h
    · exact absurd h (by simp)
    · next blob hblob =>
      cases hpayload : checkPayload blob with
      | error e =>
        rw [hpayload] at h
        exact absurd h (by simp [bind, Except.bind])
      | ok u =>
        obtain ⟨key, hkey, hkeyblob⟩ := checkPayload_eq_ok hpayload
        rw [hpayload] at h
        dsimp only [bind, Except.bind] at h
        split at h
        · exact absurd h (by simp [throw, throwThe, MonadExceptOf.throw])
        · next hcomment =>
          have hline : ∀ c ∈ line, isLineBreak c = false :=
            isLineBreak_of_mem_splitLines content line (by rw [hlines]; simp)
          have hplain := plainComment_keyFields hline (by simpa using hcomment)
          rw [hkeyblob] at h hblob
          exact ⟨line, key, _, hlines, hkey, hblob, hplain, (Except.ok.inj h).symm⟩
  · exact absurd h (by simp)

/-- A printable character ends no line. -/
theorem isLineBreak_of_printable {c : Char} (h : 0x20 ≤ c.toNat ∧ c.toNat < 0x7f) :
    isLineBreak c = false := by
  simp only [isLineBreak, List.contains_eq_mem, List.mem_cons, List.not_mem_nil, or_false,
    decide_eq_false_iff_not]
  omega

theorem isSpace_of_printable {c : Char} (h : 0x20 < c.toNat ∧ c.toNat < 0x7f) :
    isSpace c = false := by
  simp only [isSpace, List.contains_eq_mem, List.mem_cons, List.not_mem_nil, or_false,
    decide_eq_false_iff_not]
  omega

theorem keyTypeText_plain : ∀ c ∈ keyTypeText, 0x20 < c.toNat ∧ c.toNat < 0x7f := by
  have hall : (keyTypeText.all fun c => decide (0x20 < c.toNat ∧ c.toNat < 0x7f)) = true := by
    decide
  intro c hc
  simpa using List.all_eq_true.mp hall c hc

theorem keyTypeText_ne_nil : keyTypeText ≠ [] := by
  decide

/-- The encoding of a payload is a word. -/
theorem b64encode_ne_nil {blob : List UInt8} (h : blob ≠ []) : b64encode blob ≠ [] := by
  intro hnil
  have hlength := length_b64encode blob
  have hpos : 0 < blob.length := List.length_pos_iff.mpr h
  rw [hnil, List.length_nil] at hlength
  omega

/-- The fields of a normalised line. -/
theorem keyFields_normalizedLine {blob : List UInt8} {comment : List Char} (hblob : blob ≠ [])
    (hfirst : ∀ c ∈ comment.head?, isSpace c = false)
    (hlast : ∀ c ∈ comment.getLast?, isSpace c = false) :
    keyFields (normalizedLine blob comment)
      = if comment = [] then [keyTypeText, b64encode blob]
        else [keyTypeText, b64encode blob, comment] := by
  have htype : ∀ c ∈ keyTypeText, isSpace c = false :=
    fun c hc => isSpace_of_printable (keyTypeText_plain c hc)
  have hdata : ∀ c ∈ b64encode blob, isSpace c = false :=
    fun c hc => isSpace_of_printable (mem_b64encode hc)
  have hdatane := b64encode_ne_nil hblob
  have hhead : ∀ rest, ∀ c ∈ (keyTypeText ++ rest).head?, isSpace c = false := by
    intro rest c hc
    rw [List.head?_append_of_ne_nil _ keyTypeText_ne_nil] at hc
    exact htype c (List.mem_of_mem_head? hc)
  unfold keyFields normalizedLine
  dsimp only
  split
  · next hnone =>
    have hstrip : stripChars isSpace (keyTypeText ++ [' '] ++ b64encode blob)
        = keyTypeText ++ ' ' :: b64encode blob := by
      rw [stripChars_of_ends]
      · rw [List.append_assoc, List.singleton_append]
      · rw [List.append_assoc]
        exact hhead _
      · intro c hc
        rw [List.getLast?_append_of_ne_nil _ hdatane] at hc
        exact hdata c (List.mem_of_getLast? hc)
    -- base64 has no blanks, so what is left is one field
    have hword : splitMax 1 (b64encode blob) = [b64encode blob] := by
      have hlstrip : lstrip (b64encode blob) = b64encode blob := by
        cases hb : b64encode blob with
        | nil => rfl
        | cons c cs => exact lstrip_cons_of_not_isSpace (hdata c (by simp [hb])) cs
      have hall : ∀ c ∈ b64encode blob, (!isSpace c) = true := by
        intro c hc
        rw [hdata c hc]
        rfl
      have hempty : splitMax 0 [] = [] := by decide
      rw [splitMax, hlstrip, if_neg hdatane, List.takeWhile_eq_self_iff.mpr hall,
        List.dropWhile_eq_nil_iff.mpr hall, hempty]
    rw [hstrip, splitMax_word 1 keyTypeText_ne_nil htype, splitMax_lstrip, hword]
  · next hcomment =>
    have hstrip : stripChars isSpace (keyTypeText ++ [' '] ++ b64encode blob ++ [' '] ++ comment)
        = keyTypeText ++ ' ' :: (b64encode blob ++ ' ' :: comment) := by
      rw [stripChars_of_ends]
      · simp only [List.append_assoc, List.cons_append, List.nil_append]
      · simp only [List.append_assoc]
        exact hhead _
      · intro c hc
        rw [List.getLast?_append_of_ne_nil _ hcomment] at hc
        exact hlast c hc
    -- the last field is taken whole, with the blanks inside it
    have hrest : splitMax 0 comment = [comment] := by
      cases comment with
      | nil => exact absurd rfl hcomment
      | cons c cs =>
        rw [splitMax, lstrip_cons_of_not_isSpace (hfirst c rfl), if_neg (List.cons_ne_nil c cs)]
    rw [hstrip, splitMax_word 1 keyTypeText_ne_nil htype, splitMax_lstrip,
      splitMax_word 0 hdatane hdata, splitMax_lstrip, hrest]

/-- The line that is written is one line. -/
theorem normalizedLine_unbroken {blob : List UInt8} {comment : List Char}
    (hcomment : ∀ c ∈ comment, isLineBreak c = false) :
    ∀ c ∈ normalizedLine blob comment, isLineBreak c = false := by
  -- the key type and the encoded blob are printable ASCII
  have hfront : ∀ c ∈ keyTypeText ++ [' '] ++ b64encode blob, isLineBreak c = false := by
    intro c hc
    apply isLineBreak_of_printable
    rcases List.mem_append.mp hc with hc | hc
    · rcases List.mem_append.mp hc with hc | hc
      · have hplain := keyTypeText_plain c hc
        omega
      · rw [List.mem_singleton.mp hc]
        decide
    · have hplain := mem_b64encode hc
      omega
  unfold normalizedLine
  dsimp only
  split
  · exact hfront
  · intro c hc
    rcases List.mem_append.mp hc with hc | hc
    · rcases List.mem_append.mp hc with hc | hc
      · exact hfront c hc
      · rw [List.mem_singleton.mp hc]
        decide
    · exact hcomment c hc

/-- A bound on its length. -/
theorem length_normalizedLine_le {key : List UInt8} (hkey : key.length = 32) (comment : List Char) :
    (normalizedLine (keyBlob key) comment).length ≤ 81 + comment.length := by
  have htype : keyTypeText.length = 11 := by decide
  have hdata : (b64encode (keyBlob key)).length = 68 := by
    rw [length_b64encode, length_keyBlob, hkey]
  unfold normalizedLine
  dsimp only
  split
  · simp only [List.length_append, List.length_singleton, htype, hdata]
    omega
  · simp only [List.length_append, List.length_singleton, htype, hdata]
    omega

/-- A normalised line is accepted, with a newline after it or without. -/
theorem parsePublicKey_line {key : List UInt8} {comment ending : List Char}
    (hkey : key.length = 32) (hcomment : PlainComment comment)
    (hending : ending = [] ∨ ending = ['\n']) :
    parsePublicKey sha256 (normalizedLine (keyBlob key) comment ++ ending)
      = .ok ⟨normalizedLine (keyBlob key) comment, fingerprintOf sha256 (keyBlob key)⟩ := by
  have hblob : keyBlob key ≠ [] := by
    intro hnil
    have hlength := length_keyBlob key
    rw [hnil, List.length_nil] at hlength
    omega
  -- the longest comment and the newline still fit
  have hsize : (encodeUtf8 (normalizedLine (keyBlob key) comment ++ ending)).length
      ≤ MAX_INPUT_BYTES := by
    have hbytes := length_encodeUtf8_le (normalizedLine (keyBlob key) comment ++ ending)
    have hline := length_normalizedLine_le hkey comment
    have hlength : comment.length ≤ 128 := hcomment.length
    have hend : ending.length ≤ 1 := by
      rcases hending with rfl | rfl
      · exact Nat.zero_le 1
      · exact Nat.le_refl 1
    rw [List.length_append] at hbytes
    show _ ≤ 1024
    omega
  have hunbroken := @normalizedLine_unbroken (keyBlob key) _ hcomment.unbroken
  have hne : normalizedLine (keyBlob key) comment ≠ [] := by
    unfold normalizedLine
    dsimp only
    split
    · simp
    · simp
  have hlines : splitLines (normalizedLine (keyBlob key) comment ++ ending)
      = [normalizedLine (keyBlob key) comment] := by
    rcases hending with rfl | rfl
    · rw [List.append_nil, splitLines_of_unbroken hne hunbroken]
    · rw [splitLines_append_newline _ [] hunbroken]
      rfl
  have hfields := keyFields_normalizedLine hblob hcomment.first hcomment.last
  -- an empty comment leaves two fields, and the third is read as empty
  have hcount : ¬((keyFields (normalizedLine (keyBlob key) comment)).length ≠ 2 ∧
      (keyFields (normalizedLine (keyBlob key) comment)).length ≠ 3) ∧
      (keyFields (normalizedLine (keyBlob key) comment)).getD 0 [] = keyTypeText ∧
      (keyFields (normalizedLine (keyBlob key) comment)).getD 1 [] = b64encode (keyBlob key) ∧
      (keyFields (normalizedLine (keyBlob key) comment)).getD 2 [] = comment := by
    rw [hfields]
    split
    · next hnone =>
      rw [hnone]
      exact ⟨by simp, rfl, rfl, rfl⟩
    · exact ⟨by simp, rfl, rfl, rfl⟩
  obtain ⟨hcount, htype, hdata, hthird⟩ := hcount
  have hvalid : commentInvalid comment = false :=
    commentInvalid_eq_false.mpr ⟨hcomment.length, hcomment.control⟩
  unfold parsePublicKey
  rw [if_neg (by omega), hlines]
  dsimp only
  rw [if_neg (by simp only [htype, ne_eq, not_true_eq_false, or_false]; exact hcount), hdata,
    b64decode_b64encode]
  dsimp only [bind, Except.bind]
  rw [checkPayload_keyBlob hkey]
  dsimp only
  rw [hthird, hvalid]
  rfl

end

/-- **Parsing a public key inverts writing one, and what is accepted stays what it is.** -/
theorem parsePublicKey_stable (sha256 : List UInt8 → List UInt8) :
    (∀ content r, parsePublicKey sha256 content = .ok r →
      (∃ line key, splitLines content = [line] ∧ key.length = 32 ∧
        b64decode ((keyFields line).getD 1 []) = some (keyBlob key)) ∧
      parsePublicKey sha256 r.normalized = .ok r ∧
      parsePublicKey sha256 (r.normalized ++ ['\n']) = .ok r) ∧
    ∀ key comment, key.length = 32 → PlainComment comment →
      ∃ r, parsePublicKey sha256 (normalizedLine (keyBlob key) comment) = .ok r ∧
        r.normalized = normalizedLine (keyBlob key) comment := by
  constructor
  · intro content r h
    obtain ⟨line, key, comment, hlines, hkey, hblob, hcomment, rfl⟩ := parsePublicKey_eq_ok h
    refine ⟨⟨line, key, hlines, hkey, hblob⟩, ?_, parsePublicKey_line hkey hcomment (Or.inr rfl)⟩
    have hagain := @parsePublicKey_line sha256 _ _ _ hkey hcomment (Or.inl rfl)
    rw [List.append_nil] at hagain
    exact hagain
  · intro key comment hkey hcomment
    have haccepted := @parsePublicKey_line sha256 _ _ _ hkey hcomment (Or.inl rfl)
    rw [List.append_nil] at haccepted
    exact ⟨_, haccepted, rfl⟩

def fixtureKey : List UInt8 :=
  List.replicate 32 7

/-- A digest that tells its arguments apart by their bytes. -/
def checksum (data : List UInt8) : List UInt8 :=
  data.take 15 ++ [data.foldl (fun n b => n * 31 + b) 0]

/-- A line as an administrator may hand it in: with blanks around it and with more padding than the
payload needs. -/
def fixtureLine : List Char :=
  ' ' :: normalizedLine (keyBlob fixtureKey) [] ++ ['=', ' ', ' ', 'r', 'a', 'v', 'e', '\n']

/-- It is accepted, as the line that it normalises to. -/
theorem parsePublicKey_fixtureLine :
    parsePublicKey checksum fixtureLine
      = .ok ⟨normalizedLine (keyBlob fixtureKey) ['r', 'a', 'v', 'e'],
          fingerprintOf checksum (keyBlob fixtureKey)⟩ := by
  decide +kernel

/-- Its normalised form is another text, and is accepted with the same result; and so is what is
written for the key with a comment of two words. -/
theorem parsePublicKey_stable_fixtureKey :
    (∃ r, parsePublicKey checksum fixtureLine = .ok r ∧ r.normalized ≠ fixtureLine ∧
      (∃ line key, splitLines fixtureLine = [line] ∧ key.length = 32 ∧
        b64decode ((keyFields line).getD 1 []) = some (keyBlob key)) ∧
      parsePublicKey checksum r.normalized = .ok r ∧
      parsePublicKey checksum (r.normalized ++ ['\n']) = .ok r) ∧
    ∃ r, parsePublicKey checksum (normalizedLine (keyBlob fixtureKey) "rave admin".toList)
        = .ok r ∧ r.normalized = normalizedLine (keyBlob fixtureKey) "rave admin".toList := by
  constructor
  · refine ⟨_, parsePublicKey_fixtureLine, ?_,
      (parsePublicKey_stable checksum).1 _ _ parsePublicKey_fixtureLine⟩
    -- one begins with a blank, the other does not
    intro h
    have hfirst := congrArg List.head? h
    exact absurd hfirst (by decide)
  · apply (parsePublicKey_stable checksum).2 fixtureKey
    · exact List.length_replicate
    · rw [toList_of_eq rfl]
      exact ⟨by decide, by simp, by simp [isLineBreak], by simp [isSpace], by simp [isSpace]⟩

end Rave
