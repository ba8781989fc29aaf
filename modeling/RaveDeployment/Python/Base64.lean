import Mathlib.Data.Char
import Mathlib.Tactic.Common
import Mathlib.Tactic.IntervalCases

/-!
# base64

`base64.b64encode` and `base64.b64decode(data, validate=True)` on the characters of the text, the
latter as `binascii.a2b_base64` decodes in its strict mode. `b64decode_b64encode`: the one inverts
the other. The other way round it does not: the strict mode lets bits through that the padding cuts
off, and more padding after a complete group.
-/

namespace Rave.Py

def base64Digit (n : Nat) : Char :=
  if n < 26 then Char.ofNat (n + 'A'.toNat)
  else if n < 52 then Char.ofNat (n - 26 + 'a'.toNat)
  else if n < 62 then Char.ofNat (n - 52 + '0'.toNat)
  else if n = 62 then '+'
  else '/'

def base64Value (c : Char) : Option Nat :=
  if 'A' ≤ c ∧ c ≤ 'Z' then some (c.toNat - 'A'.toNat)
  else if 'a' ≤ c ∧ c ≤ 'z' then some (c.toNat - 'a'.toNat + 26)
  else if '0' ≤ c ∧ c ≤ '9' then some (c.toNat - '0'.toNat + 52)
  else if c = '+' then some 62
  else if c = '/' then some 63
  else none

/-- `base64.b64encode(data).decode()`. -/
def b64encode : List UInt8 → List Char
  | [] => []
  | [a] =>
    let n := a.toNat * 16
    [base64Digit (n / 64), base64Digit (n % 64), '=', '=']
  | [a, b] =>
    let n := (a.toNat * 256 + b.toNat) * 4
    [base64Digit (n / 4096), base64Digit (n / 64 % 64), base64Digit (n % 64), '=']
  | a :: b :: c :: rest =>
    let n := (a.toNat * 256 + b.toNat) * 256 + c.toNat
    base64Digit (n / 262144) :: base64Digit (n / 4096 % 64) :: base64Digit (n / 64 % 64) ::
      base64Digit (n % 64) :: b64encode rest

/-- What may follow a complete group: nothing, or padding, which is passed over. -/
def onlyPadding (cs : List Char) : Option (List UInt8) :=
  if cs.all fun c => c = '=' then some [] else none

/-- `binascii.a2b_base64` from the start of a group on. A group that the end of the data cuts short
is padded to four characters, and nothing follows it. -/
def decodeGroups : List Char → Option (List UInt8)
  | p :: q :: r :: s :: rest => do
    if p = '=' then onlyPadding (q :: r :: s :: rest)
    else
      let w ← base64Value p
      let x ← base64Value q
      if s = '=' ∧ rest = [] then
        if r = '=' then return [UInt8.ofNat ((w * 64 + x) / 16)]
        let y ← base64Value r
        let n := ((w * 64 + x) * 64 + y) / 4
        return [UInt8.ofNat (n / 256), UInt8.ofNat (n % 256)]
      let y ← base64Value r
      let z ← base64Value s
      let data ← decodeGroups rest
      let n := ((w * 64 + x) * 64 + y) * 64 + z
      return UInt8.ofNat (n / 65536) :: UInt8.ofNat (n / 256 % 256) :: UInt8.ofNat (n % 256) :: data
  | cs => onlyPadding cs

/-- `base64.b64decode(data, validate=True)`, or nothing where it raises `ValueError` or
`binascii.Error`. The data does not begin with padding. -/
def b64decode (data : List Char) : Option (List UInt8) :=
  if data.head? = some '=' then none else decodeGroups data

theorem base64Value_base64Digit {n : Nat} (h : n < 64) : base64Value (base64Digit n) = some n := by
  interval_cases n <;> rfl

theorem base64Digit_ne_pad {n : Nat} (h : n < 64) : base64Digit n ≠ '=' := by
  interval_cases n <;> decide

theorem ofNat_of_toNat_eq {n : Nat} {b : UInt8} (h : n = b.toNat) : UInt8.ofNat n = b := by
  rw [h, UInt8.ofNat_toNat]

/-- What was encoded is decoded. -/
theorem decodeGroups_b64encode (data : List UInt8) :
    decodeGroups (b64encode data) = some data := by
  fun_induction b64encode data with
  | case1 => rfl
  | case2 a n =>
    have ha := a.toNat_lt
    have hw : base64Value (base64Digit (n / 64)) = some (n / 64) :=
      base64Value_base64Digit (by omega)
    have hx : base64Value (base64Digit (n % 64)) = some (n % 64) :=
      base64Value_base64Digit (by omega)
    have hfull : base64Digit (n / 64) ≠ '=' := base64Digit_ne_pad (by omega)
    have hbyte : UInt8.ofNat ((n / 64 * 64 + n % 64) / 16) = a := ofNat_of_toNat_eq (by omega)
    simp [decodeGroups, hfull, hw, hx, hbyte]
  | case3 a b n =>
    have ha := a.toNat_lt
    have hb := b.toNat_lt
    have hw : base64Value (base64Digit (n / 4096)) = some (n / 4096) :=
      base64Value_base64Digit (by omega)
    have hx : base64Value (base64Digit (n / 64 % 64)) = some (n / 64 % 64) :=
      base64Value_base64Digit (by omega)
    have hy : base64Value (base64Digit (n % 64)) = some (n % 64) :=
      base64Value_base64Digit (by omega)
    -- no digit is the padding, so the last group is not taken for a shorter one
    have hfull : base64Digit (n / 4096) ≠ '=' := base64Digit_ne_pad (by omega)
    have hpad : base64Digit (n % 64) ≠ '=' := base64Digit_ne_pad (by omega)
    have hsum : ((n / 4096 * 64 + n / 64 % 64) * 64 + n % 64) / 4 = a.toNat * 256 + b.toNat := by
      omega
    have hfirst : UInt8.ofNat ((a.toNat * 256 + b.toNat) / 256) = a :=
      ofNat_of_toNat_eq (by omega)
    have hsecond : UInt8.ofNat ((a.toNat * 256 + b.toNat) % 256) = b :=
      ofNat_of_toNat_eq (by omega)
    simp only [decodeGroups, if_neg hfull, hw, hx, hy, hsum, hfirst, hsecond, and_self, if_true,
      if_neg hpad, Option.bind_eq_bind, Option.bind_some]
    rfl
  | case4 a b c rest n ih =>
    have ha := a.toNat_lt
    have hb := b.toNat_lt
    have hc := c.toNat_lt
    have hw : base64Value (base64Digit (n / 262144)) = some (n / 262144) :=
      base64Value_base64Digit (by omega)
    have hx : base64Value (base64Digit (n / 4096 % 64)) = some (n / 4096 % 64) :=
      base64Value_base64Digit (by omega)
    have hy : base64Value (base64Digit (n / 64 % 64)) = some (n / 64 % 64) :=
      base64Value_base64Digit (by omega)
    have hz : base64Value (base64Digit (n % 64)) = some (n % 64) :=
      base64Value_base64Digit (by omega)
    have hfull : base64Digit (n / 262144) ≠ '=' := base64Digit_ne_pad (by omega)
    have hpad : ¬(base64Digit (n % 64) = '=' ∧ b64encode rest = []) :=
      fun h => base64Digit_ne_pad (by omega) h.1
    have hsum : ((n / 262144 * 64 + n / 4096 % 64) * 64 + n / 64 % 64) * 64 + n % 64 = n := by
      omega
    have hfirst : UInt8.ofNat (n / 65536) = a := ofNat_of_toNat_eq (by omega)
    have hsecond : UInt8.ofNat (n / 256 % 256) = b := ofNat_of_toNat_eq (by omega)
    have hthird : UInt8.ofNat (n % 256) = c := ofNat_of_toNat_eq (by omega)
    simp only [decodeGroups, if_neg hfull, hw, hx, hy, hz, ih, hsum, hfirst, hsecond, hthird,
      if_neg hpad, Option.bind_eq_bind, Option.bind_some]
    rfl

/-- **Decoding inverts encoding.** -/
theorem b64decode_b64encode (data : List UInt8) : b64decode (b64encode data) = some data := by
  -- what is encoded begins with a digit, if with anything
  have hhead : (b64encode data).head? ≠ some '=' := by
    intro h
    fun_cases b64encode data with
    | case1 => exact absurd h (by simp [b64encode])
    | case2 a n =>
      have ha := a.toNat_lt
      exact base64Digit_ne_pad (n := n / 64) (by omega) (Option.some.inj h)
    | case3 a b n =>
      have ha := a.toNat_lt
      have hb := b.toNat_lt
      exact base64Digit_ne_pad (n := n / 4096) (by omega) (Option.some.inj h)
    | case4 a b c rest n =>
      have ha := a.toNat_lt
      have hb := b.toNat_lt
      have hc := c.toNat_lt
      exact base64Digit_ne_pad (n := n / 262144) (by omega) (Option.some.inj h)
  rw [b64decode, if_neg hhead, decodeGroups_b64encode]

/-- More padding than a group needs, which the strict mode passes over. -/
example : b64decode ['A', 'A', 'A', 'A', '=', '='] = some [0, 0, 0] := by decide

/-- No character of the alphabet is white space or ends a line. -/
theorem base64Digit_plain {n : Nat} (h : n < 64) :
    0x20 < (base64Digit n).toNat ∧ (base64Digit n).toNat < 0x7f := by
  interval_cases n <;> decide

/-- The characters of an encoding are printable and no blanks. -/
theorem mem_b64encode {data : List UInt8} {c : Char} (hc : c ∈ b64encode data) :
    0x20 < c.toNat ∧ c.toNat < 0x7f := by
  have hpad : 0x20 < '='.toNat ∧ '='.toNat < 0x7f := by decide
  -- three bytes at a time, with the padded ends first
  fun_induction b64encode data with
  | case1 => exact absurd hc (by simp)
  | case2 a n =>
    have ha := a.toNat_lt
    simp only [List.mem_cons, List.not_mem_nil, or_false] at hc
    rcases hc with rfl | rfl | rfl | rfl
    · exact base64Digit_plain (by omega)
    · exact base64Digit_plain (by omega)
    · exact hpad
    · exact hpad
  | case3 a b n =>
    have ha := a.toNat_lt
    have hb := b.toNat_lt
    simp only [List.mem_cons, List.not_mem_nil, or_false] at hc
    rcases hc with rfl | rfl | rfl | rfl
    · exact base64Digit_plain (by omega)
    · exact base64Digit_plain (by omega)
    · exact base64Digit_plain (by omega)
    · exact hpad
  | case4 a b c' rest n ih =>
    have ha := a.toNat_lt
    have hb := b.toNat_lt
    have hc' := c'.toNat_lt
    simp only [List.mem_cons] at hc
    rcases hc with rfl | rfl | rfl | rfl | hc
    · exact base64Digit_plain (by omega)
    · exact base64Digit_plain (by omega)
    · exact base64Digit_plain (by omega)
    · exact base64Digit_plain (by omega)
    · exact ih hc

/-- Four characters for each three bytes that were begun. -/
theorem length_b64encode (data : List UInt8) :
    (b64encode data).length = (data.length + 2) / 3 * 4 := by
  fun_induction b64encode data with
  | case1 => rfl
  | case2 => simp
  | case3 => simp
  | case4 a b c rest n ih =>
    simp only [List.length_cons, ih]
    omega

end Rave.Py
