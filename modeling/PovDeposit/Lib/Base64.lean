/-
  Base64 with padding, in the standard alphabet.

  Three bytes are one number of 24 bits, written as four digits of 6 bits. A last group of one
  or two bytes takes two or three digits and is filled up with `=`.

  `decode` reads the groups back and is undefined on every text that `encode` does not write,
  but for the bits that the padding leaves over. `decode_encode` says that nothing is lost.
-/

namespace PovDeposit.Lib.Base64

def digit (n : Nat) : Char :=
  if n < 26 then Char.ofNat ('A'.toNat + n)
  else if n < 52 then Char.ofNat ('a'.toNat + (n - 26))
  else if n < 62 then Char.ofNat ('0'.toNat + (n - 52))
  else if n = 62 then '+'
  else '/'

def digitValue (c : Char) : Option Nat :=
  if c.isUpper then some (c.toNat - 'A'.toNat)
  else if c.isLower then some (c.toNat - 'a'.toNat + 26)
  else if c.isDigit then some (c.toNat - '0'.toNat + 52)
  else if c = '+' then some 62
  else if c = '/' then some 63
  else none

/-- The four digits of a number of 24 bits. -/
def digits (n : Nat) : List Char :=
  [digit (n / 262144), digit (n / 4096 % 64), digit (n / 64 % 64), digit (n % 64)]

def encode : List UInt8 → List Char
  | [] => []
  | [a] => (digits (a.toNat * 65536)).take 2 ++ ['=', '=']
  | [a, b] => (digits (a.toNat * 65536 + b.toNat * 256)).take 3 ++ ['=']
  | a :: b :: c :: rest => digits (a.toNat * 65536 + b.toNat * 256 + c.toNat) ++ encode rest

/-- The three bytes of a number of 24 bits. -/
def bytes (n : Nat) : List UInt8 :=
  [UInt8.ofNat (n / 65536), UInt8.ofNat (n / 256), UInt8.ofNat n]

def decode : List Char → Option (List UInt8)
  | [] => some []
  | w :: x :: y :: z :: rest =>
      (digitValue w).bind fun w => (digitValue x).bind fun x =>
        if y = '=' ∧ z = '=' ∧ rest = [] then some ((bytes (w * 262144 + x * 4096)).take 1)
        else (digitValue y).bind fun y =>
          if z = '=' ∧ rest = [] then some ((bytes (w * 262144 + x * 4096 + y * 64)).take 2)
          else (digitValue z).bind fun z =>
            (decode rest).map fun tail => bytes (w * 262144 + x * 4096 + y * 64 + z) ++ tail
  | _ => none

/-! ## Round trip -/

theorem digitValue_digit : ∀ n < 64, digitValue (digit n) = some n := by decide

theorem digit_ne_pad : ∀ n < 64, digit n ≠ '=' := by decide

theorem bytes_of_group (a b c : UInt8) :
    bytes (a.toNat * 65536 + b.toNat * 256 + c.toNat) = [a, b, c] := by
  have ha := a.toNat_lt
  have hb := b.toNat_lt
  have hc := c.toNat_lt
  have hbyte : ∀ (x : UInt8) (n : Nat), n % 256 = x.toNat → UInt8.ofNat n = x := by
    intro x n hn
    apply UInt8.toNat_inj.mp
    rw [UInt8.toNat_ofNat']
    exact hn
  unfold bytes
  rw [hbyte a _ (by omega), hbyte b _ (by omega), hbyte c _ (by omega)]

theorem decode_group (w x y z : Char) (rest : List Char) :
    decode (w :: x :: y :: z :: rest) =
      (digitValue w).bind fun w => (digitValue x).bind fun x =>
        if y = '=' ∧ z = '=' ∧ rest = [] then some ((bytes (w * 262144 + x * 4096)).take 1)
        else (digitValue y).bind fun y =>
          if z = '=' ∧ rest = [] then some ((bytes (w * 262144 + x * 4096 + y * 64)).take 2)
          else (digitValue z).bind fun z =>
            (decode rest).map fun tail => bytes (w * 262144 + x * 4096 + y * 64 + z) ++ tail := by
  rw [decode]

theorem sum_digits (n : Nat) :
    n / 262144 * 262144 + n / 4096 % 64 * 4096 + n / 64 % 64 * 64 + n % 64 = n := by
  omega

/-- A whole group is read back. -/
theorem decode_digits {n : Nat} (hn : n < 16777216) (rest : List Char) :
    decode (digits n ++ rest) = (decode rest).map fun tail => bytes n ++ tail := by
  have hw := digitValue_digit (n / 262144) (by omega)
  have hx := digitValue_digit (n / 4096 % 64) (by omega)
  have hy := digitValue_digit (n / 64 % 64) (by omega)
  have hz := digitValue_digit (n % 64) (by omega)
  have hyPad := digit_ne_pad (n / 64 % 64) (by omega)
  have hzPad := digit_ne_pad (n % 64) (by omega)
  show decode (_ :: _ :: _ :: _ :: rest) = _
  rw [decode_group, hw, hx, hy, hz]
  simp only [hyPad, hzPad, Option.bind_some, false_and, if_false, sum_digits]

theorem decode_one (a : UInt8) : decode (encode [a]) = some [a] := by
  have ha := a.toNat_lt
  have hpad : a.toNat * 65536 % 4096 = 0 := by omega
  have hlt : a.toNat * 65536 < 16777216 := by omega
  have hbytes : bytes (a.toNat * 65536) = [a, 0, 0] := by
    have hgroup := bytes_of_group a 0 0
    rwa [UInt8.toNat_zero, Nat.zero_mul, Nat.add_zero] at hgroup
  rw [encode]
  -- from here on the group is one number whose last digits are 0
  generalize a.toNat * 65536 = n at hpad hlt hbytes
  have hw := digitValue_digit (n / 262144) (by omega)
  have hx := digitValue_digit (n / 4096 % 64) (by omega)
  have hy : n / 64 % 64 = 0 := by omega
  have hz : n % 64 = 0 := by omega
  have hsum := sum_digits n
  rw [hy, hz, Nat.zero_mul, Nat.add_zero] at hsum
  show decode [digit (n / 262144), digit (n / 4096 % 64), '=', '='] = _
  rw [decode_group, hw, hx]
  simp only [Option.bind_some, true_and, if_true, hsum, hbytes]
  rfl

theorem decode_two (a b : UInt8) : decode (encode [a, b]) = some [a, b] := by
  have ha := a.toNat_lt
  have hb := b.toNat_lt
  have hpad : (a.toNat * 65536 + b.toNat * 256) % 64 = 0 := by omega
  have hlt : a.toNat * 65536 + b.toNat * 256 < 16777216 := by omega
  have hbytes : bytes (a.toNat * 65536 + b.toNat * 256) = [a, b, 0] := by
    have hgroup := bytes_of_group a b 0
    rwa [UInt8.toNat_zero, Nat.add_zero] at hgroup
  rw [encode]
  generalize a.toNat * 65536 + b.toNat * 256 = n at hpad hlt hbytes
  have hw := digitValue_digit (n / 262144) (by omega)
  have hx := digitValue_digit (n / 4096 % 64) (by omega)
  have hy := digitValue_digit (n / 64 % 64) (by omega)
  have hyPad := digit_ne_pad (n / 64 % 64) (by omega)
  have hsum := sum_digits n
  rw [hpad, Nat.add_zero] at hsum
  show decode [digit (n / 262144), digit (n / 4096 % 64), digit (n / 64 % 64), '='] = _
  rw [decode_group, hw, hx, hy]
  simp only [Option.bind_some, hyPad, false_and, if_false, true_and, if_true, hsum, hbytes]
  rfl

theorem decode_encode (l : List UInt8) : decode (encode l) = some l := by
  induction l using encode.induct with
  | case1 => rfl
  | case2 a => exact decode_one a
  | case3 a b => exact decode_two a b
  | case4 a b c rest ih =>
    have ha := a.toNat_lt
    have hb := b.toNat_lt
    have hc := c.toNat_lt
    rw [encode, decode_digits (by omega), ih, bytes_of_group]
    rfl

end PovDeposit.Lib.Base64
