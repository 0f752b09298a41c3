/-
  Numerals in a base up to 16, most significant digit first.

  `value` is Horner's rule over the digit characters of `Nat.digitChar`. `places` writes a fixed
  number of digits of a number and drops the higher ones; `Nat.toDigits` writes as many as it
  takes. A `Canonical` numeral has no leading zero, and is what `Nat.toDigits` writes
  (`Canonical.eq_toDigits`), so a number has one such numeral and a numeral one number.
-/
import Mathlib.Algebra.Group.Nat.Defs
import Mathlib.Data.List.Induction
import Mathlib.Data.Nat.Init

namespace PovDeposit.Lib.Numeral

/-- The value of a digit character; no other character has one. -/
def digitValue (c : Char) : Nat :=
  if c.isDigit then c.toNat - '0'.toNat else c.toNat - 'a'.toNat + 10

def Digit (b : Nat) (c : Char) : Prop := ∃ d < b, c = Nat.digitChar d

def value (b : Nat) (l : List Char) : Nat := l.foldl (fun n c => b * n + digitValue c) 0

/-- The last `k` digits of `n`. -/
def places (b : Nat) : Nat → Nat → List Char
  | 0, _ => []
  | k + 1, n => places b k (n / b) ++ [Nat.digitChar (n % b)]

theorem digitValue_digitChar : ∀ d < 16, digitValue (Nat.digitChar d) = d := by decide

theorem value_concat (b : Nat) (l : List Char) (c : Char) :
    value b (l ++ [c]) = b * value b l + digitValue c := by
  rw [value, List.foldl_append]
  rfl

section Places

variable {b : Nat}

theorem length_places (k n : Nat) : (places b k n).length = k := by
  induction k generalizing n with
  | zero => rfl
  | succ k ih => rw [places, List.length_append, ih]; rfl

theorem digit_of_mem_places (hb : 0 < b) {k n : Nat} {c : Char} (h : c ∈ places b k n) :
    Digit b c := by
  induction k generalizing n with
  | zero => cases h
  | succ k ih =>
    rw [places, List.mem_append, List.mem_singleton] at h
    rcases h with h | rfl
    · exact ih h
    · exact ⟨n % b, Nat.mod_lt n hb, rfl⟩

/-- The places read back, up to a power of the base. -/
theorem value_places (hb : 0 < b) (hb16 : b ≤ 16) (k n : Nat) :
    value b (places b k n) = n % b ^ k := by
  induction k generalizing n with
  | zero => rw [Nat.pow_zero, Nat.mod_one]; rfl
  | succ k ih =>
    have hlast : n % b < 16 := Nat.lt_of_lt_of_le (Nat.mod_lt n hb) hb16
    calc value b (places b (k + 1) n)
        = b * (n / b % b ^ k) + n % b := by
          rw [places, value_concat, ih, digitValue_digitChar _ hlast]
      _ = n % (b * b ^ k) := by rw [Nat.mod_mul, Nat.add_comm]
      _ = n % b ^ (k + 1) := by rw [Nat.pow_succ, Nat.mul_comm]

/-- The first places are those of the number without the last ones. -/
theorem places_add (j k n : Nat) : places b (j + k) n = places b j (n / b ^ k) ++ places b k n := by
  induction k generalizing n with
  | zero => simp [places]
  | succ k ih =>
    have hdiv : n / b / b ^ k = n / b ^ (k + 1) := by
      rw [Nat.div_div_eq_div_mul, Nat.pow_succ, Nat.mul_comm]
    rw [← Nat.add_assoc, places, ih, hdiv, List.append_assoc]
    rfl

end Places

/-! ## Canonical numerals -/

/-- A numeral of a positive number without a leading zero. -/
structure Canonical (b : Nat) (l : List Char) (n : Nat) : Prop where
  digits : ∀ c ∈ l, Digit b c
  leading : ∃ c, l.head? = some c ∧ c ≠ '0'
  value_eq : value b l = n

section Canonical

variable {b : Nat} (hb : 1 < b) (hb16 : b ≤ 16)
include hb hb16

theorem canonical_toDigits {n : Nat} (hn : 0 < n) : Canonical b (Nat.toDigits b n) n := by
  induction n using Nat.strong_induction_on with
  | _ n ih =>
    by_cases hlt : n < b
    · have hvalue := digitValue_digitChar n (by omega)
      rw [Nat.toDigits_of_lt_base hlt]
      refine ⟨fun c hc => ⟨n, hlt, List.mem_singleton.mp hc⟩, ⟨_, rfl, fun hzero => ?_⟩, ?_⟩
      · rw [hzero] at hvalue
        exact absurd hvalue.symm (Nat.ne_of_gt hn)
      · show b * 0 + digitValue (Nat.digitChar n) = n
        omega
    · have hpos : 0 < n / b := Nat.div_pos (by omega) (by omega)
      have hless : n / b < n := Nat.div_lt_self hn hb
      obtain ⟨hdigits, hleading, hvalue⟩ := ih (n / b) hless hpos
      rw [Nat.toDigits_of_base_le hb (by omega)]
      refine ⟨fun c hc => ?_, ?_, ?_⟩
      · rcases List.mem_append.mp hc with hc | hc
        · exact hdigits c hc
        · exact ⟨n % b, Nat.mod_lt n (by omega), List.mem_singleton.mp hc⟩
      · obtain ⟨c, cs, hcs⟩ : ∃ c cs, Nat.toDigits b (n / b) = c :: cs :=
          List.exists_cons_of_ne_nil Nat.toDigits_ne_nil
        rw [hcs] at hleading ⊢
        exact hleading
      · have hlast : n % b < 16 := Nat.lt_of_lt_of_le (Nat.mod_lt n (by omega)) hb16
        rw [value_concat, hvalue, digitValue_digitChar _ hlast, Nat.div_add_mod]

/-- There is no other one. -/
theorem Canonical.eq_toDigits {l : List Char} {n : Nat} (h : Canonical b l n) :
    0 < n ∧ l = Nat.toDigits b n := by
  induction l using List.reverseRecOn generalizing n with
  | nil =>
    obtain ⟨c, hc, -⟩ := h.leading
    cases hc
  | append_singleton l c ih =>
    obtain ⟨d, hd, rfl⟩ := h.digits c (by simp)
    have hlast : digitValue (Nat.digitChar d) = d := digitValue_digitChar d (by omega)
    have hvalue : b * value b l + d = n := by rw [← h.value_eq, value_concat, hlast]
    by_cases hnil : l = []
    · subst hnil
      have hn : d = n := by simpa [value] using hvalue
      subst hn
      obtain ⟨c, hc, hne⟩ := h.leading
      refine ⟨Nat.pos_of_ne_zero fun hzero => hne ?_, (Nat.toDigits_of_lt_base hd).symm⟩
      rw [hzero] at hc
      exact (Option.some.inj hc).symm
    · obtain ⟨x, xs, hxs⟩ := List.exists_cons_of_ne_nil hnil
      have hinit : Canonical b l (value b l) := by
        refine ⟨fun y hy => h.digits y (List.mem_append_left _ hy), ?_, rfl⟩
        have hleading := h.leading
        rw [hxs] at hleading ⊢
        exact hleading
      obtain ⟨hpos, hdigits⟩ := ih hinit
      have hle : b ≤ b * value b l := Nat.le_mul_of_pos_right b hpos
      have hdiv : n / b = value b l := by
        rw [← hvalue, Nat.mul_add_div (by omega), Nat.div_eq_of_lt hd, Nat.add_zero]
      have hmod : n % b = d := by
        rw [← hvalue, Nat.mul_add_mod, Nat.mod_eq_of_lt hd]
      refine ⟨by omega, ?_⟩
      rw [Nat.toDigits_of_base_le hb (by omega), hdiv, hmod, ← hdigits]

end Canonical

end PovDeposit.Lib.Numeral
