import Mathlib.Data.List.Induction
import Mathlib.Data.String.Basic

/-!
# Decimal numerals

A canonical numeral is a nonempty list of ASCII digits that starts with a zero only if it is all of it.
`Nat.toDigits 10` gives the canonical numeral of a number and `Nat.ofDigitChars 10` the number of a
numeral; on canonical numerals they are inverse.
-/

namespace Decimal

/-- The number that the digits spell. -/
def value (l : List Char) : Nat := Nat.ofDigitChars 10 l 0

structure Canonical (l : List Char) : Prop where
  nonempty : l ≠ []
  digits : ∀ c ∈ l, c.isDigit = true
  leading : 1 < l.length → l.head? ≠ some '0'

/-- The value of a digit. -/
def digit (c : Char) : Nat := c.toNat - '0'.toNat

theorem isDigit_iff {c : Char} : c.isDigit = true ↔ 48 ≤ c.toNat ∧ c.toNat ≤ 57 :=
  Char.isDigit_iff_toNat

theorem digit_eq (c : Char) : digit c = c.toNat - 48 := rfl

theorem digit_lt {c : Char} (h : c.isDigit = true) : digit c < 10 := by
  have hc := isDigit_iff.mp h
  rw [digit_eq]
  omega

theorem digitChar_digit {c : Char} (h : c.isDigit = true) : (digit c).digitChar = c := by
  have hc := isDigit_iff.mp h
  refine Char.toNat_inj.mp ?_
  rw [Nat.toNat_digitChar_of_lt_ten (digit_lt h), digit_eq]
  omega

@[simp] theorem value_nil : value [] = 0 := rfl

theorem value_append_singleton (l : List Char) (c : Char) :
    value (l ++ [c]) = 10 * value l + digit c := by
  rw [value, Nat.ofDigitChars_append, Nat.ofDigitChars_cons, Nat.ofDigitChars_nil]
  rfl

@[simp] theorem value_toDigits (n : Nat) : value (Nat.toDigits 10 n) = n := Nat.ofDigitChars_ten_toDigits

theorem head?_append_left {l : List Char} (h : l ≠ []) (l' : List Char) :
    (l ++ l').head? = l.head? := by
  cases l with
  | nil => exact absurd rfl h
  | cons c l => rfl

/-- A number written without a leading zero, and zero. -/
theorem canonical_toDigits (n : Nat) : Canonical (Nat.toDigits 10 n) where
  nonempty := Nat.toDigits_ne_nil
  digits _ hc := Nat.isDigit_of_mem_toDigits (by decide) (by decide) hc
  leading := by
    induction n using Nat.strong_induction_on with
    | _ n ih =>
      rcases Nat.lt_or_ge n 10 with hn | hn
      · rw [Nat.toDigits_of_lt_base hn]
        simp
      · rw [Nat.toDigits_of_base_le (by decide) hn, head?_append_left Nat.toDigits_ne_nil]
        intro _
        rcases Nat.lt_or_ge (n / 10) 10 with hq | hq
        · -- Two digits, the first of which is not zero.
          rw [Nat.toDigits_of_lt_base hq]
          simp only [List.head?_cons, ne_eq, Option.some.injEq, Nat.digitChar_eq_zero]
          omega
        · refine ih (n / 10) (by omega) ?_
          by_contra hlen
          have := (Nat.length_toDigits_le_iff (b := 10) (n := n / 10) (k := 1) (by decide)
            (by decide)).mp (by omega)
          omega

/-- A canonical numeral is the one of its number. -/
theorem Canonical.toDigits_value {l : List Char} (h : Canonical l) : Nat.toDigits 10 (value l) = l := by
  induction l using List.reverseRecOn with
  | nil => exact absurd rfl h.nonempty
  | append_singleton l c ih =>
    have hc := h.digits c (by simp)
    rw [value_append_singleton]
    by_cases hl : l = []
    · rw [hl, value_nil, Nat.mul_zero, Nat.zero_add, Nat.toDigits_of_lt_base (digit_lt hc),
        digitChar_digit hc]
      rfl
    · have hhead : l.head? ≠ some '0' := by
        have := h.leading (by
          rw [List.length_append, List.length_singleton]
          have := List.length_pos_iff.mpr hl
          omega)
        rwa [head?_append_left hl] at this
      have hrest := ih ⟨hl, fun d hd => h.digits d (by simp [hd]), fun _ => hhead⟩
      have hpos : 0 < value l := by
        by_contra hzero
        rw [Nat.eq_zero_of_not_pos hzero, Nat.toDigits_zero] at hrest
        exact hhead (by rw [← hrest]; rfl)
      have hdigits := Nat.toDigits_append_toDigits (b := 10) (by decide) hpos (digit_lt hc)
      rw [← hdigits, hrest, Nat.toDigits_of_lt_base (digit_lt hc), digitChar_digit hc]

/-- The length of a canonical numeral bounds its number from below. -/
theorem Canonical.length_le {l : List Char} (h : Canonical l) {k : Nat} (hk : 0 < k) :
    l.length ≤ k ↔ value l < 10 ^ k := by
  rw [← Nat.length_toDigits_le_iff (b := 10) (by decide) hk, h.toDigits_value]

/-- Only the numeral of zero starts with a zero. -/
theorem Canonical.value_pos {l : List Char} (h : Canonical l) : 0 < value l ↔ l.head? ≠ some '0' := by
  have hl := h.toDigits_value
  constructor
  · intro hpos hzero
    have hlen : l.length = 1 := by
      have := List.length_pos_iff.mpr h.nonempty
      have := mt h.leading (not_not.mpr hzero)
      omega
    obtain ⟨c, rfl⟩ := List.length_eq_one_iff.mp hlen
    cases hzero
    exact absurd hpos (by decide)
  · intro hhead
    by_contra hzero
    rw [Nat.eq_zero_of_not_pos hzero, Nat.toDigits_zero] at hl
    exact hhead (by rw [← hl]; rfl)

/-- A digit is one byte long. -/
theorem utf8ByteSize_digits {s : String} (h : ∀ c ∈ s.toList, c.isDigit = true) :
    s.utf8ByteSize = s.toList.length := by
  rw [← String.utf8Len_toList]
  generalize s.toList = l at h ⊢
  induction l with
  | nil => rfl
  | cons c l ih =>
    have hc := isDigit_iff.mp (h c (by simp))
    have hsize : c.utf8Size = 1 := Char.utf8Size_eq_one_iff.mpr (UInt32.le_iff_toNat_le.mpr (hc.2.trans (by decide)))
    rw [String.utf8Len_cons, hsize, ih fun d hd => h d (by simp [hd]), List.length_cons]

end Decimal
