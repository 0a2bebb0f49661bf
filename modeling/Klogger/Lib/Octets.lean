import Mathlib.Data.Nat.Digits.Lemmas
import Mathlib.Data.List.Lex

/-!
# Octet strings as base-256 numbers

Two spellings of a natural number as octets, and the number an octet string spells:

* `le k n` — the `k` low-order octets of `n`, least significant first: what a `k`-octet
  integer looks like in the memory of a little-endian machine;
* `be n` — the digits of `n` in base 256, most significant first, with no leading zero;
* `ofBE bs` — the number whose big-endian digits are `bs`, leading zeros allowed.

Mathlib's `Nat.digits` and `Nat.ofDigits` do the arithmetic. What is added is the passage
between the padded and the minimal form: reversing the padded form and skipping its
leading zeros is the minimal form (`drop_reverse_le`), and the minimal form has
`Nat.log2 n / 8 + 1` digits (`length_be`).
-/

/-- Strings are byte strings: nothing here depends on an encoding of characters. -/
abbrev Bytes := List UInt8

namespace Octets

/-- The `k` low-order octets of `n`, least significant first. -/
def le : Nat → Nat → Bytes
  | 0, _ => []
  | k + 1, n => UInt8.ofNat n :: le k (n / 256)

/-- The base-256 digits of `n`, most significant first; no leading zero, and no octet at
all for `n = 0`. -/
def be (n : Nat) : Bytes := ((Nat.digits 256 n).map UInt8.ofNat).reverse

/-- The number with the big-endian base-256 digits `bs`. -/
def ofBE (bs : Bytes) : Nat := Nat.ofDigits 256 (bs.reverse.map UInt8.toNat)

/-! ## Lengths -/

@[simp] theorem length_le (k n : Nat) : (le k n).length = k := by
  induction k generalizing n with
  | zero => rfl
  | succ k ih => simp [le, ih]

/-- The minimal form has one octet for each started group of eight bits. -/
theorem length_be {n : Nat} (hn : n ≠ 0) : (be n).length = Nat.log2 n / 8 + 1 := by
  -- the number of digits counts bits, eight at a time
  have hlog : Nat.log 256 n = Nat.log2 n / 8 := by
    rw [Nat.log2_eq_log_two, show (256 : Nat) = 2 ^ 8 from rfl, Nat.log_pow_left]
  rw [be, List.length_reverse, List.length_map, Nat.length_digits 256 n (by decide) hn, hlog]

theorem length_be_le {n k : Nat} (h : n < 256 ^ k) : (be n).length ≤ k := by
  rw [be, List.length_reverse, List.length_map]
  exact (Nat.digits_length_le_iff (by decide) n).mpr h

/-! ## The padded form is the minimal form and zeros -/

/-- Padding at the high end: the fixed-width form is the digits followed by zeros. -/
theorem le_eq_digits_append {k n : Nat} (h : n < 256 ^ k) :
    le k n = (Nat.digits 256 n).map UInt8.ofNat
      ++ List.replicate (k - (Nat.digits 256 n).length) 0 := by
  induction k generalizing n with
  | zero =>
    have hn : n = 0 := by simpa using h
    simp [le, hn]
  | succ k ih =>
    rcases Nat.eq_zero_or_pos n with rfl | hpos
    · -- no digit is left: everything from here on is padding
      have h0 := ih (n := 0) (by positivity)
      simp only [Nat.digits_zero, List.map_nil, List.nil_append, List.length_nil,
        Nat.sub_zero] at h0 ⊢
      rw [le, Nat.zero_div, h0, List.replicate_succ]
      rfl
    · have hdiv : n / 256 < 256 ^ k := by
        rw [Nat.div_lt_iff_lt_mul (by decide), ← pow_succ]
        exact h
      -- one octet of the padded form is one digit, until the digits are used up
      have hdigits : Nat.digits 256 n = n % 256 :: Nat.digits 256 (n / 256) :=
        Nat.digits_def' (by decide) hpos
      -- `UInt8.ofNat` reduces its argument modulo 256 by itself
      have hhead : UInt8.ofNat n = UInt8.ofNat (n % 256) := by
        apply UInt8.toNat_inj.mp
        simp
      rw [le, ih hdiv, hdigits, List.map_cons, List.cons_append, List.length_cons,
        Nat.add_sub_add_right, hhead]

/-- The first octet of the minimal form is not zero. -/
theorem be_eq_cons {n : Nat} (hn : n ≠ 0) : ∃ b bs, be n = b :: bs ∧ b ≠ 0 := by
  have hne : Nat.digits 256 n ≠ [] := Nat.digits_ne_nil_iff_ne_zero.mpr hn
  have hlast := Nat.getLast_digit_ne_zero 256 hn
  have hlt : (Nat.digits 256 n).getLast hne < 256 :=
    Nat.digits_lt_base (by decide) (List.getLast_mem hne)
  -- the most significant digit is the last one of `Nat.digits`
  refine ⟨UInt8.ofNat ((Nat.digits 256 n).getLast hne),
    ((Nat.digits 256 n).dropLast.map UInt8.ofNat).reverse, ?_, ?_⟩
  · conv_lhs => rw [be, ← List.dropLast_append_getLast hne]
    simp
  · intro h0
    have := congrArg UInt8.toNat h0
    rw [UInt8.toNat_ofNat_of_lt' hlt] at this
    exact hlast this

/-- Reversed, the padded form is zeros followed by the minimal form. -/
theorem reverse_le {k n : Nat} (h : n < 256 ^ k) :
    (le k n).reverse = List.replicate (k - (be n).length) 0 ++ be n := by
  rw [le_eq_digits_append h, List.reverse_append, List.reverse_replicate]
  simp [be]

/-- Skipping the leading zeros of the reversed padded form leaves the minimal form: an
index `off` that points at the first octet that is not zero cuts exactly there. -/
theorem drop_reverse_le {k n : Nat} (h : n < 256 ^ k) :
    ((le k n).reverse).drop (k - (be n).length) = be n := by
  rw [reverse_le h]
  simp

/-! ## Reading the digits back -/

/-- Reversed, a string is read in the order of `Nat.ofDigits`, least significant digit first. -/
theorem ofBE_reverse (bs : Bytes) :
    ofBE bs.reverse = Nat.ofDigits 256 (bs.map UInt8.toNat) := by
  rw [ofBE, List.reverse_reverse]

/-- The minimal form spells the number it was made for. -/
theorem ofBE_be (n : Nat) : ofBE (be n) = n := by
  -- a digit survives the passage through an octet
  have hmap : ((Nat.digits 256 n).map UInt8.ofNat).map UInt8.toNat = Nat.digits 256 n := by
    rw [List.map_map]
    conv_rhs => rw [← List.map_id (Nat.digits 256 n)]
    apply List.map_congr_left
    intro d hd
    exact UInt8.toNat_ofNat_of_lt' (Nat.digits_lt_base (by decide) hd)
  rw [be, ofBE_reverse, hmap, Nat.ofDigits_digits]

/-- The padded big-endian form spells the number too, as long as it fits. -/
theorem ofBE_reverse_le {k n : Nat} (h : n < 256 ^ k) : ofBE (le k n).reverse = n := by
  rw [ofBE_reverse]
  induction k generalizing n with
  | zero =>
    have hn : n = 0 := by simpa using h
    simp [le, hn]
  | succ k ih =>
    have hdiv : n / 256 < 256 ^ k := by
      rw [Nat.div_lt_iff_lt_mul (by decide), ← pow_succ]
      exact h
    -- the first octet is the remainder, the others spell the quotient
    rw [le, List.map_cons, Nat.ofDigits_cons, ih hdiv]
    simp only [UInt8.toNat_ofNat']
    omega

theorem toNat_lt_of_mem (bs : Bytes) : ∀ d ∈ bs.reverse.map UInt8.toNat, d < 256 := by
  intro d hd
  obtain ⟨b, -, rfl⟩ := List.mem_map.mp hd
  exact b.toNat_lt

theorem ofBE_lt (bs : Bytes) : ofBE bs < 256 ^ bs.length := by
  have hlt := Nat.ofDigits_lt_base_pow_length (by decide) (toNat_lt_of_mem bs)
  simpa [ofBE] using hlt

/-- Digits without a leading zero are the minimal form of the number they spell. -/
theorem be_ofBE {bs : Bytes} (h : bs.head? ≠ some 0) : be (ofBE bs) = bs := by
  have hdigits : Nat.digits 256 (ofBE bs) = bs.reverse.map UInt8.toNat := by
    apply Nat.digits_ofDigits 256 (by decide) _ (toNat_lt_of_mem bs)
    -- the most significant digit is the head of `bs`
    intro hne
    cases bs with
    | nil => simp at hne
    | cons b bs =>
      intro h0
      have hb : b = 0 := UInt8.toNat_inj.mp (by simpa using h0)
      exact h (by rw [hb, List.head?_cons])
  rw [be, hdigits]
  simp [Function.comp_def]

end Octets
