import Mathlib.Algebra.Group.Nat.Defs
import Mathlib.Data.Nat.Basic
import Mathlib.Data.List.Basic
import Mathlib.Data.List.Forall2

/-!
# Numbers of a fixed width

Records of numbers, written as fields of a fixed width with literal text between them, over any
base and any alphabet whose digits are in order. Two such records compare as strings, first
difference first, exactly as their numbers do (`render_lt_iff`).
-/

/-- Digits in the order of what they stand for. -/
structure Numerals (β : Type*) [LT β] where
  base : Nat
  digit : Nat → β
  base_pos : 0 < base
  digit_lt : ∀ i < base, ∀ j < base, (digit i < digit j ↔ i < j)
  digit_inj : ∀ i < base, ∀ j < base, (digit i = digit j ↔ i = j)

namespace Numerals

variable {β : Type*} [LT β]

/-! ## Strings of one length -/

/-- Behind two strings of one length nothing matters until these are the same. -/
theorem append_lt_append_iff {xs ys : List β} (h : xs.length = ys.length) (rs ss : List β) :
    xs ++ rs < ys ++ ss ↔ xs < ys ∨ xs = ys ∧ rs < ss := by
  induction xs generalizing ys with
  | nil =>
    obtain rfl := List.length_eq_zero_iff.mp h.symm
    simp
  | cons x xs ih =>
    cases ys with
    | nil => cases h
    | cons y ys =>
      rw [List.cons_append, List.cons_append, List.cons_lt_cons_iff, List.cons_lt_cons_iff,
        ih (Nat.succ.inj h), List.cons.injEq]
      tauto

section

variable [Std.Irrefl (α := β) (· < ·)]

theorem append_left_lt_iff (xs rs ss : List β) : xs ++ rs < xs ++ ss ↔ rs < ss := by
  rw [append_lt_append_iff rfl]
  have hirrefl : ¬ xs < xs := List.lt_irrefl xs
  tauto

end

/-- Words of one length, in the order of what they stand for, keep the order of what is written
with them. -/
theorem flatMap_lt_iff {α : Type*} [LT α] {f : α → List β} {w : Nat}
    (hlen : ∀ a, (f a).length = w + 1) (hlt : ∀ a b, f a < f b ↔ a < b)
    (hinj : ∀ a b, f a = f b ↔ a = b) {as bs : List α} :
    as.flatMap f < bs.flatMap f ↔ as < bs := by
  induction as generalizing bs with
  -- a text that ends first is less, as no word is empty
  | nil =>
    cases bs with
    | nil => exact iff_of_false (List.not_lt_nil _) (List.not_lt_nil _)
    | cons b bs =>
      obtain ⟨x, xs, hx⟩ : ∃ x xs, f b = x :: xs :=
        List.exists_cons_of_length_eq_add_one (hlen b)
      rw [List.flatMap_nil, List.flatMap_cons, hx, List.cons_append]
      exact iff_of_true (List.nil_lt_cons _ _) (List.nil_lt_cons _ _)
  | cons a as ih =>
    cases bs with
    | nil => exact iff_of_false (List.not_lt_nil _) (List.not_lt_nil _)
    | cons b bs =>
      rw [List.flatMap_cons, List.flatMap_cons,
        append_lt_append_iff ((hlen a).trans (hlen b).symm), hlt, hinj, ih,
        List.cons_lt_cons_iff]

variable (N : Numerals β)

/-! ## One number -/

/-- The last `w` digits of a number. -/
def field : Nat → Nat → List β
  | 0, _ => []
  | w + 1, n => field w (n / N.base) ++ [N.digit (n % N.base)]

/-- A field has its width, whatever the number: what does not fit is cut off in front. -/
@[simp] theorem length_field (w n : Nat) : (N.field w n).length = w := by
  induction w generalizing n with
  | zero => rfl
  | succ w ih => rw [field, List.length_append, ih, List.length_singleton]

/-- Fields compare as their numbers do. Induction on the width; the digits in front decide,
and if they are the same, the last digit does. -/
theorem field_compare {w n m : Nat} (hn : n < N.base ^ w) (hm : m < N.base ^ w) :
    (N.field w n = N.field w m ↔ n = m) ∧ (N.field w n < N.field w m ↔ n < m) := by
  induction w generalizing n m with
  | zero =>
    rw [Nat.pow_zero, Nat.lt_one_iff] at hn hm
    rw [hn, hm]
    exact ⟨iff_of_true rfl rfl, iff_of_false (List.not_lt_nil _) (Nat.lt_irrefl 0)⟩
  | succ w ih =>
    rw [Nat.pow_succ'] at hn hm
    -- the digits in front are the field of the quotient
    obtain ⟨heq, hlt⟩ := ih (Nat.div_lt_of_lt_mul hn) (Nat.div_lt_of_lt_mul hm)
    have hlen : (N.field w (n / N.base)).length = (N.field w (m / N.base)).length := by simp
    have hnmod := Nat.mod_lt n N.base_pos
    have hmmod := Nat.mod_lt m N.base_pos
    constructor
    · rw [field, field, List.append_eq_append_iff_of_size_eq_left hlen, heq,
        List.singleton_inj, N.digit_inj _ hnmod _ hmmod, ← Nat.ext_div_mod_iff]
    · rw [field, field, append_lt_append_iff hlen, hlt, heq]
      have hdigit : [N.digit (n % N.base)] < [N.digit (m % N.base)]
          ↔ n % N.base < m % N.base := by
        rw [List.cons_lt_cons_iff, N.digit_lt _ hnmod _ hmmod]
        simp
      rw [hdigit]
      have hn' := Nat.div_add_mod n N.base
      have hm' := Nat.div_add_mod m N.base
      constructor
      · -- a smaller quotient, or the same quotient and a smaller remainder
        rintro (hdiv | ⟨hdiv, hmod⟩)
        · exact Nat.lt_of_div_lt_div hdiv
        · rw [hdiv] at hn'
          omega
      · intro h
        rcases Nat.lt_or_eq_of_le (Nat.div_le_div_right (Nat.le_of_lt h)) with hdiv | hdiv
        · exact .inl hdiv
        · rw [hdiv] at hn'
          exact .inr ⟨hdiv, by omega⟩

/-! ## Records -/

/-- The numbers in fields of the given widths, each with a literal text behind it. -/
def render : List (Nat × List β) → List Nat → List β
  | (w, text) :: layout, n :: ns => N.field w n ++ (text ++ render layout ns)
  | _, _ => []

/-- Every number has a field that is wide enough. -/
def Fits (layout : List (Nat × List β)) (ns : List Nat) : Prop :=
  List.Forall₂ (fun f n => n < N.base ^ f.1) layout ns

variable [Std.Irrefl (α := β) (· < ·)]

/-- **Records compare as their numbers do.** -/
theorem render_lt_iff {layout : List (Nat × List β)} {ns ms : List Nat}
    (hns : N.Fits layout ns) (hms : N.Fits layout ms) :
    N.render layout ns < N.render layout ms ↔ ns < ms := by
  induction hns generalizing ms with
  | nil =>
    cases hms
    exact iff_of_false (List.not_lt_nil _) (List.not_lt_nil _)
  | cons hn _ ih =>
    cases hms with
    | cons hm hms =>
      obtain ⟨heq, hlt⟩ := N.field_compare hn hm
      rw [render, render, append_lt_append_iff (by simp), append_left_lt_iff, ih hms,
        List.cons_lt_cons_iff, hlt, heq]

end Numerals
