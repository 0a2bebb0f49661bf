import Mathlib.Data.List.Basic
import Mathlib.Data.List.Pairwise

/-!
# Ordered maps as lists

The entries of a map in the ascending order of their keys, as an ordered container iterates over
them. Assigning to a key keeps the order (`ascending_assign`); if the key is new, one entry comes
in and nothing else changes (`assign_perm`).
-/

namespace SortedMap

variable {κ ν : Type*} [LT κ] [DecidableLT κ]

/-- `m[k] = v` -/
def assign (k : κ) (v : ν) : List (κ × ν) → List (κ × ν)
  | [] => [(k, v)]
  | a :: m =>
    if a.1 < k then a :: assign k v m
    else if k < a.1 then (k, v) :: a :: m
    else (k, v) :: m

/-- Assignment makes up no entry. -/
theorem of_mem_assign {k : κ} {v : ν} {m : List (κ × ν)} {b : κ × ν} (h : b ∈ assign k v m) :
    b = (k, v) ∨ b ∈ m := by
  induction m with
  | nil => exact .inl (List.mem_singleton.mp h)
  | cons a m ih =>
    rw [assign] at h
    split at h
    · rcases List.mem_cons.mp h with rfl | hb
      · exact .inr List.mem_cons_self
      · exact (ih hb).imp_right (List.mem_cons_of_mem a)
    · split at h
      · exact List.mem_cons.mp h
      · exact (List.mem_cons.mp h).imp_right (List.mem_cons_of_mem a)

variable [LE κ] [Std.IsLinearOrder κ] [Std.LawfulOrderLT κ]

/-- The order is kept: induction on the entries, which stops where the new one belongs. -/
theorem ascending_assign (k : κ) (v : ν) {m : List (κ × ν)}
    (h : m.Pairwise fun a b => a.1 < b.1) : (assign k v m).Pairwise fun a b => a.1 < b.1 := by
  induction h with
  | nil => exact List.pairwise_singleton _ _
  | @cons a m ha hm ih =>
    rw [assign]
    split
    · next hlt =>
      -- the head stays in front, so it has to be below all that is behind it now
      refine .cons (fun b hb => ?_) ih
      rcases of_mem_assign hb with rfl | hb
      · exact hlt
      · exact ha b hb
    · next hge =>
      split
      · next hlt =>
        refine .cons (fun b hb => ?_) (.cons ha hm)
        rcases List.mem_cons.mp hb with rfl | hb
        · exact hlt
        · exact Std.lt_trans hlt (ha b hb)
      · next hle =>
        -- neither less nor greater: the key is there, and its value is replaced
        obtain rfl : a.1 = k := Std.Trichotomous.trichotomous a.1 k hge hle
        exact .cons ha hm

/-- A new key adds its entry. As the place does not matter here, the statement is one about
permutations. -/
theorem assign_perm {k : κ} (v : ν) {m : List (κ × ν)} (h : ∀ a ∈ m, a.1 ≠ k) :
    (assign k v m).Perm ((k, v) :: m) := by
  induction m with
  | nil => exact .refl _
  | cons a m ih =>
    rw [assign]
    split
    · exact ((ih fun b hb => h b (List.mem_cons_of_mem a hb)).cons a).trans (.swap _ _ _)
    · next hge =>
      split
      · exact .refl _
      · next hle =>
        exact absurd (Std.Trichotomous.trichotomous a.1 k hge hle) (h a List.mem_cons_self)

end SortedMap
