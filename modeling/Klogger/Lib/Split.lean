import Mathlib.Algebra.GroupWithZero.Nat
import Mathlib.Data.List.Forall2
import Mathlib.Data.List.Infix

/-!
# Splitting at separators

What a text tool makes of a sequence that was written piece after piece.

* `List.dropInfix?` cuts at the first occurrence of a pattern. Where a piece, the pattern and a
  rest were written one after another, it gives the piece back exactly when the pattern does not
  occur in it, provided that the pattern cannot overlap itself (`dropInfix?_append_iff`).
* `lines` are the pieces that end with a terminator. There are as many lines as terminators
  (`length_lines`), so terminated pieces come back as they were exactly when none of them
  contains the terminator (`splitOn_flatMap_iff`).
-/

namespace Split

variable {α : Type*} [DecidableEq α]

/-! ## The first occurrence of a pattern -/

/-- No proper end of the pattern is a beginning of it: two occurrences never overlap. -/
def Unbordered (pat : List α) : Prop :=
  ∀ t w : List α, pat = t ++ w → w <+: pat → t = [] ∨ w = []

omit [DecidableEq α] in
/-- It is enough that the first element does not come again. -/
theorem unbordered_cons {x : α} {xs : List α} (h : x ∉ xs) : Unbordered (x :: xs) := by
  intro t w hsplit hw
  cases t with
  | nil => exact .inl rfl
  | cons y t =>
    cases w with
    | nil => exact .inr rfl
    | cons z w =>
      -- the end begins with `x`, but it stands behind the first element
      have hz : z = x := (List.cons_prefix_cons.mp hw).1
      have hxs : xs = t ++ z :: w := (List.cons.inj hsplit).2
      exact absurd (by simp [hxs, hz]) h

omit [DecidableEq α] in
/-- An occurrence that begins in front of another one ends there, too. -/
theorem Unbordered.prefix_of_prefix_append {pat t b : List α} (hpat : Unbordered pat)
    (ht : t ≠ []) (h : pat <+: t ++ (pat ++ b)) : pat <+: t := by
  rcases Nat.le_total pat.length t.length with hle | hle
  · exact List.prefix_of_prefix_length_le h (List.prefix_append t _) hle
  · obtain ⟨w, rfl⟩ := List.prefix_of_prefix_length_le (List.prefix_append t _) h hle
    -- the part behind `t` is a beginning of the pattern
    have hw : w <+: t ++ w := by
      have hrest : w <+: t ++ w ++ b := (List.prefix_append_right_inj t).mp h
      exact List.prefix_of_prefix_length_le hrest (List.prefix_append _ b) (by simp)
    rcases hpat t w rfl hw with h0 | rfl
    · exact absurd h0 ht
    · rw [List.append_nil]

/-- Cutting at the first occurrence of the pattern behind `a` gives `a` back exactly when the
pattern does not occur in `a`. -/
theorem dropInfix?_append_iff {pat : List α} (hpat : Unbordered pat) (hne : pat ≠ [])
    (a b : List α) : (a ++ (pat ++ b)).dropInfix? pat = some (a, b) ↔ ¬ pat <:+: a := by
  rw [List.dropInfix?_eq_some_iff]
  constructor
  · rintro ⟨-, hfirst⟩ ⟨u, v, rfl⟩
    -- an occurrence inside `a` would have been found before
    have hle := hfirst u pat (v ++ (pat ++ b)) (by simp) (by simp)
    have hpos : 0 < pat.length := List.length_pos_iff.mpr hne
    simp only [List.length_append] at hle
    omega
  · intro hnone
    refine ⟨⟨pat, by simp⟩, ?_⟩
    intro u i v heq hi
    obtain rfl : i = pat := eq_of_beq hi
    by_contra hlt
    rw [List.append_assoc] at heq
    -- an earlier occurrence begins in `a`, so it lies in `a`
    have hu : u <+: a := by
      have hall : u <+: a ++ (i ++ b) := heq ▸ List.prefix_append u (i ++ v)
      exact List.prefix_of_prefix_length_le hall (List.prefix_append a _) (by omega)
    obtain ⟨t, rfl⟩ := hu
    rw [List.append_assoc] at heq
    have hi : i <+: t ++ (i ++ b) := ⟨v, (List.append_cancel_left heq).symm⟩
    have ht : t ≠ [] := by
      rintro rfl
      simp at hlt
    have hlies : i <+: t := hpat.prefix_of_prefix_append ht hi
    exact hnone (hlies.isInfix.trans (List.suffix_append u t).isInfix)

/-- If the piece comes back, so does the rest. -/
theorem dropInfix?_append_rest {pat a b r : List α}
    (h : (a ++ (pat ++ b)).dropInfix? pat = some (a, r)) : r = b := by
  obtain ⟨⟨i, heq, hi⟩, -⟩ := List.dropInfix?_eq_some_iff.mp h
  obtain rfl : i = pat := eq_of_beq hi
  rw [List.append_assoc] at heq
  exact (List.append_cancel_left (List.append_cancel_left heq)).symm

/-! ## Lines -/

/-- The pieces that end with the terminator, without it. -/
def lines (nl : α) (l : List α) : List (List α) := (l.splitOn nl).dropLast

variable {nl : α}

/-- Each separator cuts once. -/
theorem length_splitOn (l : List α) : (l.splitOn nl).length = l.count nl + 1 := by
  induction l with
  | nil => rw [List.splitOn_nil]; rfl
  | cons x l ih =>
    rw [List.splitOn_cons_eq_if_modifyHead, List.count_cons]
    by_cases hx : x == nl
    · rw [if_pos hx, if_pos hx, List.length_cons, ih]
    · rw [if_neg hx, if_neg hx, List.length_modifyHead, ih, Nat.add_zero]

theorem length_lines (l : List α) : (lines nl l).length = l.count nl := by
  rw [lines, List.length_dropLast, length_splitOn, Nat.add_sub_cancel]

section Terminated

variable {β : Type*} (f : β → List α) (es : List β)

/-- Terminated pieces: as many terminators as pieces, and those inside them. -/
theorem count_flatMap_terminated :
    (es.flatMap fun e => f e ++ [nl]).count nl
      = es.length + (es.map fun e => (f e).count nl).sum := by
  induction es with
  | nil => rfl
  | cons e es ih =>
    rw [List.flatMap_cons, List.count_append, ih, List.count_append, List.count_singleton_self,
      List.length_cons, List.map_cons, List.sum_cons]
    omega

/-- Terminated pieces without a terminator inside are split off, whatever follows them. -/
theorem splitOn_flatMap_append (h : ∀ e ∈ es, nl ∉ f e) (rest : List α) :
    ((es.flatMap fun e => f e ++ [nl]) ++ rest).splitOn nl = es.map f ++ rest.splitOn nl := by
  induction es with
  | nil => rfl
  | cons e es ih =>
    rw [List.flatMap_cons, List.append_assoc, List.append_assoc, List.singleton_append,
      List.splitOn_append_cons_self_of_not_mem (h e (by simp)), ih fun e he => h e (by simp [he]),
      List.map_cons, List.cons_append]

/-- Splitting gives terminated pieces back, and nothing behind the last terminator, exactly when
none of them contains the terminator. -/
theorem splitOn_flatMap_iff :
    (es.flatMap fun e => f e ++ [nl]).splitOn nl = es.map f ++ [[]] ↔ ∀ e ∈ es, nl ∉ f e := by
  constructor
  · intro h
    -- too many pieces otherwise
    have hsum : (es.map fun e => (f e).count nl).sum = 0 := by
      have hlen := congrArg List.length h
      rw [length_splitOn, count_flatMap_terminated, List.length_append, List.length_map,
        List.length_singleton] at hlen
      omega
    intro e he
    have hzero := List.sum_eq_zero_iff_forall_eq_nat.mp hsum _ (List.mem_map_of_mem he)
    exact List.count_eq_zero.mp hzero
  · intro h
    induction es with
    | nil => exact List.splitOn_nil nl
    | cons e es ih =>
      rw [List.flatMap_cons, List.append_assoc, List.singleton_append,
        List.splitOn_append_cons_self_of_not_mem (h e (by simp)),
        ih fun e he => h e (by simp [he]), List.map_cons, List.cons_append]

end Terminated

section Separated

variable {β : Type*} (f : β → List α) (e : β) (es : List β)

/-- The same count where the pieces are separated and the last one has nothing behind it. -/
theorem count_flatMap_separated :
    (f e ++ es.flatMap fun e => nl :: f e).count nl
      = es.length + ((e :: es).map fun e => (f e).count nl).sum := by
  induction es generalizing e with
  | nil => simp
  | cons e' es ih =>
    rw [List.flatMap_cons, List.cons_append, List.count_append, List.count_cons_self, ih e',
      List.length_cons, List.map_cons, List.map_cons, List.sum_cons, List.sum_cons]
    simp only [List.map_cons, List.sum_cons]
    omega

/-- Pieces without the separator inside come back. -/
theorem splitOn_flatMap_separated (h : ∀ x ∈ e :: es, nl ∉ f x) :
    (f e ++ es.flatMap fun e => nl :: f e).splitOn nl = (e :: es).map f := by
  induction es generalizing e with
  | nil =>
    rw [List.flatMap_nil, List.append_nil, List.splitOn_eq_singleton (h e (by simp))]
    rfl
  | cons e' es ih =>
    rw [List.flatMap_cons, List.cons_append,
      List.splitOn_append_cons_self_of_not_mem (h e (by simp)),
      ih e' fun x hx => h x (List.mem_cons_of_mem e hx)]
    rfl

/-- There are as many pieces as were separated exactly when none of them contains the
separator. -/
theorem length_splitOn_separated_iff :
    ((f e ++ es.flatMap fun e => nl :: f e).splitOn nl).length = es.length + 1
      ↔ ∀ x ∈ e :: es, nl ∉ f x := by
  rw [length_splitOn, count_flatMap_separated]
  constructor
  · intro h x hx
    -- a separator inside a piece would cut it once more
    have hzero : ((e :: es).map fun e => (f e).count nl).sum = 0 := by omega
    exact List.count_eq_zero.mp
      (List.sum_eq_zero_iff_forall_eq_nat.mp hzero _ (List.mem_map_of_mem hx))
  · intro h
    have hzero : ((e :: es).map fun e => (f e).count nl).sum = 0 := by
      rw [List.sum_eq_zero_iff_forall_eq_nat]
      intro n hn
      obtain ⟨x, hx, rfl⟩ := List.mem_map.mp hn
      exact List.count_eq_zero.mpr (h x hx)
    omega

end Separated

/-! ## Texts written in parts -/

/-- The lines of a text that was written in parts. Each part is a number of terminated lines and a
rest, and the first line of the next part is behind that rest; `rest` is what was there before. -/
def mend (rest : List α) : List (List (List α) × List α) → List (List α)
  | [] => []
  | ([], p) :: parts => mend (rest ++ p) parts
  | (l :: ls, p) :: parts => (rest ++ l) :: (ls ++ mend p parts)

/-- The text of the parts. -/
def joined (nl : α) (parts : List (List (List α) × List α)) : List α :=
  parts.flatMap fun part => (part.1.flatMap fun l => l ++ [nl]) ++ part.2

/-- These are the lines of the text, if none of what was written has a terminator inside. Induction
on the parts, as `mend` goes. -/
theorem lines_joined {parts : List (List (List α) × List α)} {rest : List α}
    (hparts : ∀ part ∈ parts, (∀ l ∈ part.1, nl ∉ l) ∧ nl ∉ part.2) (hrest : nl ∉ rest) :
    lines nl (rest ++ joined nl parts) = mend rest parts := by
  fun_induction mend rest parts with
  | case1 rest =>
    rw [joined, List.flatMap_nil, List.append_nil, lines, List.splitOn_eq_singleton hrest]
    rfl
  | case2 rest p parts ih =>
    obtain ⟨⟨_, hp⟩, hparts⟩ := List.forall_mem_cons.mp hparts
    have htext : rest ++ joined nl (([], p) :: parts) = (rest ++ p) ++ joined nl parts := by
      simp [joined, List.append_assoc]
    -- no line in this part: the two rests grow together
    rw [htext, ih hparts (by simp [hrest, hp])]
  | case3 rest l ls p parts ih =>
    obtain ⟨⟨hlines, hp⟩, hparts⟩ := List.forall_mem_cons.mp hparts
    obtain ⟨hl, hls⟩ := List.forall_mem_cons.mp hlines
    have htext : rest ++ joined nl ((l :: ls, p) :: parts)
        = (((rest ++ l) :: ls).flatMap fun l => l ++ [nl]) ++ (p ++ joined nl parts) := by
      simp [joined, List.append_assoc]
    have hfree : ∀ x ∈ (rest ++ l) :: ls, nl ∉ x :=
      List.forall_mem_cons.mpr ⟨by simp [hrest, hl], hls⟩
    rw [htext, lines, splitOn_flatMap_append (fun l => l) _ hfree,
      List.dropLast_append_of_ne_nil (List.splitOn_ne_nil _ _), ← lines, ih hparts hp]
    simp

omit [DecidableEq α] in
/-- Every line of a part ends a line of its own. -/
theorem mend_suffix (rest : List α) (parts : List (List (List α) × List α)) :
    List.Forall₂ (fun l line => l <:+ line) (parts.flatMap Prod.fst) (mend rest parts) := by
  fun_induction mend rest parts with
  | case1 rest => exact .nil
  | case2 rest p parts ih => exact ih
  | case3 rest l ls p parts ih =>
    refine .cons (List.suffix_append _ _) ?_
    exact List.rel_append (List.forall₂_same.mpr fun x _ => List.suffix_rfl) ih

/-- How many of the lines are not what was written: only the first one behind each rest. -/
theorem countP_mend_le (rest : List α) (parts : List (List (List α) × List α)) :
    (((parts.flatMap Prod.fst).zip (mend rest parts)).countP fun x => x.1 != x.2)
      ≤ parts.countP (fun part => part.2 != []) + if rest = [] then 0 else 1 := by
  fun_induction mend rest parts with
  | case1 rest => simp
  | case2 rest p parts ih =>
    rw [List.countP_cons]
    by_cases hp : p = []
    · rw [hp, List.append_nil] at ih ⊢
      simpa using ih
    · -- the rest of this part is paid for by itself
      rw [if_neg (by simp [hp])] at ih
      simp only [List.flatMap_cons, List.nil_append, bne_iff_ne, ne_eq, hp, not_false_eq_true,
        if_true]
      omega
  | case3 rest l ls p parts ih =>
    have hsame (ls : List (List α)) : ((ls.zip ls).countP fun x => x.1 != x.2) = 0 := by
      induction ls with
      | nil => rfl
      | cons l ls ih => simp [ih]
    -- the first line is what was written, unless there was a rest in front of it
    have hfirst : (if (l != rest ++ l) = true then 1 else 0) ≤ if rest = [] then 0 else 1 := by
      by_cases hrest : rest = []
      · simp [hrest]
      · rw [if_neg hrest]
        split <;> omega
    rw [List.flatMap_cons, List.cons_append, List.zip_cons_cons, List.countP_cons,
      List.zip_append rfl, List.countP_append, hsame, List.countP_cons]
    dsimp only
    by_cases hp : p = []
    · rw [if_pos hp] at ih
      omega
    · rw [if_neg hp] at ih
      have hopen : (p != []) = true := by simp [hp]
      simp only [hopen, if_true]
      omega

/-! ## Reading piece after piece -/

theorem mapM_eq_some_iff {β γ : Type*} {f : β → Option γ} {l : List β} {r : List γ} :
    l.mapM f = some r ↔ l.map f = r.map some := by
  induction l generalizing r with
  | nil => cases r <;> simp
  | cons a l ih =>
    rw [List.mapM_cons, List.map_cons]
    cases r with
    | nil => simp [Option.bind_eq_some_iff]
    | cons b r =>
      rw [List.map_cons, List.cons.injEq, ← ih]
      simp [Option.bind_eq_some_iff]

/-- All pieces are read as what they were written for exactly when each one is. -/
theorem mapM_map_eq_some_iff {β γ δ : Type*} {f : β → Option γ} {g : δ → β} {h : δ → γ}
    {l : List δ} :
    (l.map g).mapM f = some (l.map h) ↔ ∀ a ∈ l, f (g a) = some (h a) := by
  rw [mapM_eq_some_iff, List.map_map, List.map_map, List.map_inj_left]
  rfl

end Split
