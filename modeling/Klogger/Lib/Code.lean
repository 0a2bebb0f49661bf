import Mathlib.Data.List.Infix
import Mathlib.Data.List.Basic

/-!
# Concatenated code words

Streams of code words written one after another with nothing between them, over any
alphabet `β`. Two ways to find the words again:

* **`Framing`** — a word announces its own length: `cut` reads the length of the first word
  off a stream that begins with one, whatever follows it. Then a reader that skips from word
  to word visits exactly the starts (`starts_flatMap`), and no stream that stops inside a
  word is a stream of whole words (`flatMap_append_ne`).
* **`Guarded`** — a decoder that may look one step past the word it reads and so is right
  only in front of a continuation it does not confuse with the word (`follow`). Since every
  word is such a continuation, whole streams decode (`decodeAll_flatMap`).

The two differ in what they survive: a guarded decoder may accept a shorter word where a
longer one was cut off, a framing does not.
-/

namespace Code

variable {α β : Type*}

/-- Words that are not empty take at least one symbol each. -/
theorem length_le_flatMap {enc : α → List β} {as : List α} (h : ∀ a ∈ as, enc a ≠ []) :
    as.length ≤ (as.flatMap enc).length := by
  induction as with
  | nil => simp
  | cons a as ih =>
    have hpos := List.length_pos_iff.mpr (h a (by simp))
    have htail := ih (fun x hx => h x (by simp [hx]))
    simp only [List.flatMap_cons, List.length_cons, List.length_append]
    omega

/-! ## Words that announce their length -/

/-- An encoding `enc`, right for the values that satisfy `ok`, whose words announce their own
length: `cut` recovers it in front of any continuation. -/
structure Framing (α β : Type*) where
  enc : α → List β
  ok : α → Prop
  cut : List β → Option Nat
  enc_ne_nil : ∀ a, ok a → enc a ≠ []
  cut_enc : ∀ a, ok a → ∀ rest, cut (enc a ++ rest) = some (enc a).length

/-- Walk a stream from word to word, starting at offset `pos`: the list of the offsets
visited, provided the walk stops exactly at the end of the stream. `fuel` bounds the number
of words. -/
def starts (cut : List β → Option Nat) : Nat → Nat → List β → Option (List Nat)
  | _, _, [] => some []
  | 0, _, _ :: _ => none
  | fuel + 1, pos, b :: bs =>
    match cut (b :: bs) with
    | none => none
    | some n =>
      if n ≤ (b :: bs).length then
        (starts cut fuel (pos + n) ((b :: bs).drop n)).map (pos :: ·)
      else none

/-- The offsets at which the words for `as` begin, when they are written from offset `pos`. -/
def offsets (enc : α → List β) (pos : Nat) : List α → List Nat
  | [] => []
  | a :: as => pos :: offsets enc (pos + (enc a).length) as

namespace Framing

variable (F : Framing α β)

/-- The walk from word to word visits the starts of the words, in order, and stops at the
end of the stream. -/
theorem starts_flatMap {as : List α} (h : ∀ a ∈ as, F.ok a) :
    ∀ fuel pos, as.length ≤ fuel →
      starts F.cut fuel pos (as.flatMap F.enc) = some (offsets F.enc pos as) := by
  induction as with
  | nil =>
    intro fuel pos _
    cases fuel <;> rfl
  | cons a as ih =>
    intro fuel pos hfuel
    have hok : F.ok a := h a (by simp)
    have hcut := F.cut_enc a hok (as.flatMap F.enc)
    -- a word is not empty, so the stream is neither, and the walk takes a step
    obtain ⟨b, bs, hb⟩ := List.exists_cons_of_ne_nil (F.enc_ne_nil a hok)
    cases fuel with
    | zero => simp at hfuel
    | succ fuel =>
      have hstream : (a :: as).flatMap F.enc = b :: (bs ++ as.flatMap F.enc) := by
        rw [List.flatMap_cons, hb, List.cons_append]
      have hcons : b :: (bs ++ as.flatMap F.enc) = F.enc a ++ as.flatMap F.enc := by
        rw [hb, List.cons_append]
      rw [hstream, starts, hcons, hcut]
      simp only [List.length_append, Nat.le_add_right, if_true, List.drop_left]
      rw [ih (fun x hx => h x (by simp [hx])) fuel _ (by simpa using hfuel)]
      rfl

/-- Two streams that begin with a word begin with the same word, and continue alike. -/
theorem enc_append_inj {a b : α} (ha : F.ok a) (hb : F.ok b) {r s : List β}
    (h : F.enc a ++ r = F.enc b ++ s) : F.enc a = F.enc b ∧ r = s := by
  have hlen : (F.enc a).length = (F.enc b).length := by
    have hcut := F.cut_enc a ha r
    rw [h, F.cut_enc b hb s] at hcut
    exact (Option.some.inj hcut).symm
  exact List.append_inj h hlen

/-- No word is a proper beginning of another one. -/
theorem enc_eq_of_prefix {a b : α} (ha : F.ok a) (hb : F.ok b) (h : F.enc a <+: F.enc b) :
    F.enc a = F.enc b := by
  obtain ⟨t, ht⟩ := h
  exact (F.enc_append_inj ha hb (s := []) (by rw [ht, List.append_nil])).1

/-- A stream that stops inside a word is no stream of whole words. Induction on the whole
words in front of the torn one: each must be the next word of the other stream. -/
theorem flatMap_append_ne {as bs : List α} {a : α} (has : ∀ x ∈ as, F.ok x)
    (hbs : ∀ x ∈ bs, F.ok x) (ha : F.ok a) {p : List β} (hp : p <+: F.enc a)
    (hne : p ≠ []) (hproper : p ≠ F.enc a) : as.flatMap F.enc ++ p ≠ bs.flatMap F.enc := by
  induction as generalizing bs with
  | nil =>
    intro h
    rw [List.flatMap_nil, List.nil_append] at h
    cases bs with
    | nil => exact hne h
    | cons b bs =>
      -- a whole word would begin inside `p`, hence inside the word `p` was torn from
      obtain ⟨q, hq⟩ := hp
      have hword : F.enc b ++ (bs.flatMap F.enc ++ q) = F.enc a ++ [] := by
        rw [List.append_nil, ← hq, h, List.flatMap_cons, List.append_assoc]
      have hrest := (F.enc_append_inj (hbs b (by simp)) ha hword).2
      have hq0 : q = [] := (List.append_eq_nil_iff.mp hrest).2
      rw [hq0, List.append_nil] at hq
      exact hproper hq
  | cons x as ih =>
    intro h
    have hx : F.ok x := has x (by simp)
    have hxs : ∀ y ∈ as, F.ok y := fun y hy => has y (by simp [hy])
    rw [List.flatMap_cons, List.append_assoc] at h
    cases bs with
    | nil =>
      have hnil := (List.append_eq_nil_iff.mp h).1
      exact F.enc_ne_nil x hx hnil
    | cons b bs =>
      rw [List.flatMap_cons] at h
      have htail := (F.enc_append_inj hx (hbs b (by simp)) h).2
      exact ih hxs (fun y hy => hbs y (by simp [hy])) htail

end Framing

/-! ## Words read by a decoder that looks ahead -/

/-- An encoding with a decoder that is right in front of the continuations in `follow`; the
end of the stream and every word are such continuations. -/
structure Guarded (α β : Type*) where
  enc : α → List β
  ok : α → Prop
  dec : List β → Option (α × List β)
  follow : List β → Prop
  enc_ne_nil : ∀ a, ok a → enc a ≠ []
  follow_nil : follow []
  follow_enc : ∀ a, ok a → ∀ rest, follow (enc a ++ rest)
  dec_enc : ∀ a, ok a → ∀ rest, follow rest → dec (enc a ++ rest) = some (a, rest)

/-- Decode a stream to its end, at most `fuel` words. -/
def decodeMany (dec : List β → Option (α × List β)) : Nat → List β → Option (List α)
  | _, [] => some []
  | 0, _ :: _ => none
  | fuel + 1, b :: bs =>
    match dec (b :: bs) with
    | none => none
    | some (a, rest) => (decodeMany dec fuel rest).map (a :: ·)

/-- Decode a stream to its end. A word takes at least one symbol, so the length of the
stream bounds their number. -/
def decodeAll (dec : List β → Option (α × List β)) (bs : List β) : Option (List α) :=
  decodeMany dec bs.length bs

namespace Guarded

variable (G : Guarded α β)

/-- A stream of words is a continuation that the decoder is not confused by. -/
theorem follow_flatMap {as : List α} (h : ∀ a ∈ as, G.ok a) : G.follow (as.flatMap G.enc) := by
  cases as with
  | nil => exact G.follow_nil
  | cons a as =>
    rw [List.flatMap_cons]
    exact G.follow_enc a (h a (by simp)) _

/-- With enough fuel. Induction on the words: the decoder is right about the first one because of
what stands behind it. -/
theorem decodeMany_flatMap {as : List α} (h : ∀ a ∈ as, G.ok a) :
    ∀ fuel, as.length ≤ fuel → decodeMany G.dec fuel (as.flatMap G.enc) = some as := by
  induction as with
  | nil =>
    intro fuel _
    cases fuel <;> rfl
  | cons a as ih =>
    intro fuel hfuel
    have hok : G.ok a := h a (by simp)
    have htail : ∀ x ∈ as, G.ok x := fun x hx => h x (by simp [hx])
    have hdec := G.dec_enc a hok (as.flatMap G.enc) (G.follow_flatMap htail)
    obtain ⟨b, bs, hb⟩ := List.exists_cons_of_ne_nil (G.enc_ne_nil a hok)
    cases fuel with
    | zero => simp at hfuel
    | succ fuel =>
      rw [hb, List.cons_append] at hdec
      rw [List.flatMap_cons, hb, List.cons_append, decodeMany, hdec]
      simp only [ih htail fuel (by simpa using hfuel), Option.map_some]

theorem length_le_flatMap {as : List α} (h : ∀ a ∈ as, G.ok a) :
    as.length ≤ (as.flatMap G.enc).length :=
  Code.length_le_flatMap fun a ha => G.enc_ne_nil a (h a ha)

/-- A stream of words decodes to the values they were written for. -/
theorem decodeAll_flatMap {as : List α} (h : ∀ a ∈ as, G.ok a) :
    decodeAll G.dec (as.flatMap G.enc) = some as :=
  G.decodeMany_flatMap h _ (G.length_le_flatMap h)

/-- Different sequences of values never have the same stream. -/
theorem flatMap_injOn {as bs : List α} (ha : ∀ a ∈ as, G.ok a) (hb : ∀ b ∈ bs, G.ok b)
    (h : as.flatMap G.enc = bs.flatMap G.enc) : as = bs := by
  have hdec := G.decodeAll_flatMap ha
  rw [h, G.decodeAll_flatMap hb] at hdec
  exact (Option.some.inj hdec).symm

end Guarded

/-! ## Streams that were cut off -/

/-- What is left of a stream of words that stops inside the first of them, or behind the last. -/
def Tail (enc : α → List β) (as : List α) (p : List β) : Prop :=
  (as = [] ∧ p = []) ∨ ∃ a as', as = a :: as' ∧ p <+: enc a ∧ p ≠ enc a

/-- A beginning of a stream is a number of whole words and a tail of the others. Induction on
the words. -/
theorem exists_tail {enc : α → List β} {as : List α} {c : List β} (h : c <+: as.flatMap enc) :
    ∃ whole rest p, as = whole ++ rest ∧ c = whole.flatMap enc ++ p ∧ Tail enc rest p := by
  induction as generalizing c with
  | nil => exact ⟨[], [], c, rfl, by simp, .inl ⟨rfl, List.prefix_nil.mp h⟩⟩
  | cons a as ih =>
    rw [List.flatMap_cons] at h
    -- the first word is there as a whole, or the stream stops inside it
    by_cases ha : enc a <+: c
    · obtain ⟨c', rfl⟩ := ha
      obtain ⟨whole, rest, p, hsplit, hc, htail⟩ := ih ((List.prefix_append_right_inj _).mp h)
      exact ⟨a :: whole, rest, p, by rw [hsplit, List.cons_append],
        by rw [hc, List.flatMap_cons, List.append_assoc], htail⟩
    · -- the stream stops inside the first word
      have hc : c <+: enc a :=
        (List.prefix_or_prefix_of_prefix h (List.prefix_append _ _)).resolve_right ha
      refine ⟨[], a :: as, c, rfl, by simp, .inr ⟨a, as, rfl, hc, ?_⟩⟩
      rintro rfl
      exact ha List.prefix_rfl

/-- A tail that has all of the words in it is no tail of any. -/
theorem Tail.eq_nil {enc : α → List β} {as : List α} (h : Tail enc as (as.flatMap enc)) :
    as = [] := by
  rcases h with ⟨has, _⟩ | ⟨a, as', rfl, hprefix, hne⟩
  · exact has
  · rw [List.flatMap_cons] at hprefix hne
    have heq := (List.prefix_append (enc a) (as'.flatMap enc)).eq_of_length_le hprefix.length_le
    exact absurd heq.symm hne

/-- The whole words a stream begins with, and what is left behind them; at most `fuel` words. -/
def salvage (cut : List β → Option Nat) : Nat → List β → List (List β) × List β
  | 0, bs => ([], bs)
  | fuel + 1, bs =>
    match cut bs with
    | none => ([], bs)
    | some n =>
      if 0 < n ∧ n ≤ bs.length then
        (bs.take n :: (salvage cut fuel (bs.drop n)).1, (salvage cut fuel (bs.drop n)).2)
      else ([], bs)

/-- A torn word is not measured, or for longer than it is. -/
def Framing.Sharp (F : Framing α β) : Prop :=
  ∀ a, F.ok a → ∀ p, p <+: F.enc a → p ≠ F.enc a → ∀ n, F.cut p = some n → p.length < n

namespace Framing

variable {F : Framing α β}

/-- Of a tail nothing is salvaged: it is empty, or it is measured for more than is there. -/
theorem Sharp.salvage_tail (h : F.Sharp) {rest : List α} (hrest : ∀ a ∈ rest, F.ok a)
    {p : List β} (hp : Tail F.enc rest p) (fuel : Nat) : salvage F.cut fuel p = ([], p) := by
  cases fuel with
  | zero => rfl
  | succ fuel =>
    rw [salvage]
    cases hcut : F.cut p with
    | none => rfl
    | some n =>
      dsimp only
      rw [if_neg]
      rintro ⟨hpos, hle⟩
      -- behind the last word there is nothing to measure
      rcases hp with ⟨_, rfl⟩ | ⟨a, as, rfl, hprefix, hne⟩
      · exact absurd hle (Nat.not_le.mpr hpos)
      · have hlt := h a (hrest a (by simp)) p hprefix hne n hcut
        omega

/-- Salvage finds the words that come first, and goes on behind them. Induction on the words. -/
theorem salvage_append {as : List α} (has : ∀ a ∈ as, F.ok a) (bs : List β) :
    ∀ fuel, as.length ≤ fuel →
      salvage F.cut fuel (as.flatMap F.enc ++ bs)
        = (as.map F.enc ++ (salvage F.cut (fuel - as.length) bs).1,
          (salvage F.cut (fuel - as.length) bs).2) := by
  induction as with
  | nil => exact fun _ _ => rfl
  | cons a as ih =>
    intro fuel hfuel
    have hok : F.ok a := has a (by simp)
    have hpos : 0 < (F.enc a).length := List.length_pos_iff.mpr (F.enc_ne_nil a hok)
    cases fuel with
    | zero => simp at hfuel
    | succ fuel =>
      rw [List.flatMap_cons, List.append_assoc, salvage, F.cut_enc a hok]
      -- the first word is measured right, and cut off
      simp only [List.length_append, Nat.le_add_right, hpos, and_self, if_true, List.take_left,
        List.drop_left]
      rw [ih (fun x hx => has x (by simp [hx])) fuel (by simpa using hfuel), List.length_cons,
        Nat.add_sub_add_right]
      rfl

/-- **Salvage finds the whole words and nothing else.** -/
theorem Sharp.salvage_flatMap (h : F.Sharp) {as rest : List α} (has : ∀ a ∈ as, F.ok a)
    (hrest : ∀ a ∈ rest, F.ok a) {p : List β} (hp : Tail F.enc rest p) (fuel : Nat)
    (hfuel : as.length ≤ fuel) :
    salvage F.cut fuel (as.flatMap F.enc ++ p) = (as.map F.enc, p) := by
  rw [salvage_append has p fuel hfuel, h.salvage_tail hrest hp, List.append_nil]

theorem length_le_flatMap {as : List α} (has : ∀ a ∈ as, F.ok a) :
    as.length ≤ (as.flatMap F.enc).length :=
  Code.length_le_flatMap fun a ha => F.enc_ne_nil a (has a ha)

end Framing

end Code
