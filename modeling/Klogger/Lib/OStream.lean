import Klogger.Lib.Octets

/-!
# Output streams by reference

A function that takes an output stream by reference can be handed any stream object of the
program. `OStream σ` is such a reference: three operations on the program state `σ`, of which
the referenced stream is a part.

* `emit` writes pieces one after another without looking at the stream in between;
  `checked` looks after every piece and gives up at the first one that left the stream not
  good. On a stream that ignores everything once it is not good (`Sticky`) the two leave the
  same state behind (`checked_snd`).
* `Lens`/`zoom` — a reference to a stream that is a component of a bigger state, with the
  transfer of `emit` and `send` along it.
* `Sink` — the plain stream: the bytes it has accepted, a state flag and a fault schedule. A
  string stream is a `Sink` with no fault in its schedule.
-/

/-- A reference to an output stream inside the program state `σ`. -/
structure OStream (σ : Type*) where
  good : σ → Bool
  write : Bytes → σ → σ
  flush : σ → σ

namespace OStream

variable {σ τ : Type*} (outs : OStream σ)

/-- Write piece after piece, as a chain of insertions does. -/
def emit : List Bytes → σ → σ
  | [], s => s
  | c :: cs, s => emit cs (outs.write c s)

/-- Write piece after piece and flush at the end. -/
def send (cs : List Bytes) (s : σ) : σ := outs.flush (outs.emit cs s)

/-- Write the pieces one after another, giving up after the first one that leaves the stream
not good; the result says whether all of them went through. -/
def checked : List Bytes → σ → Bool × σ
  | [], s => (true, s)
  | c :: cs, s =>
    let s := outs.write c s
    if outs.good s then checked cs s else (false, s)

@[simp] theorem emit_nil (s : σ) : outs.emit [] s = s := rfl

@[simp] theorem emit_cons (c : Bytes) (cs : List Bytes) (s : σ) :
    outs.emit (c :: cs) s = outs.emit cs (outs.write c s) := rfl

/-- A script can be cut anywhere. -/
theorem emit_append (as bs : List Bytes) (s : σ) :
    outs.emit (as ++ bs) s = outs.emit bs (outs.emit as s) := by
  induction as generalizing s with
  | nil => rfl
  | cons a as ih => simp [ih]

/-- A checked script can be cut, too; the second part is reached only if the first went through. -/
theorem checked_append (as bs : List Bytes) (s : σ) :
    outs.checked (as ++ bs) s =
      match outs.checked as s with
      | (false, s) => (false, s)
      | (true, s) => outs.checked bs s := by
  induction as generalizing s with
  | nil => rfl
  | cons a as ih =>
    simp only [List.cons_append, checked]
    by_cases hgood : outs.good (outs.write a s)
    · simp only [hgood, if_true]
      exact ih _
    · simp [hgood]

theorem checked_singleton (b : Bytes) (s : σ) :
    outs.checked [b] s = (outs.good (outs.write b s), outs.write b s) := by
  simp only [checked]
  cases outs.good (outs.write b s) <;> rfl

/-- A script that went through left the stream good, if it wrote anything. -/
theorem good_of_checked {cs : List Bytes} {s : σ} (hne : cs ≠ [])
    (h : (outs.checked cs s).1 = true) : outs.good (outs.checked cs s).2 = true := by
  induction cs generalizing s with
  | nil => exact absurd rfl hne
  | cons c cs ih =>
    simp only [checked] at h ⊢
    by_cases hgood : outs.good (outs.write c s)
    · simp only [hgood, if_true] at h ⊢
      -- the last piece decides; the others were good, or the script would have stopped
      cases cs with
      | nil => exact hgood
      | cons d ds => exact ih (by simp) h
    · simp [hgood] at h

/-! ## Streams that ignore everything once they are not good -/

/-- Once it is not good, the stream ignores writes and flushes. -/
structure Sticky : Prop where
  write_dead : ∀ b s, outs.good s = false → outs.write b s = s
  flush_dead : ∀ s, outs.good s = false → outs.flush s = s

variable {outs}

/-- A stream that is not good ignores a whole script. -/
theorem Sticky.emit_dead (h : outs.Sticky) {cs : List Bytes} {s : σ}
    (hdead : outs.good s = false) : outs.emit cs s = s := by
  induction cs with
  | nil => rfl
  | cons c cs ih => rw [emit_cons, h.write_dead c s hdead, ih]

/-- Checking changes nothing about the state a script leaves: the pieces after the failing
one would have been ignored anyway. -/
theorem Sticky.checked_snd (h : outs.Sticky) (cs : List Bytes) (s : σ) :
    (outs.checked cs s).2 = outs.emit cs s := by
  induction cs generalizing s with
  | nil => rfl
  | cons c cs ih =>
    simp only [checked, emit_cons]
    cases hgood : outs.good (outs.write c s) with
    | true => simpa using ih (outs.write c s)
    | false => simp [h.emit_dead hgood]

/-- The result of a checked script is the state flag it leaves. -/
theorem Sticky.checked_fst (h : outs.Sticky) {cs : List Bytes} (hne : cs ≠ []) (s : σ) :
    (outs.checked cs s).1 = outs.good (outs.emit cs s) := by
  induction cs generalizing s with
  | nil => exact absurd rfl hne
  | cons c cs ih =>
    simp only [checked, emit_cons]
    cases hgood : outs.good (outs.write c s) with
    | true =>
      cases cs with
      | nil => simp [checked, hgood]
      | cons d ds => simpa using ih (by simp) (outs.write c s)
    | false => simp [h.emit_dead hgood, hgood]

/-- Flushing only after a script that went through, or flushing in any case: the same. -/
theorem Sticky.checked_flush (h : outs.Sticky) {cs : List Bytes} (hne : cs ≠ []) (s : σ) :
    (if (outs.checked cs s).1 then outs.flush (outs.checked cs s).2 else (outs.checked cs s).2)
      = outs.send cs s := by
  rw [h.checked_fst hne, h.checked_snd, send]
  cases hgood : outs.good (outs.emit cs s) with
  | true => rfl
  | false => rw [h.flush_dead _ hgood]; rfl

end OStream

/-! ## A stream inside a bigger state -/

/-- A component `τ` of a state `σ`. -/
structure Lens (σ τ : Type*) where
  get : σ → τ
  set : τ → σ → σ
  get_set : ∀ t s, get (set t s) = t
  set_get : ∀ s, set (get s) s = s
  set_set : ∀ t u s, set t (set u s) = set t s

namespace OStream

variable {σ τ : Type*}

/-- The reference to a stream of a component, as a reference in the whole state. -/
def zoom (outs : OStream τ) (l : Lens σ τ) : OStream σ where
  good s := outs.good (l.get s)
  write b s := l.set (outs.write b (l.get s)) s
  flush s := l.set (outs.flush (l.get s)) s

variable {outs : OStream τ} {l : Lens σ τ}

/-- A script through the reference changes the component as the script on the component does, and
nothing else. The lens laws put the pieces together. -/
theorem zoom_emit (cs : List Bytes) (s : σ) :
    (outs.zoom l).emit cs s = l.set (outs.emit cs (l.get s)) s := by
  induction cs generalizing s with
  | nil => exact (l.set_get s).symm
  | cons c cs ih =>
    rw [emit_cons, ih, emit_cons]
    simp only [zoom, l.get_set, l.set_set]

theorem zoom_send (cs : List Bytes) (s : σ) :
    (outs.zoom l).send cs s = l.set (outs.send cs (l.get s)) s := by
  rw [send, zoom_emit, send]
  simp only [zoom, l.get_set, l.set_set]

/-- Where the component ignores everything, so does the whole. -/
theorem Sticky.zoom (h : outs.Sticky) : (outs.zoom l).Sticky where
  write_dead b s hdead := by
    show l.set (outs.write b (l.get s)) s = s
    rw [h.write_dead b _ hdead, l.set_get]
  flush_dead s hdead := by
    show l.set (outs.flush (l.get s)) s = s
    rw [h.flush_dead _ hdead, l.set_get]

end OStream

/-! ## The plain stream -/

/-- A stream that keeps what it accepts. `fault n = some k` says that the write with number
`n` fails after `k` of its bytes; `attempts` numbers the writes that were made on it. -/
structure Sink where
  accepted : Bytes
  ok : Bool
  attempts : Nat
  fault : Nat → Option Nat

namespace Sink

def empty : Sink := ⟨[], true, 0, fun _ => none⟩

/-- A write that fails clears the flag and keeps the bytes that went through; from then on writes
are counted and ignored. -/
def write (b : Bytes) (s : Sink) : Sink :=
  let s' := { s with attempts := s.attempts + 1 }
  if s.ok then
    match s.fault s.attempts with
    | none => { s' with accepted := s.accepted ++ b }
    | some k => { s' with accepted := s.accepted ++ b.take k, ok := false }
  else s'

/-- There is no buffer, so a flush does nothing. -/
def ref : OStream Sink where
  good := Sink.ok
  write := Sink.write
  flush := id

/-- A good stream on which no write fails. -/
structure Reliable (s : Sink) : Prop where
  ok : s.ok = true
  fault : ∀ n, s.fault n = none

theorem reliable_empty : empty.Reliable := ⟨rfl, fun _ => rfl⟩

/-- The stream after `n` more writes that brought `b`. -/
def grow (s : Sink) (b : Bytes) (n : Nat) : Sink :=
  { s with accepted := s.accepted ++ b, attempts := s.attempts + n }

theorem Reliable.grow {s : Sink} (h : s.Reliable) (b : Bytes) (n : Nat) :
    (s.grow b n).Reliable := ⟨h.ok, h.fault⟩

theorem grow_grow (s : Sink) (a b : Bytes) (m n : Nat) :
    (s.grow a m).grow b n = s.grow (a ++ b) (m + n) := by
  simp [Sink.grow, List.append_assoc, Nat.add_assoc]

theorem Reliable.write {s : Sink} (h : s.Reliable) (b : Bytes) : s.write b = s.grow b 1 := by
  simp [Sink.write, h.ok, h.fault, Sink.grow]

/-- A reliable stream takes a script as it is: the pieces end up one behind the other. -/
theorem Reliable.emit {s : Sink} (h : s.Reliable) (cs : List Bytes) :
    ref.emit cs s = s.grow cs.flatten cs.length := by
  induction cs generalizing s with
  | nil => simp [Sink.grow]
  | cons c cs ih =>
    have hwrite : ref.write c s = s.grow c 1 := h.write c
    rw [OStream.emit_cons, hwrite, ih (h.grow c 1), grow_grow, List.flatten_cons,
      List.length_cons, Nat.add_comm 1]

theorem Reliable.send {s : Sink} (h : s.Reliable) (cs : List Bytes) :
    ref.send cs s = s.grow cs.flatten cs.length := h.emit cs

/-- A checked script goes through. -/
theorem Reliable.checked {s : Sink} (h : s.Reliable) (cs : List Bytes) :
    ref.checked cs s = (true, s.grow cs.flatten cs.length) := by
  induction cs generalizing s with
  | nil => simp [OStream.checked, Sink.grow]
  | cons c cs ih =>
    have hwrite : ref.write c s = s.grow c 1 := h.write c
    have hgood : ref.good (s.grow c 1) = true := h.ok
    rw [OStream.checked, hwrite]
    simp only [hgood, if_true]
    rw [ih (h.grow c 1), grow_grow, List.flatten_cons, List.length_cons, Nat.add_comm 1]

/-! ### Writes that fail -/

/-- The write with number `n` fails, if no write before it did. -/
def Fails (s : Sink) (n : Nat) : Prop := s.ok = false ∨ s.fault n ≠ none

/-- The first write on the stream, from where it stands, that fails is the one with number
`i`. -/
structure FirstFailure (s : Sink) (i : Nat) : Prop where
  le : s.attempts ≤ i
  fails : s.Fails i
  before : ∀ n, s.attempts ≤ n → n < i → ¬ s.Fails n

/-- The stream after `n` more writes that brought `b`, the last of which failed. -/
def broken (s : Sink) (b : Bytes) (n : Nat) : Sink := { s.grow b n with ok := false }

theorem not_fails_iff {s : Sink} {n : Nat} : ¬ s.Fails n ↔ s.ok = true ∧ s.fault n = none := by
  simp [Fails]

/-- Behind a write that went through, the first failure is the first one at all. -/
theorem FirstFailure.of_grow {s : Sink} {b : Bytes} {i : Nat} (hpass : ¬ s.Fails s.attempts)
    (h : (s.grow b 1).FirstFailure i) : s.FirstFailure i where
  le := Nat.le_of_succ_le h.le
  fails := h.fails
  before n hle hlt := by
    rcases Nat.eq_or_lt_of_le hle with rfl | hlater
    · exact hpass
    · exact h.before n hlater hlt

/-- One write brings all of its bytes, or it fails and brings some of the first ones. -/
theorem write_cases (b : Bytes) (s : Sink) :
    (¬ s.Fails s.attempts ∧ s.write b = s.grow b 1)
      ∨ (s.Fails s.attempts ∧ ∃ p, p <+: b ∧ s.write b = s.broken p 1) := by
  cases hok : s.ok with
  | false =>
    refine .inr ⟨.inl hok, [], List.nil_prefix, ?_⟩
    simp [Sink.write, hok, broken, Sink.grow]
  | true =>
    cases hfault : s.fault s.attempts with
    | none =>
      refine .inl ⟨not_fails_iff.mpr ⟨hok, hfault⟩, ?_⟩
      simp [Sink.write, hok, hfault, Sink.grow]
    | some k =>
      refine .inr ⟨.inr (by simp [hfault]), b.take k, List.take_prefix k b, ?_⟩
      simp [Sink.write, hok, hfault, broken, Sink.grow]

/-- **A checked script on a stream that may fail**: it writes everything, or it stops at the
first write that fails. Induction on the script; a piece that went through is the start of
what a later failure leaves behind. -/
theorem checked_cases (cs : List Bytes) (s : Sink) :
    ((∀ n, s.attempts ≤ n → n < s.attempts + cs.length → ¬ s.Fails n)
        ∧ ref.checked cs s = (true, s.grow cs.flatten cs.length))
      ∨ ∃ k p, s.FirstFailure (s.attempts + k) ∧ p <+: cs.flatten
          ∧ ref.checked cs s = (false, s.broken p (k + 1)) := by
  induction cs generalizing s with
  | nil =>
    refine .inl ⟨fun n hle hlt => absurd hlt (Nat.not_lt.mpr hle), ?_⟩
    simp [OStream.checked, Sink.grow]
  | cons c cs ih =>
    rcases write_cases c s with ⟨hpass, hwrite⟩ | ⟨hfail, p, hp, hwrite⟩
    · -- the first piece went through, and the rest of the script is on its own
      have hgood : ref.good (s.grow c 1) = true := (not_fails_iff.mp hpass).1
      have hrest : ref.checked (c :: cs) s = ref.checked cs (s.grow c 1) := by
        rw [OStream.checked, show ref.write c s = s.grow c 1 from hwrite]
        simp only [hgood, if_true]
      have hattempts : (s.grow c 1).attempts = s.attempts + 1 := rfl
      rcases ih (s.grow c 1) with ⟨hall, hchecked⟩ | ⟨k, p, hfirst, hp, hchecked⟩
      · refine .inl ⟨fun n hle hlt => ?_, ?_⟩
        · rcases Nat.eq_or_lt_of_le hle with rfl | hlater
          · exact hpass
          · rw [List.length_cons] at hlt
            exact hall n hlater (by omega)
        · rw [hrest, hchecked, grow_grow, List.flatten_cons, List.length_cons, Nat.add_comm 1]
      · -- the failure has the same number, counted from the first piece
        have hnum : (s.grow c 1).attempts + k = s.attempts + (k + 1) := by omega
        rw [hnum] at hfirst
        refine .inr ⟨k + 1, c ++ p, hfirst.of_grow hpass, ?_, ?_⟩
        · rw [List.flatten_cons]
          exact (List.prefix_append_right_inj c).mpr hp
        · rw [hrest, hchecked, broken, grow_grow, Nat.add_comm 1]
          rfl
    · -- the first piece failed, and the script ends with it
      refine .inr ⟨0, p, ⟨le_rfl, hfail, fun n hle hlt => absurd hlt (Nat.not_lt.mpr hle)⟩,
        hp.trans ?_, ?_⟩
      · rw [List.flatten_cons]
        exact List.prefix_append c cs.flatten
      · have hbad : ref.good (s.broken p 1) = false := rfl
        rw [OStream.checked, show ref.write c s = s.broken p 1 from hwrite]
        simp [hbad]

end Sink
