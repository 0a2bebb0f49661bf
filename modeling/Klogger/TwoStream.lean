import Klogger.Lib.Ofstream
import Klogger.Lib.Run
import Klogger.Logger

/-!
# Loggers with two streams

`FileLogger`, `BinLogger` and `ConsoleLogger` send DEBUG and INFO messages to one stream and
all other messages to another, and their `close()` is the same function, character by
character. `TwoStream` is the state they share.

`Recorder` is what is left of such a logger when the sixteen copies of its logging method are
taken together: the pieces of a record, and the value of `err` after a call. The modules of
the three backends show that their methods are those of a `Recorder`; everything that is
proved about whole runs is proved about recorders.
-/

namespace Klog

/-- The members of a logger with two streams. A `ConsoleLogger` has the last two only; for it
`outs` is `std::cout` and `errs` is `std::cerr`. -/
structure TwoStream where
  outs : Ofstream
  errs : Ofstream
  ilevel : Level
  err : LogError

/-- The logger with the system it runs on. -/
abbrev World := TwoStream × Kernel

namespace TwoStream

def withErr (e : LogError) (t : TwoStream) : TwoStream := { t with err := e }

def withLevel (l : Level) (t : TwoStream) : TwoStream := { t with ilevel := l }

/-- The stream `outs` with the system, as a part of the logger with the system. -/
def atOuts : Lens World (Ofstream × Kernel) where
  get s := (s.1.outs, s.2)
  set x s := ({ outs := x.1, errs := s.1.errs, ilevel := s.1.ilevel, err := s.1.err }, x.2)
  get_set _ _ := rfl
  set_get _ := rfl
  set_set _ _ _ := rfl

def atErrs : Lens World (Ofstream × Kernel) where
  get s := (s.1.errs, s.2)
  set x s := ({ outs := s.1.outs, errs := x.1, ilevel := s.1.ilevel, err := s.1.err }, x.2)
  get_set _ _ := rfl
  set_get _ := rfl
  set_set _ _ _ := rfl

/-- The references the logging methods hand to the formatting functions. -/
def outsRef : OStream World := Ofstream.ref.zoom atOuts
def errsRef : OStream World := Ofstream.ref.zoom atErrs

/-! ## The functions the three classes share -/

def level (l : Level) (s : World) : World := (s.1.withLevel l, s.2)

/-- `good()`: nothing has been reported so far. No stream is asked. -/
def good (s : World) : Bool := s.1.err == .HEALTHY

def error (s : World) : LogError := s.1.err

def STDOUT_FILENO : Fd := 1
def STDERR_FILENO : Fd := 2

/-- `close()`. The descriptors it closes are the standard ones. -/
def close (s : World) : Int × World :=
  let r := s.2.close STDOUT_FILENO
  if -1 = r.1 then (-1, (s.1.withErr .ERR_CLOSEFAIL, r.2))
  else
    let r := r.2.close STDERR_FILENO
    if -1 = r.1 then (-1, (s.1.withErr .ERR_CLOSEFAIL, r.2))
    else (0, (s.1.withErr .ERR_CLOSED, r.2))

end TwoStream

open TwoStream

/-- What `set_err` and the constructors ask of the streams. -/
def BothGood (s : World) : Prop := s.1.outs.good = true ∧ s.1.errs.good = true

instance : DecidablePred BothGood := fun s =>
  inferInstanceAs (Decidable (s.1.outs.good = true ∧ s.1.errs.good = true))

/-! ## Recorders -/

/-- The pieces a logger writes for an entry, and the `err` it is left with. -/
structure Recorder where
  chunks : Entry → List Bytes
  settle : TwoStream → LogError
  ne_nil : ∀ e, (chunks e).flatten ≠ []

/-- The stream for messages of a level. -/
def port (l : Level) : Lens World (Ofstream × Kernel) := if l.toOuts then atOuts else atErrs

def portRef (l : Level) : OStream World := Ofstream.ref.zoom (port l)

namespace Recorder

variable (R : Recorder)

def record (e : Entry) : Bytes := (R.chunks e).flatten

/-- Write the record to the stream for its level. Nothing else of the logger is touched. -/
def send (e : Entry) (s : World) : World :=
  (port e.call.level).set (Ofstream.ref.send (R.chunks e) ((port e.call.level).get s)) s

def settled (s : World) : World := (s.1.withErr (R.settle s.1), s.2)

/-- One operation of a recorder: below the threshold nothing happens at all. -/
def step : Op → World → ControlFlow × World
  | .log c now, s =>
    if s.1.ilevel ≤ c.level then (c.flow, R.settled (R.send ⟨c, now⟩ s)) else (.returned, s)
  | .level l, s => (.returned, TwoStream.level l s)
  | .close, s => (.returned, (TwoStream.close s).2)

end Recorder

/-- The operation is a call that passes the threshold. -/
def Passes (op : Op) (s : World) : Prop := ∃ c now, op = .log c now ∧ s.1.ilevel ≤ c.level

@[simp] theorem passes_log {c : LogCall} {now : Time} {s : World} :
    Passes (.log c now) s ↔ s.1.ilevel ≤ c.level := by
  constructor
  · rintro ⟨_, _, ⟨rfl, rfl⟩, h⟩
    exact h
  · exact fun h => ⟨c, now, rfl, h⟩

@[simp] theorem not_passes_level {l : Level} {s : World} : ¬ Passes (.level l) s := by
  rintro ⟨_, _, h, _⟩
  cases h

@[simp] theorem not_passes_close {s : World} : ¬ Passes .close s := by
  rintro ⟨_, _, h, _⟩
  cases h

/-- If the operation is a call that passes the threshold, its stream can carry the `ops` writes
and flushes the call makes. -/
def Carries (ops : Entry → Nat) (op : Op) (s : World) : Prop :=
  ∀ c now, op = .log c now → s.1.ilevel ≤ c.level →
    Ofstream.Clear (ops ⟨c, now⟩) ((port c.level).get s)

/-- The operation is a call that passes the threshold and returns without its record having
been delivered. -/
def Lost (record : Entry → Bytes) (step : Op → World → ControlFlow × World) (op : Op) (s : World) :
    Prop :=
  ∃ c now, op = .log c now ∧ s.1.ilevel ≤ c.level
    ∧ ¬ Ofstream.Delivered (record ⟨c, now⟩) ((port c.level).get s)
        ((port c.level).get (step op s).2)

namespace Recorder

variable (R : Recorder)

/-! ## One operation -/

/-- A call that passes records, settles, and returns or exits. -/
theorem step_passed {c : LogCall} {s : World} (h : s.1.ilevel ≤ c.level) (now : Time) :
    R.step (.log c now) s = (c.flow, R.settled (R.send ⟨c, now⟩ s)) := by
  rw [step, if_pos h]

theorem step_suppressed {c : LogCall} {s : World} (h : ¬ s.1.ilevel ≤ c.level) (now : Time) :
    R.step (.log c now) s = (.returned, s) := by
  rw [step, if_neg h]

theorem send_outs {e : Entry} (h : e.call.level.toOuts = true) (s : World) :
    R.send e s = atOuts.set (Ofstream.ref.send (R.chunks e) (s.1.outs, s.2)) s := by
  rw [send, port, if_pos h]
  rfl

theorem send_errs {e : Entry} (h : e.call.level.toOuts = false) (s : World) :
    R.send e s = atErrs.set (Ofstream.ref.send (R.chunks e) (s.1.errs, s.2)) s := by
  rw [send, port, if_neg (by simp [h])]
  rfl

@[simp] theorem get_settled (l : Level) (s : World) :
    (port l).get (R.settled s) = (port l).get s := by
  unfold port
  split <;> rfl

/-- Seen from the stream, a call that passes is one `send`. -/
theorem get_step {c : LogCall} {s : World} (h : s.1.ilevel ≤ c.level) (now : Time) :
    (port c.level).get (R.step (.log c now) s).2
      = Ofstream.ref.send (R.chunks ⟨c, now⟩) ((port c.level).get s) := by
  rw [R.step_passed h, get_settled]
  exact (port c.level).get_set _ s

/-- Whatever happens: the streams stay attached to their descriptors, none becomes good again,
and no descriptor is opened. -/
structure Kept (s t : World) : Prop where
  outs_fd : t.1.outs.fd = s.1.outs.fd
  errs_fd : t.1.errs.fd = s.1.errs.fd
  outs_eof : t.1.outs.eofbit = s.1.outs.eofbit
  errs_eof : t.1.errs.eofbit = s.1.errs.eofbit
  outs_good : t.1.outs.good = true → s.1.outs.good = true
  errs_good : t.1.errs.good = true → s.1.errs.good = true
  fds : ∀ g, s.2.fds g = none → t.2.fds g = none

theorem Kept.refl (s : World) : Kept s s := ⟨rfl, rfl, rfl, rfl, id, id, fun _ => id⟩

/-- Whichever stream it goes through, the other one stays. -/
theorem send_kept (e : Entry) (s : World) : Kept s (R.send e s) := by
  cases h : e.call.level.toOuts with
  | true =>
    have hmoved := Ofstream.send_moved (R.chunks e) (s.1.outs, s.2)
    rw [R.send_outs h]
    exact ⟨hmoved.fd, rfl, hmoved.eof, rfl, hmoved.good_of_good, id,
      fun g => (hmoved.fds_eq_none g).mpr⟩
  | false =>
    have hmoved := Ofstream.send_moved (R.chunks e) (s.1.errs, s.2)
    rw [R.send_errs h]
    exact ⟨rfl, hmoved.fd, rfl, hmoved.eof, id, hmoved.good_of_good,
      fun g => (hmoved.fds_eq_none g).mpr⟩

/-- With both streams off the air no file changes. -/
theorem send_files {s : World} (houts : ¬ s.2.isOpen s.1.outs.fd)
    (herrs : ¬ s.2.isOpen s.1.errs.fd) (e : Entry) : (R.send e s).2.files = s.2.files := by
  cases h : e.call.level.toOuts with
  | true =>
    rw [R.send_outs h]
    exact (Ofstream.send_moved (R.chunks e) (s.1.outs, s.2)).files_of_closed houts
  | false =>
    rw [R.send_errs h]
    exact (Ofstream.send_moved (R.chunks e) (s.1.errs, s.2)).files_of_closed herrs

theorem settled_kept (s : World) : Kept s (R.settled s) :=
  ⟨rfl, rfl, rfl, rfl, id, id, fun _ => id⟩

end Recorder

namespace TwoStream

open Recorder

/-- What `close()` does to the logger: `err` says which of the two outcomes it was. -/
theorem close_cases (s : World) :
    ((close s).1 = -1 ∧ (close s).2.1 = s.1.withErr .ERR_CLOSEFAIL)
      ∨ ((close s).1 = 0 ∧ (close s).2.1 = s.1.withErr .ERR_CLOSED) := by
  unfold close
  dsimp only
  split
  · exact .inl ⟨rfl, rfl⟩
  · split
    · exact .inl ⟨rfl, rfl⟩
    · exact .inr ⟨rfl, rfl⟩

/-- Nothing of the logger changes but `err`. -/
theorem close_withErr (s : World) : ∃ e, (close s).2.1 = s.1.withErr e := by
  rcases close_cases s with ⟨_, heq⟩ | ⟨_, heq⟩ <;> exact ⟨_, heq⟩

/-- What `close()` returns and what it reports say the same. -/
theorem err_close (s : World) :
    (close s).2.1.err = if (close s).1 = 0 then .ERR_CLOSED else .ERR_CLOSEFAIL := by
  rcases close_cases s with ⟨hneg, heq⟩ | ⟨hzero, heq⟩
  · rw [heq, hneg]
    rfl
  · rw [heq, hzero]
    rfl

/-- What `close()` does to the descriptors: one `close(2)` or two. -/
theorem close_kernel (s : World) :
    (close s).2.2 = (s.2.close STDOUT_FILENO).2
      ∨ (close s).2.2 = ((s.2.close STDOUT_FILENO).2.close STDERR_FILENO).2 := by
  unfold close
  dsimp only
  split
  · -- the first `close(2)` failed, and the second one is not tried
    exact .inl rfl
  · split <;> exact .inr rfl

/-- **When `close()` returns 0**: the standard descriptors are open, and the system lets both
of them be closed. -/
theorem close_eq_zero_iff (s : World) :
    (close s).1 = 0 ↔ (s.2.close STDOUT_FILENO).1 = 0
      ∧ ((s.2.close STDOUT_FILENO).2.close STDERR_FILENO).1 = 0 := by
  unfold close
  dsimp only
  split
  · next h =>
    have hne := mt Kernel.close_ne_neg_one_iff.mpr (not_not.mpr h)
    simp [hne]
  · next h =>
    have h₁ := Kernel.close_ne_neg_one_iff.mp h
    split
    · next h' =>
      have hne := mt Kernel.close_ne_neg_one_iff.mpr (not_not.mpr h')
      simp [hne]
    · next h' => simp [h₁, Kernel.close_ne_neg_one_iff.mp h']

/-- The standard descriptors are open, and the system lets two operations pass. -/
def Closable (k : Kernel) : Prop :=
  k.fds STDOUT_FILENO ≠ none ∧ k.fds STDERR_FILENO ≠ none
    ∧ ∀ n < 2, ∃ m, k.oracle (k.tick + n) = .ok m

/-- Whether `close()` returns 0 can be told from the system before the call. -/
theorem close_eq_zero_iff_closable (s : World) : (close s).1 = 0 ↔ Closable s.2 := by
  rw [close_eq_zero_iff]
  -- the second `close(2)` meets the system that the first one has left
  have hsecond (h : (s.2.close STDOUT_FILENO).1 = 0) :
      ((s.2.close STDOUT_FILENO).2.close STDERR_FILENO).1 = 0
        ↔ s.2.fds STDERR_FILENO ≠ none ∧ ∃ m, s.2.oracle (s.2.tick + 1) = .ok m := by
    have hfds : (s.2.close STDOUT_FILENO).2.fds STDERR_FILENO = s.2.fds STDERR_FILENO :=
      Kernel.close_fds_ne (by decide)
    rw [Kernel.close_eq_zero_iff, hfds, Kernel.close_of_eq_zero h]
    rfl
  constructor
  · rintro ⟨h₁, h₂⟩
    obtain ⟨hout, m, hm⟩ := Kernel.close_eq_zero_iff.mp h₁
    obtain ⟨herr, m', hm'⟩ := (hsecond h₁).mp h₂
    refine ⟨hout, herr, fun n hn => ?_⟩
    rcases (show n = 0 ∨ n = 1 by omega) with rfl | rfl
    · exact ⟨m, hm⟩
    · exact ⟨m', hm'⟩
  · rintro ⟨hout, herr, hok⟩
    have h₁ := Kernel.close_eq_zero_iff.mpr ⟨hout, hok 0 (by omega)⟩
    exact ⟨h₁, (hsecond h₁).mpr ⟨herr, hok 1 (by omega)⟩⟩

/-- A `close()` that returns 0 has called `close(2)` twice. -/
theorem close_of_eq_zero {s : World} (h : (close s).1 = 0) :
    (close s).2.2 = ((s.2.close STDOUT_FILENO).2.close STDERR_FILENO).2 := by
  unfold close at h ⊢
  dsimp only at h ⊢
  split at h
  · cases h
  · next h₁ =>
    rw [if_neg h₁]
    split <;> rfl

theorem close_stdout {s : World} (h : (close s).1 = 0) :
    (close s).2.2.fds STDOUT_FILENO = none := by
  have hfirst := Kernel.close_of_eq_zero ((close_eq_zero_iff s).mp h).1
  rw [close_of_eq_zero h]
  refine Kernel.close_fds_none ?_
  rw [hfirst]
  simp

theorem close_stderr {s : World} (h : (close s).1 = 0) :
    (close s).2.2.fds STDERR_FILENO = none := by
  have hsecond := Kernel.close_of_eq_zero ((close_eq_zero_iff s).mp h).2
  rw [close_of_eq_zero h, hsecond]
  simp

/-- Closing again fails: the descriptors are gone. -/
theorem close_of_closed {s : World} (h : s.2.fds STDOUT_FILENO = none) :
    (close s).2.1 = s.1.withErr .ERR_CLOSEFAIL := by
  rcases close_cases s with ⟨_, heq⟩ | ⟨hzero, _⟩
  · exact heq
  · have hopen := (Kernel.close_eq_zero_iff.mp ((close_eq_zero_iff s).mp hzero).1).1
    exact absurd h hopen

theorem close_kept (s : World) : Kept s (close s).2 := by
  -- of the logger only `err` changes
  have hobj : (close s).2.1.outs = s.1.outs ∧ (close s).2.1.errs = s.1.errs := by
    rcases close_cases s with ⟨_, h⟩ | ⟨_, h⟩ <;> rw [h] <;> exact ⟨rfl, rfl⟩
  have hfds (g : Fd) (h : s.2.fds g = none) : (close s).2.2.fds g = none := by
    rcases close_kernel s with hk | hk <;> rw [hk]
    · exact Kernel.close_fds_none h
    · exact Kernel.close_fds_none (Kernel.close_fds_none h)
  obtain ⟨houts, herrs⟩ := hobj
  exact ⟨by rw [houts], by rw [herrs], by rw [houts], by rw [herrs], by rw [houts]; exact id,
    by rw [herrs]; exact id, hfds⟩

end TwoStream

namespace Recorder

variable (R : Recorder)

theorem Kept.trans {s t u : World} (h : Kept s t) (h' : Kept t u) : Kept s u where
  outs_fd := h'.outs_fd.trans h.outs_fd
  errs_fd := h'.errs_fd.trans h.errs_fd
  outs_eof := h'.outs_eof.trans h.outs_eof
  errs_eof := h'.errs_eof.trans h.errs_eof
  outs_good hu := h.outs_good (h'.outs_good hu)
  errs_good hu := h.errs_good (h'.errs_good hu)
  fds g hg := h'.fds g (h.fds g hg)

theorem step_kept (op : Op) (s : World) : Kept s (R.step op s).2 := by
  cases op with
  | log c now =>
    by_cases hpass : s.1.ilevel ≤ c.level
    · rw [R.step_passed hpass]
      exact (R.send_kept _ s).trans (R.settled_kept _)
    · rw [R.step_suppressed hpass]
      exact Kept.refl s
  | level l => exact ⟨rfl, rfl, rfl, rfl, id, id, fun _ => id⟩
  | close => exact close_kept s

/-- A logger whose descriptors are closed writes to no file any more, whatever is done with it. -/
theorem step_files {s : World} (houts : ¬ s.2.isOpen s.1.outs.fd)
    (herrs : ¬ s.2.isOpen s.1.errs.fd) (op : Op) : (R.step op s).2.2.files = s.2.files := by
  cases op with
  | log c now =>
    by_cases hpass : s.1.ilevel ≤ c.level
    · rw [R.step_passed hpass]
      exact R.send_files houts herrs ⟨c, now⟩
    · rw [R.step_suppressed hpass]
  | level l => rfl
  | close =>
    show (close s).2.2.files = s.2.files
    rcases close_kernel s with hk | hk
    · rw [hk, Kernel.close_files]
    · rw [hk, Kernel.close_files, Kernel.close_files]

/-- The number of writes and flushes for an entry. -/
def ops (e : Entry) : Nat := (R.chunks e).length + 1

/-- A call that passes is delivered exactly when its stream can carry it. -/
theorem delivered_step_iff {c : LogCall} {s : World} (h : s.1.ilevel ≤ c.level) (now : Time) :
    Ofstream.Delivered (R.record ⟨c, now⟩) ((port c.level).get s)
        ((port c.level).get (R.step (.log c now) s).2)
      ↔ Ofstream.Clear (R.ops ⟨c, now⟩) ((port c.level).get s) := by
  rw [R.get_step h]
  exact (Ofstream.delivered_send_iff (R.ne_nil _)).trans (Ofstream.send_good_iff (R.ne_nil _))

/-- **A call is lost** exactly when its stream cannot carry it: the stream is not good, its
descriptor not open, or the environment fails one of the writes or the flush. -/
theorem lost_iff {op : Op} {s : World} :
    Lost R.record R.step op s ↔ ¬ Carries R.ops op s := by
  refine ⟨?_, fun h => ?_⟩
  · rintro ⟨c, now, rfl, hpass, hlost⟩ hcarries
    exact hlost ((R.delivered_step_iff hpass now).mpr (hcarries c now rfl hpass))
  · simp only [Carries, not_forall] at h
    obtain ⟨c, now, rfl, hpass, hclear⟩ := h
    exact ⟨c, now, rfl, hpass, fun hdel => hclear ((R.delivered_step_iff hpass now).mp hdel)⟩

/-- Streams do not recover: nothing opens them again, and nothing clears a bit. -/
theorem not_bothGood_step {s : World} (h : ¬ BothGood s) (op : Op) :
    ¬ BothGood (R.step op s).2 := by
  have hkept := R.step_kept op s
  exact fun hgood => h ⟨hkept.outs_good hgood.1, hkept.errs_good hgood.2⟩

/-- After a loss one of the streams is not good. This is what `set_err` sees. -/
theorem not_bothGood_of_lost {op : Op} {s : World} (h : Lost R.record R.step op s) :
    ¬ BothGood (R.step op s).2 := by
  obtain ⟨c, now, rfl, hpass, hlost⟩ := h
  rintro ⟨houts, herrs⟩
  -- the stream of the call is one of the two
  have hgood : ((port c.level).get (R.step (.log c now) s).2).1.good = true := by
    unfold port
    split
    · exact houts
    · exact herrs
  rw [R.get_step hpass] at hlost hgood
  -- a stream that is good after a `send` has delivered
  exact hlost ((Ofstream.delivered_send_iff (R.ne_nil _)).mpr hgood)

end Recorder

end Klog
