import Klogger.Lib.Kernel

/-!
# C++ stream objects on descriptors

`Ofstream` is the stream object: its three state bits, the bytes its buffer still holds, and
the descriptor it is attached to, if any. The operations act on the object and the operating
system together. Once a stream is not good they do nothing, and only a successful `open`
clears a bit.

The environment decides how much of the buffer a write passes on, so every buffering policy is
covered, from none (`std::cerr`) to a full block.
-/

structure Ofstream where
  badbit : Bool
  failbit : Bool
  eofbit : Bool
  buf : Bytes
  fd : Option Fd

/-- How a file is opened; `out` is always set. -/
structure OpenMode where
  app : Bool
  trunc : Bool

instance (k : Kernel) (fd : Option Fd) : Decidable (k.isOpen fd) :=
  decidable_of_iff ((fd.bind k.fds).isSome = true) Option.isSome_iff_exists

namespace Ofstream

/-- The three questions a stream answers about its state bits. `eof` alone is a stream that is not
good and has not failed either. -/
def good (s : Ofstream) : Bool := !s.badbit && !s.failbit && !s.eofbit
def bad (s : Ofstream) : Bool := s.badbit
def fail (s : Ofstream) : Bool := s.badbit || s.failbit

/-- A stream constructed on a null file name: the open fails. -/
def null : Ofstream := ⟨false, true, false, [], none⟩

def attached (fd : Fd) : Ofstream := ⟨false, false, false, [], some fd⟩

def keep (s : Ofstream) (rest : Bytes) : Ofstream := { s with buf := rest }

def setBad (s : Ofstream) : Ofstream := { s with badbit := true }

@[simp] theorem keep_fd (s : Ofstream) (rest : Bytes) : (s.keep rest).fd = s.fd := rfl
@[simp] theorem keep_buf (s : Ofstream) (rest : Bytes) : (s.keep rest).buf = rest := rfl
@[simp] theorem keep_good (s : Ofstream) (rest : Bytes) : (s.keep rest).good = s.good := rfl
@[simp] theorem keep_keep (s : Ofstream) (a b : Bytes) : (s.keep a).keep b = s.keep b := rfl
@[simp] theorem keep_self (s : Ofstream) : s.keep s.buf = s := rfl

@[simp] theorem setBad_good (s : Ofstream) : s.setBad.good = false := rfl

/-- A `write(2)` of the pending bytes that fails after the first `n` of them. The stream is bad
from then on, and its buffer stays as it was: also what did go out is still in it. -/
def fault (pend : Bytes) (n : Nat) (x : Ofstream × Kernel) : Ofstream × Kernel :=
  (x.1.setBad, (x.2.pushTo x.1.fd (pend.take n)).tock 1)

/-- Pass the first `n` of the pending bytes to `write(2)`, keep the rest in the buffer. There
is no system call when nothing is passed on; on a descriptor that is not open it fails. -/
def transfer (pend : Bytes) (n : Nat) (x : Ofstream × Kernel) : Ofstream × Kernel :=
  if pend.take n = [] ∨ x.2.isOpen x.1.fd then
    (x.1.keep (pend.drop n), (x.2.pushTo x.1.fd (pend.take n)).tock 1)
  else fault pend 0 x

/-- Insertion of `b`. A stream that is not good takes nothing; otherwise the environment decides
whether a `write(2)` is due and how it ends. -/
def write (b : Bytes) (x : Ofstream × Kernel) : Ofstream × Kernel :=
  if x.1.good then
    match x.2.oracle x.2.tick with
    | .ok n => transfer (x.1.buf ++ b) n x
    | .fail n => fault (x.1.buf ++ b) n x
  else x

/-- `flush()`: everything pending goes out in one `write(2)`. -/
def flush (x : Ofstream × Kernel) : Ofstream × Kernel :=
  if x.1.good then
    match x.2.oracle x.2.tick with
    | .ok _ => transfer x.1.buf x.1.buf.length x
    | .fail n => fault x.1.buf n x
  else x

/-- `open(path, mode)`. The descriptor is the environment's choice among the unused ones. -/
def openFile (path : PathName) (mode : OpenMode) (x : Ofstream × Kernel) : Ofstream × Kernel :=
  let failed := ({ x.1 with failbit := true }, x.2.tock 1)
  match x.2.oracle x.2.tick with
  | .fail _ => failed
  | .ok fd =>
    if x.1.fd.isSome ∨ x.2.fds fd ≠ none then failed
    else
      let i := x.2.ino path
      (attached fd,
        { x.2 with
          files := if mode.trunc then Function.update x.2.files i [] else x.2.files
          fds := Function.update x.2.fds fd (some ⟨i, mode.app, 0⟩)
          tick := x.2.tick + 1 })

/-- The file stream as an output stream; the state it acts on is the object with the system. -/
def ref : OStream (Ofstream × Kernel) where
  good x := x.1.good
  write := write
  flush := flush

theorem good_iff {s : Ofstream} :
    s.good = true ↔ s.badbit = false ∧ s.failbit = false ∧ s.eofbit = false := by
  simp [good, and_assoc]

/-- A stream that is not good and not at the end of input answers `bad` or `fail`. -/
theorem fail_of_not_good {s : Ofstream} (heof : s.eofbit = false) (h : s.good = false) :
    s.fail = true := by
  simp only [good, heof, Bool.not_false, Bool.and_true, Bool.and_eq_false_iff,
    Bool.not_eq_false'] at h
  simpa [fail] using h

/-- The state bits stick: what is written to a stream that is not good is ignored. -/
theorem sticky_ref : ref.Sticky where
  write_dead b x h := by
    show write b x = x
    unfold write
    rw [if_neg (by simpa [ref] using h)]
  flush_dead x h := by
    show flush x = x
    unfold flush
    rw [if_neg (by simpa [ref] using h)]

/-! ## Opening -/

/-- An `open` that leaves the stream good has taken an unused descriptor. -/
theorem openFile_of_good {path : PathName} {mode : OpenMode} {x : Ofstream × Kernel}
    (h : (openFile path mode x).1.good = true) :
    ∃ fd, x.2.fds fd = none ∧ openFile path mode x = (attached fd,
      { x.2 with
        files := if mode.trunc then Function.update x.2.files (x.2.ino path) [] else x.2.files
        fds := Function.update x.2.fds fd (some ⟨x.2.ino path, mode.app, 0⟩)
        tick := x.2.tick + 1 }) := by
  unfold openFile at h ⊢
  cases ho : x.2.oracle x.2.tick with
  | fail n => simp [ho, good] at h
  | ok fd =>
    simp only [ho] at h ⊢
    split at h
    · -- attached already, or no unused descriptor: the open fails
      simp [good] at h
    · next hfree =>
      rw [if_neg hfree]
      exact ⟨fd, by simpa using (not_or.mp hfree).2, rfl⟩

/-- Opening reads nothing, so it does not reach the end of the input. -/
theorem openFile_eofbit {path : PathName} {mode : OpenMode} {x : Ofstream × Kernel}
    (h : x.1.eofbit = false) : (openFile path mode x).1.eofbit = false := by
  unfold openFile
  cases x.2.oracle x.2.tick with
  | fail n => exact h
  | ok fd =>
    dsimp only
    split
    · exact h
    · rfl

/-! ## What an operation may have done

Whatever the environment decides: the object stays attached to its descriptor, no state bit is
cleared, and the operating system has at most seen one more run of bytes on that descriptor. -/

structure Moved (x y : Ofstream × Kernel) : Prop where
  fd : y.1.fd = x.1.fd
  eof : y.1.eofbit = x.1.eofbit
  fail : y.1.failbit = x.1.failbit
  bad : x.1.badbit = true → y.1.badbit = true
  kernel : ∃ out n, y.2 = (x.2.pushTo x.1.fd out).tock n

namespace Moved

/-- Doing nothing is a case of it, with no bytes and no operation. -/
theorem refl (x : Ofstream × Kernel) : Moved x x :=
  ⟨rfl, rfl, rfl, id, [], 0, by simp⟩

/-- Two operations together have sent one more run of bytes. This is what makes scripts of any
length look like one operation. -/
theorem trans {x y z : Ofstream × Kernel} (h : Moved x y) (h' : Moved y z) : Moved x z := by
  refine ⟨h'.fd.trans h.fd, h'.eof.trans h.eof, h'.fail.trans h.fail, h'.bad ∘ h.bad, ?_⟩
  obtain ⟨a, m, hy⟩ := h.kernel
  obtain ⟨b, n, hz⟩ := h'.kernel
  refine ⟨a ++ b, m + n, ?_⟩
  rw [hz, hy, h.fd, Kernel.tock_pushTo, Kernel.tock_tock, Kernel.pushTo_pushTo]

/-- No operation clears a bit, so what is good afterwards was good before. -/
theorem good_of_good {x y : Ofstream × Kernel} (h : Moved x y) (hy : y.1.good = true) :
    x.1.good = true := by
  rw [good_iff] at hy ⊢
  refine ⟨?_, h.fail ▸ hy.2.1, h.eof ▸ hy.2.2⟩
  by_contra hbad
  have := h.bad (by simpa using hbad)
  rw [hy.1] at this
  exact absurd this (by decide)

/-- No descriptor was opened or closed. -/
theorem fds_eq_none {x y : Ofstream × Kernel} (h : Moved x y) (g : Fd) :
    y.2.fds g = none ↔ x.2.fds g = none := by
  obtain ⟨out, n, hk⟩ := h.kernel
  rw [hk, Kernel.tock_fds, Kernel.pushTo_fds_eq_none]

/-- On a descriptor that is not open nothing was written. -/
theorem files_of_closed {x y : Ofstream × Kernel} (h : Moved x y)
    (hclosed : ¬ x.2.isOpen x.1.fd) : y.2.files = x.2.files := by
  obtain ⟨out, n, hk⟩ := h.kernel
  rw [hk, Kernel.tock_files, Kernel.pushTo_closed hclosed]

end Moved

theorem fault_moved (pend : Bytes) (n : Nat) (x : Ofstream × Kernel) :
    Moved x (fault pend n x) :=
  ⟨rfl, rfl, rfl, fun _ => rfl, _, 1, rfl⟩

/-- A transfer moves, whether it goes well or fails on a closed descriptor. -/
theorem transfer_moved (pend : Bytes) (n : Nat) (x : Ofstream × Kernel) :
    Moved x (transfer pend n x) := by
  unfold transfer
  split
  · exact ⟨rfl, rfl, rfl, id, _, 1, rfl⟩
  · exact fault_moved pend 0 x

theorem write_moved (b : Bytes) (x : Ofstream × Kernel) : Moved x (write b x) := by
  unfold write
  split
  · split
    · exact transfer_moved _ _ x
    · exact fault_moved _ _ x
  · exact Moved.refl x

theorem flush_moved (x : Ofstream × Kernel) : Moved x (flush x) := by
  unfold flush
  split
  · split
    · exact transfer_moved _ _ x
    · exact fault_moved _ _ x
  · exact Moved.refl x

/-- A script moves, by induction on its pieces. -/
theorem emit_moved (cs : List Bytes) (x : Ofstream × Kernel) : Moved x (ref.emit cs x) := by
  induction cs generalizing x with
  | nil => exact Moved.refl x
  | cons c cs ih => exact (write_moved c x).trans (ih (write c x))

theorem send_moved (cs : List Bytes) (x : Ofstream × Kernel) : Moved x (ref.send cs x) :=
  (emit_moved cs x).trans (flush_moved _)

/-! ## What a stream that is still good has done -/

theorem not_good_fault (pend : Bytes) (n : Nat) (x : Ofstream × Kernel) :
    (fault pend n x).1.good = false := rfl

/-- A transfer that leaves the stream good has passed on the first `n` pending bytes. -/
theorem transfer_of_good {pend : Bytes} {n : Nat} {x : Ofstream × Kernel}
    (h : (transfer pend n x).1.good = true) :
    transfer pend n x
        = (x.1.keep (pend.drop n), (x.2.pushTo x.1.fd (pend.take n)).tock 1)
      ∧ (pend.take n ≠ [] → x.2.isOpen x.1.fd) := by
  unfold transfer at h ⊢
  split at h
  · next hcase =>
    rw [if_pos hcase]
    exact ⟨rfl, fun hne => hcase.resolve_left hne⟩
  · simp [not_good_fault] at h

/-- A write that leaves the stream good passed on a first part of the pending bytes and kept
the rest, and the environment let it. -/
theorem write_of_good {b : Bytes} {x : Ofstream × Kernel} (h : (write b x).1.good = true) :
    ∃ out rest, x.1.buf ++ b = out ++ rest
      ∧ write b x = (x.1.keep rest, (x.2.pushTo x.1.fd out).tock 1)
      ∧ (out ≠ [] → x.2.isOpen x.1.fd)
      ∧ ∃ m, x.2.oracle x.2.tick = .ok m := by
  have hgood : x.1.good = true := (write_moved b x).good_of_good h
  unfold write at h ⊢
  rw [if_pos hgood] at h ⊢
  cases horacle : x.2.oracle x.2.tick with
  | fail n => rw [horacle] at h; simp [not_good_fault] at h
  | ok n =>
    rw [horacle] at h
    obtain ⟨heq, hopen⟩ := transfer_of_good h
    exact ⟨_, _, (List.take_append_drop n _).symm, heq, hopen, n, rfl⟩

/-- The same for a script of writes: some first part of everything pending was passed on.
Induction on the script; the buffer is what one piece leaves to the next. -/
theorem emit_of_good {cs : List Bytes} {x : Ofstream × Kernel}
    (h : (ref.emit cs x).1.good = true) :
    ∃ out rest, x.1.buf ++ cs.flatten = out ++ rest
      ∧ ref.emit cs x = (x.1.keep rest, (x.2.pushTo x.1.fd out).tock cs.length)
      ∧ (out ≠ [] → x.2.isOpen x.1.fd)
      ∧ ∀ i < cs.length, ∃ m, x.2.oracle (x.2.tick + i) = .ok m := by
  induction cs generalizing x with
  | nil => exact ⟨[], x.1.buf, by simp, by simp, by simp, by simp⟩
  | cons c cs ih =>
    have hwrite : (write c x).1.good = true := (emit_moved cs (write c x)).good_of_good h
    obtain ⟨o₁, r₁, hsplit₁, heq₁, hopen₁, m₁, horacle₁⟩ := write_of_good hwrite
    obtain ⟨o₂, r₂, hsplit₂, heq₂, hopen₂, horacle₂⟩ := ih h
    -- the rest of the script starts from `r₁` in the buffer and `o₁` on the descriptor
    have hstep : ref.write c x = (x.1.keep r₁, (x.2.pushTo x.1.fd o₁).tock 1) := heq₁
    rw [hstep] at hsplit₂ heq₂ hopen₂ horacle₂
    refine ⟨o₁ ++ o₂, r₂, ?_, ?_, ?_, ?_⟩
    · rw [List.flatten_cons, ← List.append_assoc, hsplit₁, List.append_assoc, List.append_assoc]
      exact congrArg (o₁ ++ ·) hsplit₂
    · rw [OStream.emit_cons, hstep, heq₂]
      simp only [keep_keep, keep_fd]
      rw [Kernel.tock_pushTo, Kernel.tock_tock, Kernel.pushTo_pushTo,
        List.length_cons, Nat.add_comm 1]
    · -- whichever part was not empty found the descriptor open
      intro hne
      by_cases ho : o₁ = []
      · exact Kernel.isOpen_pushTo.mp (hopen₂ (by simpa [ho] using hne))
      · exact hopen₁ ho
    · intro i hi
      cases i with
      | zero => exact ⟨m₁, horacle₁⟩
      | succ i =>
        obtain ⟨m, hm⟩ := horacle₂ i (by simpa using hi)
        refine ⟨m, ?_⟩
        simpa [Nat.add_assoc, Nat.add_comm 1] using hm

/-- **A stream that is good after a `send` has delivered.** Everything that was pending and
everything sent went to the descriptor, in one piece, and the buffer is empty. -/
theorem send_of_good {cs : List Bytes} {x : Ofstream × Kernel}
    (h : (ref.send cs x).1.good = true) :
    ref.send cs x = (x.1.keep [],
        (x.2.pushTo x.1.fd (x.1.buf ++ cs.flatten)).tock (cs.length + 1))
      ∧ (x.1.buf ++ cs.flatten ≠ [] → x.2.isOpen x.1.fd)
      ∧ ∀ i < cs.length + 1, ∃ m, x.2.oracle (x.2.tick + i) = .ok m := by
  have hemit : (ref.emit cs x).1.good = true := (flush_moved _).good_of_good h
  obtain ⟨out, rest, hsplit, heq, hopen, horacle⟩ := emit_of_good hemit
  change (flush (ref.emit cs x)).1.good = true at h
  change flush (ref.emit cs x) = _ ∧ _
  rw [heq] at h hemit ⊢
  unfold flush at h ⊢
  rw [if_pos hemit] at h ⊢
  -- the flush is the operation behind the `cs.length` writes
  cases hlast : x.2.oracle (x.2.tick + cs.length) with
  | fail n => simp [hlast, not_good_fault] at h
  | ok n =>
    simp only [Kernel.tock_oracle, Kernel.pushTo_oracle, Kernel.tock_tick, Kernel.pushTo_tick,
      hlast] at h ⊢
    obtain ⟨hflush, hopen'⟩ := transfer_of_good h
    simp only [List.take_length, List.drop_length] at hflush hopen'
    refine ⟨?_, ?_, ?_⟩
    · rw [hflush, Kernel.tock_pushTo, Kernel.tock_tock, keep_keep, keep_fd, keep_buf,
        Kernel.pushTo_pushTo, hsplit]
    · intro hne
      rw [hsplit] at hne
      by_cases ho : out = []
      · exact Kernel.isOpen_pushTo.mp (hopen' (by simpa [ho] using hne))
      · exact hopen ho
    · intro i hi
      rcases Nat.lt_succ_iff_lt_or_eq.mp hi with hlt | rfl
      · exact horacle i hlt
      · exact ⟨n, hlast⟩

/-! ## When a stream stays good -/

/-- A script of `n` operations can go through: the stream is good, its descriptor open, and
the environment lets each of them pass. -/
def Clear (n : Nat) (x : Ofstream × Kernel) : Prop :=
  x.1.good = true ∧ x.2.isOpen x.1.fd ∧ ∀ i < n, ∃ m, x.2.oracle (x.2.tick + i) = .ok m

/-- On a system that fails nothing, good and open is enough, for scripts of any length. -/
theorem clear_of_faultless {x : Ofstream × Kernel} (hgood : x.1.good = true)
    (hopen : x.2.isOpen x.1.fd) (h : x.2.Faultless) (n : Nat) : Clear n x :=
  ⟨hgood, hopen, fun i _ => h _ (Nat.le_add_right _ i)⟩

theorem Clear.mono {m n : Nat} {x : Ofstream × Kernel} (h : Clear n x) (hmn : m ≤ n) :
    Clear m x :=
  ⟨h.1, h.2.1, fun i hi => h.2.2 i (by omega)⟩

/-- After `m` of the operations have gone through, the others still can. -/
theorem Clear.rest {m n : Nat} {x : Ofstream × Kernel} (h : Clear (m + n) x) (rest out : Bytes) :
    Clear n (x.1.keep rest, (x.2.pushTo x.1.fd out).tock m) := by
  obtain ⟨hgood, hopen, horacle⟩ := h
  refine ⟨hgood, ?_, ?_⟩
  · rw [Kernel.isOpen_tock, keep_fd, Kernel.isOpen_pushTo]
    exact hopen
  · intro i hi
    obtain ⟨k, hk⟩ := horacle (m + i) (by omega)
    refine ⟨k, ?_⟩
    rw [Kernel.tock_oracle, Kernel.pushTo_oracle, Kernel.tock_tick, Kernel.pushTo_tick,
      Nat.add_assoc]
    exact hk

/-- A transfer on an open descriptor never fails by itself; only the environment can make it. -/
theorem transfer_good {x : Ofstream × Kernel} (hgood : x.1.good = true)
    (hopen : x.2.isOpen x.1.fd) (pend : Bytes) (n : Nat) :
    (transfer pend n x).1.good = true := by
  unfold transfer
  rw [if_pos (Or.inr hopen)]
  exact hgood

/-- One operation is enough for one write. -/
theorem write_good {b : Bytes} {x : Ofstream × Kernel} (h : Clear 1 x) :
    (write b x).1.good = true := by
  obtain ⟨n, hn⟩ := h.2.2 0 (by omega)
  unfold write
  rw [if_pos h.1, show x.2.oracle x.2.tick = .ok n from hn]
  exact transfer_good h.1 h.2.1 _ _

theorem flush_good {x : Ofstream × Kernel} (h : Clear 1 x) : (flush x).1.good = true := by
  obtain ⟨n, hn⟩ := h.2.2 0 (by omega)
  unfold flush
  rw [if_pos h.1, show x.2.oracle x.2.tick = .ok n from hn]
  exact transfer_good h.1 h.2.1 _ _

/-- A script needs one operation for each piece. Induction on the script; `Clear.rest` carries the
operations that are left. -/
theorem emit_good {cs : List Bytes} {x : Ofstream × Kernel} (h : Clear cs.length x) :
    (ref.emit cs x).1.good = true := by
  induction cs generalizing x with
  | nil => exact h.1
  | cons c cs ih =>
    rw [List.length_cons, Nat.add_comm] at h
    have hwrite : (write c x).1.good = true := write_good (h.mono (by omega))
    -- what the first write leaves behind is clear for the others
    obtain ⟨out, rest, _, heq, _, _⟩ := write_of_good hwrite
    show (ref.emit cs (write c x)).1.good = true
    rw [heq]
    exact ih (h.rest rest out)

/-- The flush takes the last of them. -/
theorem send_good {cs : List Bytes} {x : Ofstream × Kernel} (h : Clear (cs.length + 1) x) :
    (ref.send cs x).1.good = true := by
  have hemit : (ref.emit cs x).1.good = true := emit_good (h.mono (by omega))
  obtain ⟨out, rest, _, heq, _, _⟩ := emit_of_good hemit
  show (flush (ref.emit cs x)).1.good = true
  rw [heq]
  exact flush_good (h.rest rest out)

/-- **When a `send` of something goes through**: exactly when the stream was good, its
descriptor open, and the environment lets each of the operations pass. -/
theorem send_good_iff {cs : List Bytes} (hne : cs.flatten ≠ []) {x : Ofstream × Kernel} :
    (ref.send cs x).1.good = true ↔ Clear (cs.length + 1) x := by
  refine ⟨fun h => ?_, send_good⟩
  -- the converse is read off what a good `send` has done
  obtain ⟨_, hopen, horacle⟩ := send_of_good h
  exact ⟨(send_moved cs x).good_of_good h, hopen (by simp [hne]), horacle⟩

/-- What a `send` that can go through does, with nothing pending before it. -/
theorem send_of_clear {cs : List Bytes} {x : Ofstream × Kernel} (h : Clear (cs.length + 1) x)
    (hbuf : x.1.buf = []) :
    ref.send cs x = (x.1, (x.2.pushTo x.1.fd cs.flatten).tock (cs.length + 1)) := by
  rw [(send_of_good (send_good h)).1, hbuf, List.nil_append,
    show x.1.keep [] = x.1 from hbuf ▸ keep_self x.1]

/-! ## Delivery -/

/-- Between two states the bytes `rec` were delivered through the stream: the descriptor took
what was pending and then all of `rec`, nothing is left in the buffer, and no operation of
the stream has reported a failure. -/
def Delivered (rec : Bytes) (x y : Ofstream × Kernel) : Prop :=
  ∃ fd, x.1.fd = some fd ∧ y.2.sent fd = x.2.sent fd ++ (x.1.buf ++ rec)
    ∧ y.1.buf = [] ∧ y.1.good = true

/-- A record that is not empty was delivered exactly if the stream is good afterwards: the state
bits tell all there is to know about it. -/
theorem delivered_send_iff {cs : List Bytes} (hne : cs.flatten ≠ []) {x : Ofstream × Kernel} :
    Delivered cs.flatten x (ref.send cs x) ↔ (ref.send cs x).1.good = true := by
  refine ⟨fun ⟨_, _, _, _, hgood⟩ => hgood, fun h => ?_⟩
  · obtain ⟨heq, hopen, _⟩ := send_of_good h
    -- there was something to send, so the descriptor was open
    have hopen := hopen (by simp [hne])
    cases hfd : x.1.fd with
    | none => rw [hfd] at hopen; exact absurd hopen (Kernel.not_isOpen_none _)
    | some fd =>
      rw [hfd, Kernel.isOpen_some] at hopen
      refine ⟨fd, hfd, ?_, by rw [heq]; rfl, h⟩
      rw [heq, hfd]
      exact Kernel.push_sent hopen _

/-! ## What a stream has passed on

Whatever the environment decides, nothing is invented or moved inside a stream: what an operation
passes on is a beginning of what was pending. So the descriptor takes a beginning of what is sent,
and nothing after a failure. -/

/-- The stream is empty unless something has gone wrong with it. -/
def Drained (s : Ofstream) : Prop := s.good = true → s.buf = []

/-- From `x` to `y` a beginning of `pend` was passed on to the descriptor. -/
def PassesOn (pend : Bytes) (x y : Ofstream × Kernel) : Prop :=
  ∃ out m, y.2 = (x.2.pushTo x.1.fd out).tock m ∧ out <+: pend

theorem PassesOn.refl (pend : Bytes) (x : Ofstream × Kernel) : PassesOn pend x x :=
  ⟨[], 0, by simp, List.nil_prefix⟩

/-- Behind an operation that went well and passed on `out`, the beginning is one of the rest. -/
theorem PassesOn.behind {out rest buf : Bytes} {n : Nat} {x y : Ofstream × Kernel}
    (h : PassesOn rest (x.1.keep buf, (x.2.pushTo x.1.fd out).tock n) y) :
    PassesOn (out ++ rest) x y := by
  obtain ⟨more, m, hk, hmore⟩ := h
  refine ⟨out ++ more, n + m, ?_, (List.prefix_append_right_inj out).mpr hmore⟩
  rw [hk, keep_fd, Kernel.tock_pushTo, Kernel.tock_tock, Kernel.pushTo_pushTo]

theorem fault_passes (pend : Bytes) (n : Nat) (x : Ofstream × Kernel) :
    PassesOn pend x (fault pend n x) :=
  ⟨_, 1, rfl, List.take_prefix n pend⟩

/-- Either the first `n` bytes or none. -/
theorem transfer_passes (pend : Bytes) (n : Nat) (x : Ofstream × Kernel) :
    PassesOn pend x (transfer pend n x) := by
  unfold transfer
  split
  · exact ⟨_, 1, rfl, List.take_prefix n pend⟩
  · exact fault_passes pend 0 x

/-- A write passes on a beginning of what was pending and what it was given. -/
theorem write_passes (b : Bytes) (x : Ofstream × Kernel) :
    PassesOn (x.1.buf ++ b) x (write b x) := by
  unfold write
  split
  · split
    · exact transfer_passes _ _ x
    · exact fault_passes _ _ x
  · exact .refl _ x

/-- A flush passes on a beginning of what was pending. -/
theorem flush_passes (x : Ofstream × Kernel) : PassesOn x.1.buf x (flush x) := by
  unfold flush
  split
  · split
    · exact transfer_passes _ _ x
    · exact fault_passes _ _ x
  · exact .refl _ x

/-- What a script passes on is a beginning of all it has to write, also if it fails. Induction on
the script: a piece that goes well leaves its rest to the next one, and the pieces behind a failure
are ignored. -/
theorem emit_passes (cs : List Bytes) (x : Ofstream × Kernel) :
    PassesOn (x.1.buf ++ cs.flatten) x (ref.emit cs x) := by
  induction cs generalizing x with
  | nil => exact .refl _ x
  | cons c cs ih =>
    rw [List.flatten_cons, ← List.append_assoc]
    cases hgood : (write c x).1.good with
    | false =>
      obtain ⟨out, m, hk, hout⟩ := write_passes c x
      -- the pieces behind it are ignored
      have hemit : ref.emit (c :: cs) x = write c x := sticky_ref.emit_dead hgood
      rw [hemit]
      exact ⟨out, m, hk, hout.trans (List.prefix_append _ _)⟩
    | true =>
      obtain ⟨out, rest, hsplit, heq, _, _⟩ := write_of_good hgood
      have hmore := ih (write c x)
      rw [heq] at hmore
      rw [hsplit, List.append_assoc]
      show PassesOn _ x (ref.emit cs (write c x))
      rw [heq]
      exact hmore.behind

/-- **What a `send` adds to the file**: a beginning of what is sent, all of it if the stream is
still good, nothing if it was not good before. -/
theorem send_share {x : Ofstream × Kernel} (h : Drained x.1) (cs : List Bytes) :
    ∃ share m, (ref.send cs x).2 = (x.2.pushTo x.1.fd share).tock m
      ∧ share <+: cs.flatten
      ∧ ((ref.send cs x).1.good = true → share = cs.flatten)
      ∧ (x.1.good = false → share = []) ∧ Drained (ref.send cs x).1 := by
  cases hafter : (ref.send cs x).1.good with
  | true =>
    -- the whole script has gone through
    obtain ⟨heq, _, _⟩ := send_of_good hafter
    have hgood : x.1.good = true := (send_moved cs x).good_of_good hafter
    refine ⟨cs.flatten, cs.length + 1, ?_, List.prefix_rfl, fun _ => rfl, ?_, ?_⟩
    · rw [heq, h hgood, List.nil_append]
    · rw [hgood]
      simp
    · rw [heq]
      exact fun _ => rfl
  | false =>
    have hdrained : Drained (ref.send cs x).1 := by
      intro hgood
      rw [hafter] at hgood
      cases hgood
    cases hgood : x.1.good with
    | false =>
      have hsend : ref.send cs x = x := by
        rw [OStream.send, sticky_ref.emit_dead hgood, sticky_ref.flush_dead x hgood]
      refine ⟨[], 0, ?_, List.nil_prefix, by simp, fun _ => rfl, hdrained⟩
      rw [hsend]
      simp
    | true =>
      cases hmid : (ref.emit cs x).1.good with
      | false =>
        -- the script broke off, and the flush behind it did nothing
        obtain ⟨out, m, hk, hout⟩ := emit_passes cs x
        rw [h hgood, List.nil_append] at hout
        have hsend : ref.send cs x = ref.emit cs x := sticky_ref.flush_dead _ hmid
        refine ⟨out, m, ?_, hout, by simp, by simp, hdrained⟩
        rw [hsend, hk]
      | true =>
        -- the script went through, and the flush of its rest failed
        obtain ⟨out, rest, hsplit, heq, _, _⟩ := emit_of_good hmid
        rw [h hgood, List.nil_append] at hsplit
        have hflush := flush_passes (ref.emit cs x)
        rw [heq] at hflush
        obtain ⟨share, m, hk, hshare⟩ := hflush.behind
        refine ⟨share, m, ?_, hsplit ▸ hshare, by simp, by simp, hdrained⟩
        rw [← hk, ← heq]
        rfl

/-- A flush empties the buffer or leaves the stream bad. -/
theorem drained_send {x : Ofstream × Kernel} (h : Drained x.1) (cs : List Bytes) :
    Drained (ref.send cs x).1 := by
  obtain ⟨_, _, _, _, _, _, hdrained⟩ := send_share h cs
  exact hdrained

theorem send_target (cs : List Bytes) (x : Ofstream × Kernel) (g : Option Fd) :
    (ref.send cs x).2.target g = x.2.target g := by
  obtain ⟨out, n, hk⟩ := (send_moved cs x).kernel
  rw [hk, Kernel.target_tock, Kernel.target_pushTo]

/-- Sending keeps the descriptors in order. -/
theorem send_orderly {x : Ofstream × Kernel} (h : x.2.Orderly) (cs : List Bytes) :
    (ref.send cs x).2.Orderly := by
  obtain ⟨out, n, hk⟩ := (send_moved cs x).kernel
  rw [hk]
  exact (h.pushTo x.1.fd out).tock n

/-- Where every descriptor appends, that share comes at the end of the file the stream is on, and
no other file changes. -/
theorem send_added {x : Ofstream × Kernel} (h : Drained x.1) (ho : x.2.Orderly) {cs : List Bytes}
    (hne : cs.flatten ≠ []) :
    ∃ share, (ref.send cs x).2.files = Kernel.added x.2.files (x.2.target x.1.fd) share
      ∧ share <+: cs.flatten
      ∧ ((ref.send cs x).1.good = true → share = cs.flatten)
      ∧ (x.2.target x.1.fd = none → share = [])
      ∧ (x.1.good = false → share = []) := by
  by_cases hopen : x.2.isOpen x.1.fd
  · obtain ⟨share, m, hk, hshare, hall, hdead, _⟩ := send_share h cs
    refine ⟨share, ?_, hshare, hall, fun hnone => ?_, hdead⟩
    · rw [hk, Kernel.tock_files, ho.pushTo_files]
    · exact absurd hopen (Kernel.target_eq_none.mp hnone)
  · refine ⟨[], ?_, List.nil_prefix, fun hgood => ?_, fun _ => rfl, fun _ => rfl⟩
    · rw [Kernel.added_nil]
      exact (send_moved cs x).files_of_closed hopen
    · -- something had to go to a closed descriptor
      exact absurd ((send_of_good hgood).2.1 (by simp [hne])) hopen

/-! ## One stream and its file -/

/-- An `open` that fails leaves everything as it was, but for the stream. -/
theorem openFile_of_not_good {path : PathName} {mode : OpenMode} {x : Ofstream × Kernel}
    (h : (openFile path mode x).1.good = false) :
    openFile path mode x = ({ x.1 with failbit := true }, x.2.tock 1) := by
  unfold openFile at h ⊢
  cases ho : x.2.oracle x.2.tick with
  | fail n => rfl
  | ok fd =>
    simp only [ho] at h ⊢
    split at h
    · next htaken => rw [if_pos htaken]
    · cases h

/-- The stream writes at the end of the file `i`, which held `base`, and was sent `wanted`: the
file has a beginning of `wanted` now, all of it as long as the stream is good. -/
structure Tracks (base wanted : Bytes) (i : Ino) (x : Ofstream × Kernel) : Prop where
  drained : Drained x.1
  place : ∀ fd, x.1.fd = some fd → x.2.fds fd = none ∨ x.2.AtEnd fd i
  file : ∃ c, c <+: wanted ∧ x.2.files i = base ++ c ∧ (x.1.good = true → c = wanted)

namespace Tracks

variable {base wanted : Bytes} {i : Ino} {x : Ofstream × Kernel} (h : Tracks base wanted i x)

include h

/-- One more script goes to the stream: its file and what was wanted of it grow together, as long as
the stream is good. The cases: the descriptor is open, or somebody has closed it. -/
theorem send (cs : List Bytes) : Tracks base (wanted ++ cs.flatten) i (ref.send cs x) := by
  obtain ⟨share, m, hk, hshare, hall, hnone, hdrained⟩ := send_share h.drained cs
  obtain ⟨c, hc, hfile, hgood⟩ := h.file
  have hfd : (ref.send cs x).1.fd = x.1.fd := (send_moved cs x).fd
  have hbefore : (ref.send cs x).1.good = true → x.1.good = true :=
    (send_moved cs x).good_of_good
  -- with the stream gone bad nothing is added to what came before
  have hsent : c ++ share <+: wanted ++ cs.flatten := by
    cases hg : x.1.good with
    | true =>
      rw [hgood hg]
      exact (List.prefix_append_right_inj wanted).mpr hshare
    | false =>
      rw [hnone hg, List.append_nil]
      exact hc.trans (List.prefix_append wanted _)
  by_cases hopen : x.2.isOpen x.1.fd
  · cases hx : x.1.fd with
    | none =>
      rw [hx] at hopen
      exact absurd hopen (Kernel.not_isOpen_none _)
    | some fd =>
      rw [hx] at hk hopen
      have hend : x.2.AtEnd fd i := (h.place fd hx).resolve_left (Kernel.isOpen_some.mp hopen)
      refine ⟨hdrained, fun g hg => .inr ?_, c ++ share, hsent, ?_, fun hg => ?_⟩
      · rw [hfd, hx] at hg
        obtain rfl := Option.some.inj hg
        rw [hk]
        exact hend.push share
      · rw [hk, Kernel.tock_files]
        show (x.2.push fd share).files i = _
        rw [hend.push_files, Function.update_self, hfile, List.append_assoc]
      · rw [hgood (hbefore hg), hall hg]
  · -- on a closed descriptor nothing arrives, and only an empty script goes well
    have hsame : (ref.send cs x).2.files = x.2.files :=
      (send_moved cs x).files_of_closed hopen
    refine ⟨hdrained, fun g hg => .inl ?_, c, hc.trans (List.prefix_append wanted _), ?_,
      fun hg => ?_⟩
    · rw [hfd] at hg
      rw [hg] at hopen
      exact ((send_moved cs x).fds_eq_none g).mpr (not_not.mp (mt Kernel.isOpen_some.mpr hopen))
    · rw [hsame, hfile]
    · have hempty : x.1.buf ++ cs.flatten = [] := by
        by_contra hne
        exact hopen ((send_of_good hg).2.1 hne)
      rw [(List.append_eq_nil_iff.mp hempty).2, List.append_nil]
      exact hgood (hbefore hg)

/-- What does not touch the file, nor the descriptor except to close it, does not matter. -/
theorem frame {k : Kernel} (hfiles : k.files i = x.2.files i)
    (hfds : ∀ fd, x.1.fd = some fd → k.fds fd = x.2.fds fd ∨ k.fds fd = none) :
    Tracks base wanted i (x.1, k) where
  drained := h.drained
  place fd hfd := by
    rcases hfds fd hfd with hsame | hclosed
    · rcases h.place fd hfd with hnone | ⟨f, hf, hi, hend⟩
      · exact .inl (hsame.trans hnone)
      · exact .inr ⟨f, hsame.trans hf, hi, by rw [hfiles]; exact hend⟩
    · exact .inl hclosed
  file := by
    obtain ⟨c, hc, hfile, hgood⟩ := h.file
    exact ⟨c, hc, hfiles.trans hfile, hgood⟩

/-- A script sent through another stream, to another file, does not matter. -/
theorem frame_send {b w : Bytes} {j : Ino} {o : Ofstream} (ho : Tracks b w j (o, x.2))
    (hij : i ≠ j) (hfd : ∀ fd, x.1.fd = some fd → o.fd ≠ some fd) (cs : List Bytes) :
    Tracks base wanted i (x.1, (ref.send cs (o, x.2)).2) := by
  obtain ⟨share, m, hk, -⟩ := send_share ho.drained cs
  rw [hk]
  cases hoFd : o.fd with
  | none => exact h.frame rfl fun _ _ => .inl rfl
  | some g =>
    rcases ho.place g hoFd with hclosed | hend
    · refine h.frame ?_ fun fd hx => .inl ?_
      · show (x.2.push g share).files i = _
        rw [Kernel.push_closed hclosed]
      · show (x.2.push g share).fds fd = _
        rw [Kernel.push_closed hclosed]
    · refine h.frame ?_ fun fd hx => .inl ?_
      · show (x.2.push g share).files i = _
        rw [hend.push_files, Function.update_of_ne hij]
      · refine Kernel.push_fds_ne x.2 (fun heq => ?_) share
        rw [heq] at hx
        exact hfd g hx hoFd

end Tracks

/-! ## Opening and destroying -/

/-- The file can be opened without disturbing anybody: nobody has it open, or everybody who has
appends to it, and so will the new stream. -/
def Admits (i : Ino) (mode : OpenMode) (k : Kernel) : Prop :=
  ∀ fd f, k.fds fd = some f → f.ino = i →
    f.append = true ∧ mode.app = true ∧ mode.trunc = false

/-- Opening a file that admits it keeps the descriptors in order: the new one appends, or it has
emptied a file that nobody else has open. -/
theorem openFile_orderly {path : PathName} {mode : OpenMode} {x : Ofstream × Kernel}
    (h : x.2.Orderly) (hmode : mode.app = !mode.trunc) (hadmits : Admits (x.2.ino path) mode x.2) :
    (openFile path mode x).2.Orderly := by
  rcases Bool.eq_false_or_eq_true (openFile path mode x).1.good with hgood | hbad
  · obtain ⟨fd, hfree, heq⟩ := openFile_of_good hgood
    rw [heq]
    intro g f hg
    change Function.update x.2.fds fd _ g = some f at hg
    by_cases hfd : g = fd
    · -- the new descriptor
      rw [hfd, Function.update_self] at hg
      obtain rfl := Option.some.inj hg
      -- it appends, or the file is empty now and offset 0 is its end
      cases htrunc : mode.trunc with
      | false => exact .inl (by simp [hmode, htrunc])
      | true =>
        refine .inr ⟨by simp, fun g' f' hg' hi => ?_⟩
        by_contra hne
        rw [hfd] at hne
        change Function.update x.2.fds fd _ g' = some f' at hg'
        rw [Function.update_of_ne hne] at hg'
        exact absurd (hadmits g' f' hg' hi).2.2 (by simp [htrunc])
    · rw [Function.update_of_ne hfd] at hg
      by_cases happ : f.append = true
      · exact .inl happ
      · -- it is alone on its file, so that is not the file opened now
        obtain ⟨hoff, halone⟩ := (h g f hg).resolve_left happ
        have hi : f.ino ≠ x.2.ino path := fun hi => happ (hadmits g f hg hi).1
        refine .inr ⟨?_, fun g' f' hg' hsame => ?_⟩
        · show f.off = ((if mode.trunc then _ else x.2.files) f.ino).length
          cases mode.trunc with
          | true =>
            show f.off = (Function.update x.2.files (x.2.ino path) [] f.ino).length
            rw [Function.update_of_ne hi, hoff]
          | false => exact hoff
        · change Function.update x.2.fds fd _ g' = some f' at hg'
          by_cases hfd' : g' = fd
          · rw [hfd', Function.update_self] at hg'
            obtain rfl := Option.some.inj hg'
            exact absurd hsame.symm hi
          · rw [Function.update_of_ne hfd'] at hg'
            exact halone g' f' hg' hsame
  · rw [openFile_of_not_good hbad]
    exact h

/-- One file opened leaves the other as open to opening as it was, unless they are the same file. -/
theorem Admits.openFile {path : PathName} {mode mode' : OpenMode} {x : Ofstream × Kernel} {i : Ino}
    (h : Admits i mode' x.2)
    (hself : x.2.ino path = i → mode.app = true ∧ mode'.app = true ∧ mode'.trunc = false) :
    Admits i mode' (openFile path mode x).2 := by
  rcases Bool.eq_false_or_eq_true (Ofstream.openFile path mode x).1.good with hgood | hbad
  · obtain ⟨fd, hfree, heq⟩ := openFile_of_good hgood
    rw [heq]
    intro g f hg hi
    change Function.update x.2.fds fd _ g = some f at hg
    by_cases hfd : g = fd
    · rw [hfd, Function.update_self] at hg
      obtain rfl := Option.some.inj hg
      exact hself hi
    · rw [Function.update_of_ne hfd] at hg
      exact h g f hg hi
  · rw [openFile_of_not_good hbad]
    exact h

/-- `~basic_ofstream`: whatever the state bits say, what is in the buffer is written in one
`write(2)`, which may fail like any other, and the descriptor is closed. After a failure the
buffer still has the bytes that went out, so they go out once more. -/
def destroy (x : Ofstream × Kernel) : Kernel :=
  match x.1.fd with
  | none => x.2
  | some fd =>
    if x.1.buf = [] then (x.2.close fd).2
    else
      match x.2.oracle x.2.tick with
      | .ok _ => (((x.2.push fd x.1.buf).tock 1).close fd).2
      | .fail n => (((x.2.push fd (x.1.buf.take n)).tock 1).close fd).2

/-- With nothing pending the destructor only closes the descriptor. -/
theorem destroy_of_empty {x : Ofstream × Kernel} {fd : Fd} (hfd : x.1.fd = some fd)
    (hbuf : x.1.buf = []) : destroy x = (x.2.close fd).2 := by
  unfold destroy
  rw [hfd]
  exact if_pos hbuf

end Ofstream
