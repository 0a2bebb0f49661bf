import Klogger.Sharing

/-!
# Programs and their ledgers

A program opens loggers with `open_logfile` and `open_binlogfile`, uses them, and deletes them, in
any order; the system may give the descriptors of a deleted logger to the next one. `Ledger` says
what that is for: it knows the contents of the files, and which file each logger writes to, and has
no descriptors, offsets or streams. `Ledger.Disciplined` is what a program has to see to for the
ledger to be right.
-/

namespace Klog

open TwoStream

/-- The files of a logger: one for all messages, or a second one for warnings and worse. -/
inductive LogFiles where
  | one (logfile : PathName)
  | two (logfile errfile : PathName)

namespace LogFiles

def outs : LogFiles → PathName
  | one logfile => logfile
  | two logfile _ => logfile

def errs : LogFiles → PathName
  | one logfile => logfile
  | two _ errfile => errfile

end LogFiles

/-- `open_logfile` -/
def openLogfile : LogFiles → Bool → Kernel → World
  | .one logfile, truncate => FileLogger.new logfile truncate
  | .two logfile errfile, truncate => FileLogger.new₂ logfile errfile truncate

/-- `open_binlogfile` -/
def openBinlogfile : LogFiles → Bool → Kernel → World
  | .one logfile, truncate => BinLogger.new logfile truncate
  | .two logfile errfile, truncate => BinLogger.new₂ logfile errfile truncate

def FileBacked.openFiles : FileBacked → LogFiles → Bool → Kernel → World
  | .file => openLogfile
  | .bin => openBinlogfile

/-- The bytes of a record, in the format of the class. -/
def FileBacked.record (host : Host) : FileBacked → Entry → Bytes
  | .file => textOf host
  | .bin => BinLogger.tlvOf host

/-- `~FileLogger`, `~BinLogger`: the members are destroyed in the reverse order of their
declaration. A logger that is `Ready` has nothing left in its buffers, so all that happens is two
calls of `close(2)`. -/
def TwoStream.destroy (t : TwoStream) (k : Kernel) : Kernel :=
  Ofstream.destroy (t.outs, Ofstream.destroy (t.errs, k))

/-- The loggers a program has, and the system. -/
structure Program (ι : Type) where
  objects : ι → Option (FileBacked × TwoStream)
  k : Kernel

/-- What a program does: open a logger, delete one, or call a method. -/
inductive ProgramOp (ι : Type) where
  | create (i : ι) (c : FileBacked) (l : LogFiles) (truncate : Bool)
  | delete (i : ι)
  | call (i : ι) (op : Op)

/-- The files a program has written, and what it can write to. -/
structure Handle where
  backend : FileBacked
  threshold : Level
  outs : Ino
  errs : Ino
  truncated : Bool

def Handle.file (h : Handle) (b : Bool) : Ino := if b then h.outs else h.errs

/-- Contents and handles; this is all there is to know about a disciplined program. -/
structure Ledger (ι : Type) where
  contents : Ino → Bytes
  handles : ι → Option Handle

section Step

variable {ι : Type} [DecidableEq ι] (host : Host)

/-- One operation of the program. What is done with a logger that is not there is nothing. -/
def Program.step : ProgramOp ι → Program ι → ControlFlow × Program ι
  | .create i c l truncate, s =>
    let w := c.openFiles l truncate s.k
    (.returned, ⟨Function.update s.objects i (some (c, w.1)), w.2⟩)
  | .delete i, s =>
    match s.objects i with
    | none => (.returned, s)
    | some o => (.returned, ⟨Function.update s.objects i none, o.2.destroy s.k⟩)
  | .call i op, s =>
    match s.objects i with
    | none => (.returned, s)
    | some o =>
      let r := (o.1.vtable host).step op (o.2, s.k)
      (r.1, ⟨Function.update s.objects i (some (o.1, r.2.1)), r.2.2⟩)

/-- The same in terms of files: opening may empty, a call that passes adds a record, and deleting
only forgets. -/
def Ledger.step (ino : PathName → Ino) : ProgramOp ι → Ledger ι → ControlFlow × Ledger ι
  | .create i c l truncate, a =>
    (.returned, {
      contents :=
        if truncate then
          Function.update (Function.update a.contents (ino l.outs) []) (ino l.errs) []
        else a.contents
      handles := Function.update a.handles i
        (some ⟨c, DEFAULT_LEVEL, ino l.outs, ino l.errs, truncate⟩) })
  | .delete i, a => (.returned, { a with handles := Function.update a.handles i none })
  | .call i op, a =>
    match a.handles i with
    | none => (.returned, a)
    | some h =>
      match op with
      | .log c now =>
        if h.threshold ≤ c.level then
          let i := h.file c.level.toOuts
          (c.flow, { a with
            contents := Function.update a.contents i
              (a.contents i ++ h.backend.record host ⟨c, now⟩) })
        else (.returned, a)
      | .level l =>
        (.returned, { a with
          handles := Function.update a.handles i (some { h with threshold := l }) })
      | .close => (.returned, a)

end Step

/-- What a program has to see to: it uses no logger that it does not have, and does not open over
one it has; it calls no `close()`. It empties files only in a logger with two files that no logger
is on; and it opens no file that a logger has emptied and is still on. Files that were open in the
beginning (`k₀`) it leaves alone. -/
def Ledger.Disciplined {ι : Type} (k₀ : Kernel) (o : ProgramOp ι) (a : Ledger ι) : Prop :=
  match o with
  | .create i _ l truncate =>
    a.handles i = none
      ∧ (∀ fd f, k₀.fds fd = some f → f.ino ≠ k₀.ino l.outs ∧ f.ino ≠ k₀.ino l.errs)
      ∧ (truncate = true → k₀.ino l.outs ≠ k₀.ino l.errs)
      ∧ ∀ j h, a.handles j = some h → truncate = true ∨ h.truncated = true →
        ∀ b, h.file b ≠ k₀.ino l.outs ∧ h.file b ≠ k₀.ino l.errs
  | .delete i => a.handles i ≠ none
  | .call i op => a.handles i ≠ none ∧ op ≠ .close

/-- If the operation opens a logger, the logger is healthy. -/
def Program.Opened {ι : Type} (o : ProgramOp ι) (s : Program ι) : Prop :=
  ∀ i c l truncate, o = .create i c l truncate →
    (c.openFiles l truncate s.k).1.err = .HEALTHY

theorem FileBacked.record_recorder (host : Host) (c : FileBacked) :
    (c.recorder host).record = c.record host := by
  cases c with
  | file => exact record_textRecorder host
  | bin => exact BinLogger.record_recorder host

/-! ## One logger -/

/-- The logger is ready to write to the files of the handle. -/
structure Ready (k : Kernel) (o : FileBacked × TwoStream) (h : Handle) : Prop where
  backend : o.1 = h.backend
  threshold : o.2.ilevel = h.threshold
  healthy : o.2.err = .HEALTHY
  good : ∀ b, (o.2.stream b).good = true
  buf : ∀ b, (o.2.stream b).buf = []
  place : ∀ b, ∃ fd f, (o.2.stream b).fd = some fd ∧ k.fds fd = some f ∧ f.ino = h.file b
    ∧ f.append = !h.truncated

theorem openFiles_two (c : FileBacked) (logfile errfile : PathName) (truncate : Bool) :
    c.openFiles (.two logfile errfile) truncate
      = construct logfile ⟨!truncate, truncate⟩ errfile ⟨!truncate, truncate⟩ := by
  cases c <;> cases truncate <;> rfl

/-- The constructors open both files in the same mode, unless they empty the only one. -/
theorem openFiles_eq (c : FileBacked) {l : LogFiles} {truncate : Bool}
    (h : truncate = true → l.outs ≠ l.errs) :
    c.openFiles l truncate
      = construct l.outs ⟨!truncate, truncate⟩ l.errs ⟨!truncate, truncate⟩ := by
  cases truncate with
  | false => cases c <;> cases l <;> rfl
  | true =>
    cases l with
    | one logfile => exact absurd rfl (h rfl)
    | two logfile errfile => exact openFiles_two c logfile errfile true

/-- Descriptors are in order after two opens if both files admit it, and one file is not emptied
twice. -/
theorem construct_orderly {p q : PathName} {m : OpenMode} (hm : m.app = !m.trunc) {k : Kernel}
    (h : k.Orderly) (hp : Ofstream.Admits (k.ino p) m k) (hq : Ofstream.Admits (k.ino q) m k)
    (hpq : k.ino p = k.ino q → m.trunc = false) : (construct p m q m k).2.Orderly := by
  have hfirst : (Ofstream.openFile p m (Ofstream.null, k)).2.Orderly :=
    Ofstream.openFile_orderly h hm hp
  refine Ofstream.openFile_orderly (x := (Ofstream.null, _)) hfirst hm ?_
  show Ofstream.Admits ((Ofstream.openFile p m (Ofstream.null, k)).2.ino q) m _
  rw [ino_openFile]
  -- the second file may be the first one, opened to append
  refine hq.openFile fun hsame => ?_
  rw [hm, hpq hsame]
  exact ⟨rfl, rfl, rfl⟩

/-- A healthy logger has taken two descriptors that were free. -/
theorem construct_free {p q : PathName} {m n : OpenMode} {k : Kernel}
    (h : (construct p m q n k).1.err = .HEALTHY) :
    ∃ fd₁ fd₂, fd₁ ≠ fd₂ ∧ k.fds fd₁ = none ∧ k.fds fd₂ = none ∧ construct p m q n k =
      (⟨.attached fd₁, .attached fd₂, DEFAULT_LEVEL, .HEALTHY⟩,
        { k with
          files :=
            let files := if m.trunc then Function.update k.files (k.ino p) [] else k.files
            if n.trunc then Function.update files (k.ino q) [] else files
          fds := Function.update (Function.update k.fds fd₁ (some ⟨k.ino p, m.app, 0⟩)) fd₂
            (some ⟨k.ino q, n.app, 0⟩)
          tick := k.tick + 2 }) := by
  obtain ⟨fd₁, fd₂, hne, heq⟩ := construct_healthy h
  obtain ⟨houts, herrs⟩ := bothGood_construct_iff.mp h
  obtain ⟨g₁, hfree₁, heq₁⟩ := Ofstream.openFile_of_good houts
  obtain ⟨g₂, hfree₂, heq₂⟩ := Ofstream.openFile_of_good herrs
  have hg₁ : some g₁ = some fd₁ := by
    have houts : (construct p m q n k).1.outs = .attached g₁ := congrArg Prod.fst heq₁
    rw [heq] at houts
    exact (congrArg Ofstream.fd houts).symm
  have hg₂ : some g₂ = some fd₂ := by
    have herrs : (construct p m q n k).1.errs = .attached g₂ := congrArg Prod.fst heq₂
    rw [heq] at herrs
    exact (congrArg Ofstream.fd herrs).symm
  obtain rfl := Option.some.inj hg₁
  obtain rfl := Option.some.inj hg₂
  refine ⟨g₁, g₂, hne, hfree₁, ?_, heq⟩
  rw [heq₁] at hfree₂
  exact (Function.update_of_ne hne.symm _ _).symm.trans hfree₂

/-- What descriptors are open on, and in which mode, is all that matters. -/
theorem Ready.frame {k k' : Kernel} {o : FileBacked × TwoStream} {h : Handle} (hr : Ready k o h)
    (hfds : ∀ b fd, (o.2.stream b).fd = some fd →
      (k'.fds fd).map (fun f => (f.ino, f.append)) = (k.fds fd).map fun f => (f.ino, f.append)) :
    Ready k' o h := by
  refine ⟨hr.backend, hr.threshold, hr.healthy, hr.good, hr.buf, fun b => ?_⟩
  obtain ⟨fd, f, hfd, hf, hino, happ⟩ := hr.place b
  have hsame := hfds b fd hfd
  rw [hf, Option.map_some, Option.map_eq_some_iff] at hsame
  -- the descriptor is open on the same file in the same mode, maybe at another offset
  obtain ⟨f', hf', heq⟩ := hsame
  obtain ⟨hi, ha⟩ := Prod.mk.inj heq
  exact ⟨fd, f', hfd, hf', hi.trans hino, ha.trans happ⟩

/-- A call leaves a logger healthy whose streams are good. -/
theorem Ready.settle {k : Kernel} {o : FileBacked × TwoStream} {h : Handle} (hr : Ready k o h)
    (host : Host) : (o.1.recorder host).settle o.2 = .HEALTHY := by
  cases ho : o.1 with
  | file => exact hr.healthy
  | bin =>
    have houts : o.2.outs.good = true := hr.good true
    have herrs : o.2.errs.good = true := hr.good false
    show (BinLogger.setErr o.2).err = .HEALTHY
    rw [BinLogger.setErr, houts, herrs]
    rfl

/-- A logger that is ready writes a record in one push to the end of a file. -/
theorem Ready.send {k : Kernel} {o : FileBacked × TwoStream} {h : Handle} (hr : Ready k o h)
    (hk : k.Faultless) (horderly : k.Orderly) (host : Host) (e : Entry) :
    ∃ fd n, (o.2.stream e.call.level.toOuts).fd = some fd
      ∧ (o.1.recorder host).send e (o.2, k)
        = (o.2, (k.push fd (h.backend.record host e)).tock n)
      ∧ (k.push fd (h.backend.record host e)).files
        = Function.update k.files (h.file e.call.level.toOuts)
            (k.files (h.file e.call.level.toOuts) ++ h.backend.record host e) := by
  obtain ⟨fd₁, f₁, hfd₁, hf₁, hino₁, _⟩ := hr.place true
  obtain ⟨fd₂, f₂, hfd₂, hf₂, hino₂, _⟩ := hr.place false
  -- a logger that is ready on a system that fails nothing is `Running`
  have hrunning : Running fd₁ fd₂ (o.2, k) := {
    outs_good := hr.good true
    outs_buf := hr.buf true
    outs_fd := hfd₁
    outs_open := by simp [hf₁]
    errs_good := hr.good false
    errs_buf := hr.buf false
    errs_fd := hfd₂
    errs_open := by simp [hf₂]
    faultless := hk }
  have hrecord : (o.1.recorder host).record = h.backend.record host := by
    rw [FileBacked.record_recorder, hr.backend]
  have hsend := send_running hrunning (o.1.recorder host) e
  rw [hrecord] at hsend
  refine ⟨_, _, ?_, hsend, ?_⟩ <;> cases hout : e.call.level.toOuts
  · rw [fdFor_errs hout, hfd₂]
  · rw [fdFor_outs hout, hfd₁]
  · rw [fdFor_errs hout, (horderly.atEnd hf₂).push_files, hino₂]
  · rw [fdFor_outs hout, (horderly.atEnd hf₁).push_files, hino₁]

end Klog
