import Klogger.Health

/-!
# Several loggers in one process

Any number of `FileLogger` and `BinLogger` objects and a `ConsoleLogger` share the descriptors
of a process. `close()` of a file-backed logger closes the standard descriptors and none of
its own: whenever it returns 0, it has done something else than to close its files
(`close_frames_iff`). What it has done instead is to leave its own streams as they were
(`close_isOpen_iff`) and to silence the console for the rest of the run (`console_silenced`).
-/

namespace Klog

open TwoStream

/-- Which of the two classes a logger is of. -/
inductive FileBacked where
  | file
  | bin
  deriving DecidableEq

/-- The virtual functions of the class. -/
def FileBacked.vtable (host : Host) : FileBacked → Logger World
  | .file => fileLogger host
  | .bin => binLogger host

def FileBacked.recorder (host : Host) : FileBacked → Recorder
  | .file => textRecorder host
  | .bin => BinLogger.recorder host

/-- The file-backed loggers of a process, its console logger, and its descriptors. -/
structure Process (ι : Type) where
  loggers : ι → FileBacked × TwoStream
  console : TwoStream
  k : Kernel

/-- An operation on one of the loggers. -/
inductive ProcessOp (ι : Type) where
  | fileBacked (i : ι) (op : Op)
  | console (op : Op)

namespace Process

variable {ι : Type} [DecidableEq ι] (host : Host)

def world (i : ι) (p : Process ι) : World := ((p.loggers i).2, p.k)

/-- One operation: the logger it is for changes, and the system, which all of them share. -/
def step : ProcessOp ι → Process ι → ControlFlow × Process ι
  | .fileBacked i op, p =>
    let r := ((p.loggers i).1.vtable host).step op (p.world i)
    (r.1, { p with
      loggers := Function.update p.loggers i ((p.loggers i).1, r.2.1)
      k := r.2.2 })
  | .console op, p =>
    let r := (consoleLogger host).step op (p.console, p.k)
    (r.1, { p with console := r.2.1, k := r.2.2 })

omit [DecidableEq ι] in
theorem vtable_close (i : ι) (p : Process ι) :
    ((p.loggers i).1.vtable host).close = TwoStream.close := by
  cases (p.loggers i).1 <;> rfl

theorem vtable_step (c : FileBacked) : (c.vtable host).step = (c.recorder host).step := by
  cases c
  · exact fileLogger_step host
  · exact binLogger_step host

theorem step_close_k (i : ι) (p : Process ι) :
    (step host (.fileBacked i .close) p).2.k = (TwoStream.close (p.world i)).2.2 := by
  rw [← vtable_close host i p]
  rfl

/-- Whatever is done with the loggers, every stream stays attached to its descriptor, and no
descriptor is opened. -/
structure Kept (p q : Process ι) : Prop where
  console_outs : q.console.outs.fd = p.console.outs.fd
  console_errs : q.console.errs.fd = p.console.errs.fd
  outs : ∀ j, (q.loggers j).2.outs.fd = (p.loggers j).2.outs.fd
  errs : ∀ j, (q.loggers j).2.errs.fd = (p.loggers j).2.errs.fd
  fds : ∀ g, p.k.fds g = none → q.k.fds g = none

/-- Each operation keeps what the methods of a single logger keep. Two cases: the logger it is for,
and the others. -/
theorem step_kept (op : ProcessOp ι) (p : Process ι) : Kept p (step host op p).2 := by
  cases op with
  | fileBacked i op =>
    have hkept := ((p.loggers i).1.recorder host).step_kept op (p.world i)
    rw [← vtable_step] at hkept
    -- of the objects only `i` is replaced
    refine ⟨rfl, rfl, fun j => ?_, fun j => ?_, hkept.fds⟩
    · show (Function.update p.loggers i _ j).2.outs.fd = _
      by_cases hj : j = i
      · rw [hj, Function.update_self]
        exact hkept.outs_fd
      · rw [Function.update_of_ne hj]
    · show (Function.update p.loggers i _ j).2.errs.fd = _
      by_cases hj : j = i
      · rw [hj, Function.update_self]
        exact hkept.errs_fd
      · rw [Function.update_of_ne hj]
  | console op =>
    have hkept := (textRecorder host).step_kept op (p.console, p.k)
    rw [← consoleLogger_step] at hkept
    exact ⟨hkept.outs_fd, hkept.errs_fd, fun _ => rfl, fun _ => rfl, hkept.fds⟩

omit [DecidableEq ι] in
theorem Kept.not_isOpen {p q : Process ι} (h : Kept p q) {fd : Option Fd}
    (hfd : ¬ p.k.isOpen fd) : ¬ q.k.isOpen fd := by
  cases fd with
  | none => exact Kernel.not_isOpen_none _
  | some fd =>
    rw [Kernel.isOpen_some, not_not] at hfd ⊢
    exact h.fds fd hfd

/-! ## What `close()` is for -/

/-- A `close()` of logger `i` that returns 0. -/
def Closes (i : ι) (op : ProcessOp ι) (p : Process ι) : Prop :=
  op = .fileBacked i .close ∧ (((p.loggers i).1.vtable host).close (p.world i)).1 = 0

/-- Both streams of logger `i` are on closed descriptors, or on none. -/
def StreamsClosed (i : ι) (p : Process ι) : Prop :=
  ¬ p.k.isOpen (p.loggers i).2.outs.fd ∧ ¬ p.k.isOpen (p.loggers i).2.errs.fd

/-- The process got from `p` to `q` by closing the two streams of logger `i`, with the standard
descriptors and the streams of all other loggers left as they were. -/
def ClosesOwn (i : ι) (p q : Process ι) : Prop :=
  StreamsClosed i q
    ∧ (q.k.fds STDOUT_FILENO = none ↔ p.k.fds STDOUT_FILENO = none)
    ∧ (q.k.fds STDERR_FILENO = none ↔ p.k.fds STDERR_FILENO = none)
    ∧ ∀ j, j ≠ i →
      (q.k.isOpen (p.loggers j).2.outs.fd ↔ p.k.isOpen (p.loggers j).2.outs.fd)
        ∧ (q.k.isOpen (p.loggers j).2.errs.fd ↔ p.k.isOpen (p.loggers j).2.errs.fd)

/-- If the operation is one of logger `i`, no file changes. -/
def AddsNothing (i : ι) (op : ProcessOp ι) (p : Process ι) : Prop :=
  ∀ o, op = .fileBacked i o → (step host op p).2.k.files = p.k.files

/-- Throughout the run, a `close()` of a file-backed logger that returns 0 closes what that
logger owns and nothing else, and the logger adds nothing to a file from then on. -/
def CloseFrames (ops : List (ProcessOp ι)) (p : Process ι) : Prop :=
  ∀ i,
    Run.Along (step host) (fun op q => Closes host i op q → ClosesOwn i q (step host op q).2)
        ops p
      ∧ Run.OnceAlong (step host) (Closes host i) (AddsNothing host i) ops p

/-- No operation of any logger opens them again. -/
theorem StreamsClosed.step {i : ι} {p : Process ι} (h : StreamsClosed i p) (op : ProcessOp ι) :
    StreamsClosed i (step host op p).2 := by
  have hkept := step_kept host op p
  rw [StreamsClosed, hkept.outs, hkept.errs]
  exact ⟨hkept.not_isOpen h.1, hkept.not_isOpen h.2⟩

/-- A logger with closed streams adds nothing to any file, whatever else is done. -/
theorem StreamsClosed.addsNothing {i : ι} {p : Process ι} (h : StreamsClosed i p)
    (ops : List (ProcessOp ι)) : Run.Along (Process.step host) (AddsNothing host i) ops p := by
  rintro pre _ post _ _ o rfl
  have hclosed : StreamsClosed i (Run.exec (Process.step host) pre p).2 :=
    Run.exec_invariant (P := fun _ => True) (fun op q _ hq => hq.step host op) (by simp) h
  show ((((Run.exec (Process.step host) pre p).2.loggers i).1.vtable host).step o _).2.2.files = _
  rw [vtable_step]
  exact Recorder.step_files _ hclosed.1 hclosed.2 o

/-- To add nothing from then on, it is enough that the streams are closed. -/
theorem closeFrames_of_along {ops : List (ProcessOp ι)} {p : Process ι}
    (h : ∀ i, Run.Along (step host)
      (fun op q => Closes host i op q → ClosesOwn i q (step host op q).2) ops p) :
    CloseFrames host ops p := by
  refine fun i => ⟨h i, ?_⟩
  intro pre op mid op' post hsplit hpre hcloses hmid
  obtain ⟨hclosed, _⟩ := h i pre op (mid ++ op' :: post) hsplit hpre hcloses
  -- `close()` returns, so the run goes on behind it
  have hop : (step host op (Run.exec (step host) pre p).2).1 = .returned := by
    rw [hcloses.1]
    rfl
  rw [Run.exec_append_cons hpre hop] at hmid ⊢
  exact hclosed.addsNothing host (mid ++ op' :: post) mid op' post rfl hmid

/-- If the operation is a `close()` of a file-backed logger, one of the standard descriptors is
not open, or the system refuses to close it. -/
def StandardStays (op : ProcessOp ι) (p : Process ι) : Prop :=
  ∀ i : ι, op = .fileBacked i .close → ¬ Closable p.k

/-- One operation: a `close()` that returns 0 has never done what it is for. -/
theorem standardStays_iff (op : ProcessOp ι) (p : Process ι) :
    StandardStays op p ↔ ∀ i, Closes host i op p → ClosesOwn i p (step host op p).2 := by
  constructor
  · rintro h i ⟨rfl, hzero⟩
    rw [vtable_close, close_eq_zero_iff_closable] at hzero
    exact absurd hzero (h i rfl)
  · rintro h i rfl hclosable
    have hzero : (TwoStream.close (p.world i)).1 = 0 :=
      (close_eq_zero_iff_closable _).mpr hclosable
    -- standard output was open and is closed
    obtain ⟨_, hout, _⟩ := h i ⟨rfl, by rw [vtable_close]; exact hzero⟩
    rw [step_close_k, close_stdout hzero] at hout
    exact hclosable.1 (hout.mp rfl)

/-- **When closing a file-backed logger closes its own files and nothing else**: in the runs in
which no such `close()` gets to close the standard descriptors, so that none returns 0. -/
theorem close_frames_iff (ops : List (ProcessOp ι)) (p : Process ι) :
    CloseFrames host ops p ↔ Run.Along (step host) StandardStays ops p := by
  refine ⟨fun h pre op post hsplit hpre => ?_, fun h => ?_⟩
  · exact (standardStays_iff host op _).mpr fun i => (h i).1 pre op post hsplit hpre
  · -- the second half of `CloseFrames` follows from the first
    refine closeFrames_of_along host fun i pre op post hsplit hpre => ?_
    exact (standardStays_iff host op _).mp (h pre op post hsplit hpre) i

def consoleAndFile : Process Unit :=
  let f := FileLogger.new₂ [0x61] [0x62, 0x62] false calm
  { loggers := fun _ => (.file, f.1)
    console := (ConsoleLogger.new (.attached STDOUT_FILENO) (.attached STDERR_FILENO) f.2).1
    k := f.2 }

/-- Close the file logger, and send a message to either logger. -/
def closeThenLog : List (ProcessOp Unit) :=
  [.fileBacked () .close,
    .fileBacked () (.log (.infoPlain (ascii "main") (ascii "starts")) noon),
    .console (.log (.infoPlain (ascii "main") (ascii "starts")) noon)]

/-- The `close()` returns 0. The message for the closed file logger arrives in its file, and
the one for the console does not arrive. -/
theorem closeThenLog_hits_console :
    let q := (Run.exec (step utc) closeThenLog consoleAndFile).2
    ((fileLogger utc).close (consoleAndFile.world ())).1 = 0
      ∧ q.k.files 1 = ascii "[2016-03-18T12:36:11+0000] [INFO] [actor:main event:starts]\n"
      ∧ q.k.sent STDOUT_FILENO = []
      ∧ ¬ CloseFrames utc closeThenLog consoleAndFile := by
  refine ⟨by decide +kernel, by decide +kernel, by decide +kernel, ?_⟩
  intro h
  obtain ⟨_, hout, _⟩ := (h ()).1 [] _ _ rfl rfl ⟨rfl, by decide +kernel⟩
  revert hout
  decide +kernel

/-! ## What it does instead -/

/-- `close()` leaves all descriptors alone but the two standard ones. -/
theorem close_fds_ne {s : World} {g : Fd} (h₁ : g ≠ STDOUT_FILENO) (h₂ : g ≠ STDERR_FILENO) :
    (TwoStream.close s).2.2.fds g = s.2.fds g := by
  rcases close_kernel s with hk | hk <;> rw [hk]
  · exact Kernel.close_fds_ne h₁
  · rw [Kernel.close_fds_ne h₂, Kernel.close_fds_ne h₁]

/-- Every stream on another descriptor is as open after `close()` as it was before. -/
theorem close_isOpen_iff (i : ι) (p : Process ι) {g : Fd} (h₁ : g ≠ STDOUT_FILENO)
    (h₂ : g ≠ STDERR_FILENO) :
    (step host (.fileBacked i .close) p).2.k.isOpen (some g) ↔ p.k.isOpen (some g) := by
  have hfds : (TwoStream.close (p.world i)).2.2.fds g = p.k.fds g := close_fds_ne h₁ h₂
  rw [step_close_k, Kernel.isOpen_some, Kernel.isOpen_some, hfds]

/-- The console logger writes to the standard descriptors, and these are closed. -/
def Silenced (p : Process ι) : Prop :=
  p.console.outs.fd = some STDOUT_FILENO ∧ p.console.errs.fd = some STDERR_FILENO
    ∧ p.k.fds STDOUT_FILENO = none ∧ p.k.fds STDERR_FILENO = none

theorem Silenced.step {p : Process ι} (h : Silenced p) (op : ProcessOp ι) :
    Silenced (step host op p).2 := by
  obtain ⟨houts, herrs, hout, herr⟩ := h
  have hkept := step_kept host op p
  exact ⟨hkept.console_outs.trans houts, hkept.console_errs.trans herrs, hkept.fds _ hout,
    hkept.fds _ herr⟩

/-- **The console falls silent.** After a `close()` of a file-backed logger that returned 0,
every message for the console that passes its threshold is lost. -/
theorem console_silenced (i : ι) {p : Process ι} (houts : p.console.outs.fd = some STDOUT_FILENO)
    (herrs : p.console.errs.fd = some STDERR_FILENO)
    (hzero : (((p.loggers i).1.vtable host).close (p.world i)).1 = 0)
    (ops : List (ProcessOp ι)) :
    Run.Along (step host) (fun op q => ∀ o, op = .console o → Passes o (q.console, q.k) →
        Lost (textOf host) (consoleLogger host).step o (q.console, q.k)) ops
      (step host (.fileBacked i .close) p).2 := by
  rw [vtable_close] at hzero
  have hsilenced : Silenced (step host (.fileBacked i .close) p).2 := by
    refine ⟨houts, herrs, ?_, ?_⟩ <;> rw [step_close_k]
    · exact close_stdout hzero
    · exact close_stderr hzero
  intro pre op post _ _ o hop hpass
  obtain ⟨c, now, rfl, hpass⟩ := hpass
  obtain ⟨houts', herrs', hout, herr⟩ : Silenced (Run.exec (step host) pre _).2 :=
    Run.exec_invariant (P := fun _ => True) (fun o q _ hq => hq.step host o) (by simp) hsilenced
  rw [consoleLogger_step, ← record_textRecorder, Recorder.lost_iff]
  intro hcarries
  obtain ⟨_, hopen, _⟩ := hcarries c now rfl hpass
  unfold port at hopen
  -- either stream of the console finds its descriptor closed
  cases hlevel : c.level.toOuts with
  | true =>
    rw [hlevel, if_pos rfl] at hopen
    exact Kernel.isOpen_some.mp (houts' ▸ hopen) hout
  | false =>
    rw [hlevel, if_neg (by decide)] at hopen
    exact Kernel.isOpen_some.mp (herrs' ▸ hopen) herr

end Process

end Klog
