import Klogger.Ledger

/-!
# Closing and opening again

`close()` of a file-backed logger frees the standard descriptors, and the next `open` takes the
lowest free ones. So the console, which goes on writing to the standard descriptors, writes to the
file of the next logger, until somebody calls `close()` again (`Process.console_redirected`).
-/

namespace Klog

open TwoStream

namespace Process

variable {ι : Type} [DecidableEq ι] (host : Host)

/-- Close logger `i`, and put a logger opened on one file in its place. -/
def reopen (i : ι) (c : FileBacked) (logfile : PathName) (p : Process ι) : Process ι :=
  let q := (step host (.fileBacked i .close) p).2
  let w := c.openFiles (.one logfile) false q.k
  { q with loggers := Function.update q.loggers i (c, w.1), k := w.2 }

section Reopen

variable {host} {p : Process ι} {i : ι} {c : FileBacked} {logfile : PathName}

/-- The console writes to the standard descriptors, and no other logger does. -/
structure OnTerminal (p : Process ι) : Prop where
  outs : p.console.outs.fd = some STDOUT_FILENO
  errs : p.console.errs.fd = some STDERR_FILENO
  others : ∀ j b fd, (p.stream (.fileBacked j, b)).fd = some fd →
    fd ≠ STDOUT_FILENO ∧ fd ≠ STDERR_FILENO

omit [DecidableEq ι] in
/-- Both standard descriptors are open, and closing them does not fail. -/
theorem closable_of_sound (hsound : Sound p) (hterm : OnTerminal p) : Closable p.k := by
  have hout := hsound.isOpen (.console, true)
  have herr := hsound.isOpen (.console, false)
  rw [show (p.stream (.console, true)).fd = _ from hterm.outs, Kernel.isOpen_some] at hout
  rw [show (p.stream (.console, false)).fd = _ from hterm.errs, Kernel.isOpen_some] at herr
  exact ⟨hout, herr, fun n _ => hsound.faultless _ (Nat.le_add_right _ n)⟩

/-- The system after such a `close()`: two descriptors are gone, and that is all. -/
theorem kernel_close (host : Host) (i : ι) (hsound : Sound p) (hterm : OnTerminal p) :
    let k := (step host (.fileBacked i .close) p).2.k
    k.fds STDOUT_FILENO = none ∧ k.fds STDERR_FILENO = none
      ∧ (∀ fd, fd ≠ STDOUT_FILENO → fd ≠ STDERR_FILENO → k.fds fd = p.k.fds fd)
      ∧ k.files = p.k.files ∧ k.ino = p.k.ino ∧ k.Faultless := by
  have hzero : (TwoStream.close (p.world i)).1 = 0 :=
    (close_eq_zero_iff_closable _).mpr (closable_of_sound hsound hterm)
  obtain ⟨hfirst, hsecond⟩ := (close_eq_zero_iff (p.world i)).mp hzero
  intro k
  have hk : k = (TwoStream.close (p.world i)).2.2 := step_close_k host i p
  rw [hk]
  refine ⟨close_stdout hzero, close_stderr hzero, fun fd h₁ h₂ => close_fds_ne h₁ h₂,
    close_files _, ?_⟩
  rw [TwoStream.close_of_eq_zero hzero, Kernel.close_of_eq_zero hsecond,
    Kernel.close_of_eq_zero hfirst]
  exact ⟨rfl, fun n hn => hsound.faultless n (Nat.le_trans (Nat.le_add_right _ 2) hn)⟩

theorem streams_close (a : Source ι × Bool) :
    (step host (.fileBacked i .close) p).2.stream a = p.stream a := by
  obtain ⟨_, _, hobj, _, _⟩ := step_eq host (.fileBacked i .close) p
  refine step_object (fun t => t.stream a.2) ?_ a.1
  rw [hobj]
  exact close_stream _ _

theorem stream_update (p : Process ι) (i : ι) (o : FileBacked × TwoStream) (k : Kernel)
    (a : Source ι × Bool) :
    ({ p with loggers := Function.update p.loggers i o, k := k } : Process ι).stream a
      = if a.1 = .fileBacked i then o.2.stream a.2 else p.stream a := by
  obtain ⟨src, b⟩ := a
  cases src with
  | console => rfl
  | fileBacked j =>
    show (Function.update p.loggers i o j).2.stream b = _
    by_cases hj : j = i
    · rw [hj, Function.update_self, if_pos rfl]
    · rw [Function.update_of_ne hj, if_neg fun h => hj (Source.fileBacked.inj h)]
      rfl

/-- With one file and no truncation both classes open it twice for append. -/
theorem reopen_eq :
    reopen host i c logfile p =
      let q := (step host (.fileBacked i .close) p).2
      let w := construct logfile ⟨true, false⟩ logfile ⟨true, false⟩ q.k
      { q with loggers := Function.update q.loggers i (c, w.1), k := w.2 } := by
  have hopen : c.openFiles (.one logfile) false
      = construct logfile ⟨true, false⟩ logfile ⟨true, false⟩ := by
    cases c <;> rfl
  rw [reopen, hopen]

/-- Whoever has the file open on another descriptor appends to it. -/
theorem admits_close (host : Host) (i : ι) (hsound : Sound p) (hterm : OnTerminal p) {m : OpenMode}
    (h : Ofstream.Admits (p.k.ino logfile) m p.k) :
    let k := (step host (.fileBacked i .close) p).2.k
    Ofstream.Admits (k.ino logfile) m k := by
  obtain ⟨hout, herr, hfds, _, hino, _⟩ := kernel_close host i hsound hterm
  intro k fd f hf hi
  have h₁ : fd ≠ STDOUT_FILENO := by
    rintro rfl
    rw [hout] at hf
    cases hf
  have h₂ : fd ≠ STDERR_FILENO := by
    rintro rfl
    rw [herr] at hf
    cases hf
  rw [hfds fd h₁ h₂] at hf
  exact h fd f hf (hi.trans (congrFun hino logfile))

/-- The new descriptors append to the file, like all others on it. -/
theorem reopen_orderly (hsound : Sound p) (horderly : p.k.Orderly) (hterm : OnTerminal p)
    (hadmits : Ofstream.Admits (p.k.ino logfile) ⟨true, false⟩ p.k) :
    (reopen host i c logfile p).k.Orderly := by
  have hadmits' := admits_close host i hsound hterm hadmits
  -- first the descriptors after `close()`, then the two opens
  have hclosed : (step host (.fileBacked i .close) p).2.k.Orderly := by
    rw [step_close_k]
    exact close_orderly horderly
  rw [reopen_eq]
  exact construct_orderly rfl hclosed hadmits' hadmits' fun _ => rfl

def standardFd (b : Bool) : Fd := if b then STDOUT_FILENO else STDERR_FILENO

/-- The standard descriptors are open again, on the log file, and those of the new logger; all
else is as it was. -/
theorem reopen_spec (hsound : Sound p) (hterm : OnTerminal p)
    (hhealthy : ((reopen host i c logfile p).loggers i).2.err = .HEALTHY)
    (houts : ((reopen host i c logfile p).loggers i).2.outs.fd = some STDOUT_FILENO)
    (herrs : ((reopen host i c logfile p).loggers i).2.errs.fd = some STDERR_FILENO) :
    let p' := reopen host i c logfile p
    p'.k.Faultless ∧ p'.k.files = p.k.files
      ∧ (∀ b, p'.k.fds (standardFd b) = some ⟨p.k.ino logfile, true, 0⟩)
      ∧ (∀ fd, fd ≠ STDOUT_FILENO → fd ≠ STDERR_FILENO → p'.k.fds fd = p.k.fds fd)
      ∧ ∀ a, p'.stream a
        = if a.1 = .fileBacked i then .attached (standardFd a.2) else p.stream a := by
  obtain ⟨_, _, hfds, hfiles, hino, hfaultless⟩ := kernel_close host i hsound hterm
  have hstreams (a : Source ι × Bool) :
      (step host (.fileBacked i .close) p).2.stream a = p.stream a := streams_close a
  rw [reopen_eq] at hhealthy houts herrs ⊢
  generalize (step host (.fileBacked i .close) p).2 = q at *
  dsimp only at hhealthy houts herrs ⊢
  rw [Function.update_self] at hhealthy houts herrs
  -- the logger says which descriptors were taken: the two that `close()` has freed
  obtain ⟨fd₁, fd₂, hne, _, _, heq⟩ := construct_free hhealthy
  rw [heq] at houts herrs ⊢
  obtain rfl : fd₁ = STDOUT_FILENO := Option.some.inj houts
  obtain rfl : fd₂ = STDERR_FILENO := Option.some.inj herrs
  rw [← hino]
  refine ⟨fun n hn => hfaultless n (Nat.le_trans (Nat.le_add_right _ 2) hn), hfiles,
    fun b => ?_, fun fd h₁ h₂ => ?_, fun a => ?_⟩
  · show Function.update (Function.update q.k.fds STDOUT_FILENO _) STDERR_FILENO _ _ = _
    cases b with
    | false => exact Function.update_self _ _ _
    | true =>
      rw [show standardFd true = STDOUT_FILENO from rfl, Function.update_of_ne hne,
        Function.update_self]
  · show Function.update (Function.update q.k.fds STDOUT_FILENO _) STDERR_FILENO _ fd = _
    rw [Function.update_of_ne h₂, Function.update_of_ne h₁, hfds fd h₁ h₂]
  · -- the streams of the new logger are fresh, the others are the old ones
    rw [stream_update, ← hstreams]
    obtain ⟨src, b⟩ := a
    cases b <;> rfl

/-- Everything is in order again. -/
theorem sound_reopen (hsound : Sound p) (hterm : OnTerminal p)
    (hhealthy : ((reopen host i c logfile p).loggers i).2.err = .HEALTHY)
    (houts : ((reopen host i c logfile p).loggers i).2.outs.fd = some STDOUT_FILENO)
    (herrs : ((reopen host i c logfile p).loggers i).2.errs.fd = some STDERR_FILENO) :
    let p' := reopen host i c logfile p
    Sound p' ∧ p'.k.files = p.k.files
      ∧ ∀ b, p'.fileOf (.console, b) = some (p.k.ino logfile) := by
  obtain ⟨hfaultless, hfiles, hplace, hfds, hstream⟩ :=
    reopen_spec hsound hterm hhealthy houts herrs
  have hconsole (b : Bool) : (p.stream (.console, b)).fd = some (standardFd b) := by
    cases b
    · exact hterm.errs
    · exact hterm.outs
  refine ⟨⟨fun a => ?_, fun a => ?_, fun a => ?_, hfaultless⟩, hfiles, fun b => ?_⟩
  · rw [hstream]
    split
    · rfl
    · exact hsound.good a
  · rw [hstream]
    split
    · rfl
    · exact hsound.buf a
  · rw [hstream]
    split
    · exact ⟨_, hplace a.2⟩
    · -- the console is on the new file; another logger is where it was
      obtain ⟨src, b⟩ := a
      cases src with
      | console =>
        rw [hconsole]
        exact ⟨_, hplace b⟩
      | fileBacked j =>
        obtain ⟨f, hf⟩ := hsound.isOpen (.fileBacked j, b)
        obtain ⟨fd, hfd, hopen⟩ := Option.bind_eq_some_iff.mp hf
        obtain ⟨h₁, h₂⟩ := hterm.others j b fd hfd
        rw [hfd]
        exact ⟨f, (hfds fd h₁ h₂).trans hopen⟩
  · rw [fileOf, hstream, if_neg (fun h => by cases h), hconsole]
    exact Kernel.target_eq_some.mpr ⟨_, _, rfl, hplace b, rfl⟩

end Reopen

/-- **The console moves into the log.** Everything is in order (`Sound`: nothing fails), the console
is on the standard descriptors and no other logger is, and whoever has the log file open appends to
it. A logger is closed, and another one opened in its place, on one file and for append; it gets
descriptors 1 and 2, which `close()` has freed. In a later run without `close()` every message for
the console that passes its threshold goes to the log file. What the file held is followed by these
and by the messages of the loggers that are on it, in the order of the calls. -/
theorem console_redirected {p : Process ι} (hsound : Sound p) (horderly : p.k.Orderly)
    (hterm : OnTerminal p) (i : ι) (c : FileBacked) (logfile : PathName)
    (hadmits : Ofstream.Admits (p.k.ino logfile) ⟨true, false⟩ p.k)
    (hhealthy : ((reopen host i c logfile p).loggers i).2.err = .HEALTHY)
    (houts : ((reopen host i c logfile p).loggers i).2.outs.fd = some STDOUT_FILENO)
    (herrs : ((reopen host i c logfile p).loggers i).2.errs.fd = some STDERR_FILENO)
    (ops : List (ProcessOp ι)) (hops : ∀ o ∈ ops, o.op ≠ .close) :
    let p' := reopen host i c logfile p
    let r := Run.exec (step host) ops p'
    let j := Run.exec Journals.step ops p'.journals
    (∀ b, p'.fileOf (.console, b) = some (p.k.ino logfile))
      ∧ r.2.k.files (p.k.ino logfile)
        = p.k.files (p.k.ino logfile) ++ recordsOn host p' (p.k.ino logfile) j.2.entries := by
  have horderly' : (reopen host i c logfile p).k.Orderly :=
    reopen_orderly hsound horderly hterm hadmits
  obtain ⟨hsound', hfiles, hconsole⟩ := sound_reopen hsound hterm hhealthy houts herrs
  obtain ⟨_, hrecords⟩ := exec_sound host ops horderly' hsound' hops
  -- from here on it is a run of loggers that share files, the console among them
  refine ⟨hconsole, ?_⟩
  rw [hrecords, hfiles]

/-- A system that gives the lowest descriptor that can be free. -/
def lowest : Kernel :=
  { calm with oracle := fun n => .ok (if n = 4 then 1 else if n = 5 then 2 else n + 3) }

/-- A console, and a `FileLogger` on two files beside it. -/
def consoleAndLog : Process Unit :=
  let f := FileLogger.new₂ [0x61] [0x62, 0x62] false lowest
  { loggers := fun _ => (.file, f.1)
    console := (ConsoleLogger.new (.attached STDOUT_FILENO) (.attached STDERR_FILENO) f.2).1
    k := f.2 }

section Witness

theorem allAppend_consoleAndLog : AllAppend consoleAndLog.k.fds :=
  (allAppend_calm.update 3 1 0).update 4 2 0

theorem sound_consoleAndLog : Sound consoleAndLog := by
  refine ⟨?_, ?_, ?_, fun n _ => ⟨_, rfl⟩⟩
  · rintro ⟨⟨⟩ | ⟨⟩, _ | _⟩ <;> rfl
  · rintro ⟨⟨⟩ | ⟨⟩, _ | _⟩ <;> rfl
  · rintro ⟨_ | _, _ | _⟩ <;> rw [Kernel.isOpen] <;> exact Option.isSome_iff_exists.mp (by rfl)

def infoThenWarn : List (ProcessOp Unit) :=
  [.console (.log (.infoPlain (ascii "main") (ascii "starts")) noon),
    .fileBacked () (.log (.warnPlain (ascii "main") (ascii "depleted")) noon)]

/-- A message for the console and one for the new logger, in one file. -/
theorem console_redirected_log :
    let p' := reopen utc () .file [0x63, 0x63, 0x63] consoleAndLog
    (Run.exec (step utc) infoThenWarn p').2.k.files 3
      = ascii "[2016-03-18T12:36:11+0000] [INFO] [actor:main event:starts]\n"
        ++ ascii "[2016-03-18T12:36:11+0000] [WARNING] [actor:main event:depleted]\n" := by
  have hterm : OnTerminal consoleAndLog :=
    ⟨rfl, rfl, by rintro ⟨⟩ (_ | _) fd ⟨⟩ <;> decide⟩
  obtain ⟨_, hfile⟩ := console_redirected utc sound_consoleAndLog allAppend_consoleAndLog.orderly
    hterm () .file [0x63, 0x63, 0x63] (fun _ _ hf _ => ⟨allAppend_consoleAndLog _ _ hf, rfl, rfl⟩)
    (by decide +kernel) (by decide +kernel) (by decide +kernel) infoThenWarn (by decide)
  rw [show consoleAndLog.k.ino [0x63, 0x63, 0x63] = 3 from rfl] at hfile
  exact hfile.trans (by decide +kernel)

end Witness

end Process

end Klog
