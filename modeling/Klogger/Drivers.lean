import Klogger.Lib.SortedMap
import Klogger.Agreement
import Klogger.Ledger

/-!
# The test programs

`console_test`, `filelog_test`, `binlog_test` and `syslog_test` are the programs of the repository
that use the loggers. Each sends four messages, and gives its arguments as the attributes of one
of them, numbered; they come out in the order of the names, `argv[10]` before `argv[2]`. All the
arguments are there (`argMap_perm`), and every program records what it sends (`test_programs`).
With a single file it does so although the logger truncates the file: the only message for `outs`
comes first.
-/

namespace Klog

open TwoStream

/-! ## Arguments as attributes -/

/-- `args[k] = v` -/
def AttrMap.assign (args : AttrMap) (k v : Bytes) : AttrMap :=
  ⟨SortedMap.assign k v args.entries, SortedMap.ascending_assign k v args.sorted⟩

/-- `"argv[" + std::to_string(i) + "]"` -/
def argName (i : Nat) : Bytes := ascii "argv[" ++ decimal i ++ ascii "]"

/-- The loop over the arguments, from the one with the number `i` on. -/
def collect (i : Nat) : List Bytes → AttrMap → AttrMap
  | [], args => args
  | arg :: rest, args => collect (i + 1) rest (args.assign (argName i) arg)

/-- The map that a program makes of its arguments; the first `nargs` it takes for itself. -/
def argMap (nargs : Nat) (argv : List Bytes) : AttrMap := collect nargs (argv.drop nargs) .empty

/-- The arguments from `nargs` on, each with its name. -/
def named (nargs : Nat) (argv : List Bytes) : List (Bytes × Bytes) :=
  ((argv.drop nargs).zipIdx nargs).map fun a => (argName a.2, a.1)

/-- The digits can be read off the bytes again. -/
theorem decimal_injective : Function.Injective decimal := by
  -- a byte of a numeral is the code of its digit
  have hback (n : Nat) : (decimal n).map (fun b => Char.ofNat b.toNat) = Nat.toDigits 10 n := by
    rw [decimal_eq_map, List.map_map]
    refine (List.map_congr_left fun c hc => ?_).trans (List.map_id _)
    have hdigit : c.isDigit = true := Nat.isDigit_of_mem_toDigits (by decide) (by decide) hc
    simp only [Char.isDigit, Bool.and_eq_true, decide_eq_true_eq] at hdigit
    have hsmall : c.toNat < 256 := Nat.lt_of_le_of_lt hdigit.2 (by decide)
    show Char.ofNat (UInt8.ofNat c.toNat).toNat = c
    rw [UInt8.toNat_ofNat_of_lt' hsmall, Char.ofNat_toNat]
  intro n m h
  have hdigits : Nat.toDigits 10 n = Nat.toDigits 10 m := by rw [← hback, ← hback, h]
  rw [← Nat.ofDigitChars_toDigits (b := 10) (n := n) (by decide) (by decide), hdigits,
    Nat.ofDigitChars_toDigits (by decide) (by decide)]

/-- Two arguments never have the same name, so no assignment replaces another. -/
theorem argName_injective : Function.Injective argName := by
  intro i j h
  exact decimal_injective (List.append_cancel_left (List.append_cancel_right h))

/-- Induction on the arguments; the names so far have smaller numbers. -/
theorem collect_perm (rest : List Bytes) {i : Nat} {args : AttrMap}
    (h : ∀ a ∈ args.entries, ∃ j < i, a.1 = argName j) :
    (collect i rest args).entries.Perm
      ((rest.zipIdx i).map (fun a => (argName a.2, a.1)) ++ args.entries) := by
  induction rest generalizing i args with
  | nil => exact .refl _
  | cons arg rest ih =>
    -- the name is new, so the assignment is an insertion
    have hnew : ∀ a ∈ args.entries, a.1 ≠ argName i := by
      intro a ha heq
      obtain ⟨j, hj, hname⟩ := h a ha
      exact absurd (argName_injective (hname.symm.trans heq)) (Nat.ne_of_lt hj)
    -- the names after it have numbers below `i + 1`
    have hnames : ∀ a ∈ (args.assign (argName i) arg).entries, ∃ j < i + 1, a.1 = argName j := by
      intro a ha
      rcases SortedMap.of_mem_assign ha with rfl | ha
      · exact ⟨i, Nat.lt_succ_self i, rfl⟩
      · obtain ⟨j, hj, hname⟩ := h a ha
        exact ⟨j, Nat.lt_succ_of_lt hj, hname⟩
    rw [collect, List.zipIdx_cons, List.map_cons, List.cons_append]
    exact (ih hnames).trans (((SortedMap.assign_perm arg hnew).append_left _).trans
      List.perm_middle)

/-- **No argument is lost.** -/
theorem argMap_perm (nargs : Nat) (argv : List Bytes) :
    (argMap nargs argv).entries.Perm (named nargs argv) := by
  have h : (argMap nargs argv).entries.Perm (named nargs argv ++ AttrMap.empty.entries) :=
    collect_perm _ fun a ha => absurd ha List.not_mem_nil
  rwa [show AttrMap.empty.entries = [] from rfl, List.append_nil] at h

/-- The names are in the order of their characters. -/
example : (argMap 2 (List.replicate 12 [])).entries.map Prod.fst
    = [10, 11, 2, 3, 4, 5, 6, 7, 8, 9].map argName := by
  decide +kernel

/-! ## The programs -/

/-- How a program ends. -/
inductive Ending where
  | exit (code : Int)
  | abort
  deriving DecidableEq, Repr

/-- A `main` that is left returns 0. -/
def Ending.ofFlow : ControlFlow → Ending
  | .returned => .exit 0
  | .exited c => .exit c

/-- The messages of a program; `now` are the readings of the clock. -/
def messages (now : Nat → Time) (first : Bytes) (args : AttrMap) (last : LogCall) : List Op :=
  [.log (.debugPlain (ascii "main") first) (now 0),
    .log (.info (ascii "main") (ascii "starts") args) (now 1),
    .log (.warnPlain (ascii "main") (ascii "depleted")) (now 2),
    .log last (now 3)]

/-- From the check of `good()` on. -/
def drive {σ : Type} (L : Logger σ) (ops : List Op) (s : σ) : Ending × σ :=
  if L.good s then
    let r := Run.exec L.step ops s
    (.ofFlow r.1, r.2)
  else (.abort, s)

def fatalEnds : LogCall := .fatalPlain (ascii "main") (ascii "ends")

/-- The last message of `syslog_test`, which does not end by it. -/
def errorEnds : LogCall := .errorPlain (ascii "main") (ascii "ends")

section Mains

variable (host : Host) (now : Nat → Time)

/-- `main` of `console_test` -/
def consoleTest (argv : List Bytes) (s : World) : Ending × World :=
  drive (consoleLogger host) (messages now (ascii "starts") (argMap 1 argv) fatalEnds) s

/-- `main` of `syslog_test`: `Daemon`, with `Console`, `PID` and `PError`. -/
def syslogTest (argv : List Bytes) (d : Syslogd) : Ending × Syslogd :=
  match argv with
  | [] => (.abort, d)
  | name :: _ =>
    let r := drive sysLogger (messages now (ascii "building arg list") (argMap 1 argv) errorEnds)
      (Syslogger.new name (3 <<< 3) [0x02, 0x01, 0x20] d)
    (r.1, r.2.d)

/-- A message on `std::cerr`. -/
def complain (cs : List Bytes) (k : Kernel) : Kernel :=
  (Ofstream.ref.send cs (.attached STDERR_FILENO, k)).2

/-- The programs that write files: `pargv` are the arguments without the name and the options. -/
def fileTest (c : FileBacked) (name : Bytes) (argv pargv : List Bytes) (k : Kernel) :
    Ending × Kernel :=
  let run (l : LogFiles) (nargs : Nat) :=
    let r := drive (c.vtable host) (messages now (ascii "starts") (argMap nargs argv) fatalEnds)
      (c.openFiles l true k)
    (r.1, r.2.2)
  match pargv with
  | logfile :: errfile :: _ => run (.two logfile errfile) 3
  | [logfile] => run (.one logfile) 2
  | [] => (.exit EXIT_FAILURE,
      complain [ascii "Usage: ", name, ascii " logfile [errfile]\n"] k)

/-- `main` of `filelog_test` -/
def filelogTest (argv : List Bytes) (k : Kernel) : Ending × Kernel :=
  match argv with
  | [] => (.abort, k)
  | name :: args => fileTest host now .file name argv args k

/-- `main` of `binlog_test`. What `getopt(3)` does is `getopt`: the options it returns, `optind`,
and the arguments as it leaves them. The numbers of the arguments do not follow `optind`. -/
def binlogTest (getopt : List Bytes → List UInt8 × Nat × List Bytes) (argv : List Bytes)
    (k : Kernel) : Ending × Kernel :=
  match argv with
  | [] => (.abort, k)
  | name :: _ =>
    match getopt argv with
    | ([], optind, argv') => fileTest host now .bin name argv' (argv'.drop optind) k
    | (opt :: _, _, _) =>
      -- of the options only `-r` has a message; every other one falls through to `abort()`
      if opt = 0x72 then (.exit 1, complain [ascii "Not implemented.\n"] k) else (.abort, k)

/-- The two programs that write files. -/
def fileProgram (getopt : List Bytes → List UInt8 × Nat × List Bytes) :
    FileBacked → List Bytes → Kernel → Ending × Kernel
  | .file => filelogTest host now
  | .bin => binlogTest host now getopt

end Mains

/-- The entries of a program. -/
def recordsOf (now : Nat → Time) (args : AttrMap) (last : LogCall) : List Entry :=
  [⟨.info (ascii "main") (ascii "starts") args, now 1⟩,
    ⟨.warnPlain (ascii "main") (ascii "depleted"), now 2⟩, ⟨last, now 3⟩]

/-- The DEBUG message is suppressed, the other three pass. -/
theorem passed_messages (now : Nat → Time) (first : Bytes) (args : AttrMap) (last : LogCall)
    (h : Level.INFO ≤ last.level) :
    outcome (messages now first args last) = last.flow
      ∧ passed (messages now first args last) = recordsOf now args last := by
  -- the last message decides how the run ends
  have hlast (j : Journal) (hj : j.threshold = .INFO) :
      Run.exec Journal.step [.log last (now 3)] j
        = (last.flow, { j with entries := j.entries ++ [⟨last, now 3⟩] }) := by
    have hstep : Journal.step (.log last (now 3)) j
        = (last.flow, { j with entries := j.entries ++ [⟨last, now 3⟩] }) := by
      rw [Journal.step, hj, if_pos h]
    rw [Run.exec, hstep]
    cases last.flow <;> rfl
  have hexec : Run.exec Journal.step (messages now first args last) Journal.init
      = (last.flow, ⟨.INFO, recordsOf now args last⟩) := hlast ⟨.INFO, _⟩ rfl
  rw [outcome, passed, hexec]
  exact ⟨rfl, rfl⟩

theorem messages_ne_close (now : Nat → Time) (first : Bytes) (args : AttrMap) (last : LogCall) :
    ∀ op ∈ messages now first args last, op ≠ .close := by
  simp [messages]

theorem drive_healthy {σ : Type} {L : Logger σ} {s : σ} (h : L.good s = true) (ops : List Op) :
    drive L ops s = (.ofFlow (Run.exec L.step ops s).1, (Run.exec L.step ops s).2) := by
  rw [drive, if_pos h]

theorem good_vtable (host : Host) (c : FileBacked) {s : World} (h : s.1.err = .HEALTHY) :
    (c.vtable host).good s = true := by
  cases c <;> exact beq_iff_eq.mpr h

section Files

variable (host : Host) (now : Nat → Time) (c : FileBacked) (name : Bytes) (argv : List Bytes)
  {k : Kernel} (hk : k.Faultless)

include hk

/-- With two files: both are emptied, and each record is in the file of its level. -/
theorem fileTest_two (logfile errfile : PathName) (rest : List Bytes)
    (hdiff : k.ino logfile ≠ k.ino errfile)
    (hopen : (c.openFiles (.two logfile errfile) true k).1.err = .HEALTHY) :
    let r := fileTest host now c name argv (logfile :: errfile :: rest) k
    r.1 = .exit EXIT_FAILURE
      ∧ Recorded (c.record host) (r.2.files (k.ino logfile)) (r.2.files (k.ino errfile))
          (recordsOf now (argMap 3 argv) fatalEnds) := by
  obtain ⟨hout, hpassed⟩ := passed_messages now (ascii "starts") (argMap 3 argv) fatalEnds
      (by decide)
  have hdrive := drive_healthy (good_vtable host c hopen)
    (messages now (ascii "starts") (argMap 3 argv) fatalEnds)
  rw [openFiles_two] at hopen
  obtain ⟨hflow, hlog, herr⟩ := exec_two_files (c.recorder host) rfl hk hdiff hopen
    (messages_ne_close now (ascii "starts") (argMap 3 argv) fatalEnds)
  rw [hpassed] at hlog herr
  rw [hout] at hflow
  simp only [fileTest]
  rw [hdrive, openFiles_two, Process.vtable_step, ← c.record_recorder]
  exact ⟨congrArg Ending.ofFlow hflow, hlog, herr⟩

/-- The records are complete because the only one for `outs` is the first one. -/
theorem fileTest_one (logfile : PathName)
    (hopen : (c.openFiles (.one logfile) true k).1.err = .HEALTHY) :
    let r := fileTest host now c name argv [logfile] k
    r.1 = .exit EXIT_FAILURE
      ∧ r.2.files (k.ino logfile)
        = (recordsOf now (argMap 2 argv) fatalEnds).flatMap (c.record host) := by
  obtain ⟨hout, hpassed⟩ := passed_messages now (ascii "starts") (argMap 2 argv) fatalEnds
      (by decide)
  have hops := messages_ne_close now (ascii "starts") (argMap 2 argv) fatalEnds
  have hdrive := drive_healthy (good_vtable host c hopen)
    (messages now (ascii "starts") (argMap 2 argv) fatalEnds)
  have hone : c.openFiles (.one logfile) true
      = construct logfile ⟨false, true⟩ logfile ⟨true, false⟩ := by
    cases c <;> rfl
  rw [hone] at hopen
  have hordered : Ordered (passed (messages now (ascii "starts") (argMap 2 argv) fatalEnds)) := by
    rw [hpassed, Ordered, recordsOf]
    simp [LogCall.level, fatalEnds, Level.toOuts]
  have hfile := (exec_one_file_iff (c.recorder host) rfl hk hopen hops).mpr (.inr hordered)
  obtain ⟨_, _, _, hrunning, hlevel, _⟩ := construct_running hk hopen
  obtain ⟨hflow, _⟩ := exec_running hrunning hlevel (c.recorder host) hops
    (X := fun _ _ => True) (fun _ _ _ _ _ => trivial) trivial
  rw [hpassed] at hfile
  rw [hout] at hflow
  simp only [fileTest]
  rw [hdrive, hone, Process.vtable_step, ← c.record_recorder]
  exact ⟨congrArg Ending.ofFlow hflow, hfile⟩

end Files

/-- Without options both programs do the same with the files they are given. -/
theorem fileProgram_eq (host : Host) (now : Nat → Time)
    {getopt : List Bytes → List UInt8 × Nat × List Bytes} {name : Bytes} {args : List Bytes}
    (hgetopt : getopt (name :: args) = ([], 1, name :: args)) (c : FileBacked) (k : Kernel) :
    fileProgram host now getopt c (name :: args) k
      = fileTest host now c name (name :: args) args k := by
  cases c with
  | file => rfl
  | bin =>
    simp only [fileProgram, binlogTest, hgetopt]
    rfl

/-- **What the test programs record.** Nothing fails. Whatever the arguments, `filelog_test` and
`binlog_test` leave the records of their messages in their files, in place of what was there, and
`console_test` and `syslog_test` send theirs; the DEBUG message is nowhere. All but `syslog_test`
exit with `EXIT_FAILURE`. Every argument behind the ones that a program takes for itself is an
attribute of the INFO message, under its name. -/
theorem test_programs (host : Host) (now : Nat → Time)
    (getopt : List Bytes → List UInt8 × Nat × List Bytes) (name : Bytes) (args : List Bytes)
    (hgetopt : getopt (name :: args) = ([], 1, name :: args)) {k : Kernel} (hk : k.Faultless) :
    let argv := name :: args
    (∀ (c : FileBacked) (logfile errfile : PathName) (rest : List Bytes),
        args = logfile :: errfile :: rest → k.ino logfile ≠ k.ino errfile →
        (c.openFiles (.two logfile errfile) true k).1.err = .HEALTHY →
        let r := fileProgram host now getopt c argv k
        r.1 = .exit EXIT_FAILURE
          ∧ Recorded (c.record host) (r.2.files (k.ino logfile)) (r.2.files (k.ino errfile))
              (recordsOf now (argMap 3 argv) fatalEnds))
      ∧ (∀ (c : FileBacked) (logfile : PathName), args = [logfile] →
        (c.openFiles (.one logfile) true k).1.err = .HEALTHY →
        let r := fileProgram host now getopt c argv k
        r.1 = .exit EXIT_FAILURE
          ∧ r.2.files (k.ino logfile)
            = (recordsOf now .empty fatalEnds).flatMap (c.record host))
      ∧ (k.fds STDOUT_FILENO ≠ none → k.fds STDERR_FILENO ≠ none →
        let r := consoleTest host now argv
          (ConsoleLogger.new (.attached STDOUT_FILENO) (.attached STDERR_FILENO) k)
        let es := recordsOf now (argMap 1 argv) fatalEnds
        r.1 = .exit EXIT_FAILURE
          ∧ r.2.2.sent STDOUT_FILENO
            = k.sent STDOUT_FILENO ++ (outsOf es).flatMap (textOf host)
          ∧ r.2.2.sent STDERR_FILENO
            = k.sent STDERR_FILENO ++ (errsOf es).flatMap (textOf host))
      ∧ (∀ d : Syslogd, (syslogTest now argv d).1 = .exit 0
        ∧ (syslogTest now argv d).2.calls = d.calls
          ++ (recordsOf now (argMap 1 argv) errorEnds).map Syslogger.syslogCall)
      ∧ ∀ nargs, (argMap nargs argv).entries.Perm (named nargs argv) := by
  refine ⟨fun c logfile errfile rest hargs hdiff hopen => ?_, fun c logfile hargs hopen => ?_,
    fun hout herr => ?_, fun d => ?_, fun nargs => argMap_perm nargs _⟩
  · rw [fileProgram_eq host now hgetopt, hargs]
    exact fileTest_two host now c name _ hk logfile errfile rest hdiff hopen
  · rw [fileProgram_eq host now hgetopt, hargs]
    exact fileTest_one host now c name _ hk logfile hopen
  · obtain ⟨hend, hpassed⟩ := passed_messages now (ascii "starts") (argMap 1 (name :: args))
      fatalEnds (by decide)
    obtain ⟨hflow, hsent⟩ := exec_console host hk hout herr
      (messages_ne_close now (ascii "starts") (argMap 1 (name :: args)) fatalEnds)
    rw [hpassed] at hsent
    rw [hend] at hflow
    exact ⟨congrArg Ending.ofFlow hflow, hsent⟩
  · obtain ⟨hend, hpassed⟩ := passed_messages now (ascii "building arg list")
      (argMap 1 (name :: args)) errorEnds (by decide)
    obtain ⟨hflow, hcalls⟩ := exec_syslog (Syslogger.new name (3 <<< 3) [0x02, 0x01, 0x20] d) rfl
      (messages_ne_close now (ascii "building arg list") (argMap 1 (name :: args)) errorEnds)
    rw [hpassed] at hcalls
    rw [hend] at hflow
    exact ⟨congrArg Ending.ofFlow hflow, hcalls⟩

/-- One argument is left for the attributes. -/
theorem test_programs_calm :
    let argv := [ascii "filelog_test", [0x61], [0x62, 0x62], ascii "hello"]
    let r := fileProgram utc (fun _ => noon) (fun argv => ([], 1, argv)) .file argv calm
    r.1 = .exit EXIT_FAILURE
      ∧ Recorded (FileBacked.file.record utc) (r.2.files (calm.ino [0x61]))
          (r.2.files (calm.ino [0x62, 0x62]))
          (recordsOf (fun _ => noon) (argMap 3 argv) fatalEnds) :=
  (test_programs utc (fun _ => noon) (fun argv => ([], 1, argv)) (ascii "filelog_test")
    [[0x61], [0x62, 0x62], ascii "hello"] rfl faultless_calm).1 .file [0x61] [0x62, 0x62]
    [ascii "hello"] rfl (by decide) rfl

end Klog
