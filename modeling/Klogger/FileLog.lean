import Klogger.Console

/-!
# `FileLogger`

`filelog.cc`. The logging methods have the body of `ConsoleLogger`'s with the members `outs`
and `errs` for the standard streams, so the recorder is the same (`fileLogger_step`).

The constructors leave the streams without exceptions enabled; nothing is thrown where the
source would catch it. `construct` is the body of all four constructors of the two file-backed
classes, which differ in the names of their constants only.
-/

namespace Klog

open TwoStream

/-- Construct the streams on no file, open them, and look whether that went well. -/
def construct (logfile : PathName) (flags : OpenMode) (errfile : PathName) (errflags : OpenMode)
    (k : Kernel) : World :=
  let o := Ofstream.openFile logfile flags (Ofstream.null, k)
  let e := Ofstream.openFile errfile errflags (Ofstream.null, o.2)
  -- the first stream that is not good decides, but the condition is the same for both
  let err :=
    if !o.1.good then .ERR_OPEN
    else if !e.1.good then .ERR_OPEN
    else .HEALTHY
  (⟨o.1, e.1, DEFAULT_LEVEL, err⟩, e.2)

/-- The constructor reports no error exactly when both opens succeeded. -/
theorem err_construct (p q : PathName) (m n : OpenMode) (k : Kernel) :
    (construct p m q n k).1.err
      = if BothGood (construct p m q n k) then .HEALTHY else .ERR_OPEN := by
  have herr : (construct p m q n k).1.err
      = if !(construct p m q n k).1.outs.good then .ERR_OPEN
        else if !(construct p m q n k).1.errs.good then .ERR_OPEN else .HEALTHY := rfl
  rw [herr]
  cases houts : (construct p m q n k).1.outs.good with
  | false => simp [BothGood, houts]
  | true => cases herrs : (construct p m q n k).1.errs.good <;> simp [BothGood, houts, herrs]

/-- A logger that calls itself healthy has both its streams, and only such a logger does. -/
theorem bothGood_construct_iff {p q : PathName} {m n : OpenMode} {k : Kernel} :
    (construct p m q n k).1.err = .HEALTHY ↔ BothGood (construct p m q n k) := by
  rw [err_construct]
  split
  · next h => exact iff_of_true rfl h
  · next h => exact iff_of_false (fun h => nomatch h) h

namespace FileLogger

/-- `out | app` -/
def DEFAULT_FLAGS : OpenMode := ⟨true, false⟩

/-- `out | trunc` -/
def TRUNC_FLAGS : OpenMode := ⟨false, true⟩

/-- One file for both streams. The second one always appends: it would empty the file again
otherwise. -/
def new (logfile : PathName) (truncate : Bool) (k : Kernel) : World :=
  let flags := if truncate then TRUNC_FLAGS else DEFAULT_FLAGS
  construct logfile flags logfile DEFAULT_FLAGS k

def new₂ (logfile errfile : PathName) (truncate : Bool) (k : Kernel) : World :=
  let flags := if truncate then TRUNC_FLAGS else DEFAULT_FLAGS
  construct logfile flags errfile flags k

end FileLogger

/-- Each method with its level, stream and exit. Overloads of one name differ in the attributes. -/
def fileLogger (host : Host) : Logger World where
  debug := textMethod host outsRef .DEBUG .returned
  debugPlain now actor event := textMethod host outsRef .DEBUG .returned now actor event .empty
  info := textMethod host outsRef .INFO .returned
  infoPlain now actor event := textMethod host outsRef .INFO .returned now actor event .empty
  warn := textMethod host errsRef .WARN .returned
  warnPlain now actor event := textMethod host errsRef .WARN .returned now actor event .empty
  error := textMethod host errsRef .ERROR .returned
  errorPlain now actor event := textMethod host errsRef .ERROR .returned now actor event .empty
  critical := textMethod host errsRef .CRITICAL .returned
  criticalPlain now actor event :=
    textMethod host errsRef .CRITICAL .returned now actor event .empty
  fatal := textMethod host errsRef .FATAL (.exited EXIT_FAILURE)
  fatalPlain now actor event :=
    textMethod host errsRef .FATAL (.exited EXIT_FAILURE) now actor event .empty
  fatalCode now exitcode := textMethod host errsRef .FATAL (.exited exitcode) now
  fatalCodePlain now exitcode actor event :=
    textMethod host errsRef .FATAL (.exited exitcode) now actor event .empty
  fatalNoexit := textMethod host errsRef .FATAL .returned
  fatalNoexitPlain now actor event :=
    textMethod host errsRef .FATAL .returned now actor event .empty
  level := TwoStream.level
  good := TwoStream.good
  getError := TwoStream.error
  close := TwoStream.close

theorem fileLogger_call (host : Host) (c : LogCall) (now : Time) :
    (fileLogger host).call now c
      = textMethod host (portRef c.level) c.level c.flow now c.actor c.event c.attrs := by
  cases c <;> rfl

/-- **`FileLogger` is a recorder of text records.** -/
theorem fileLogger_step (host : Host) :
    (fileLogger host).step = (textRecorder host).step := by
  funext op s
  cases op with
  | log c now =>
    rw [Logger.step, fileLogger_call]
    exact textMethod_eq_step host c now s
  | level l => rfl
  | close => rfl

end Klog
