import Klogger.Text
import Klogger.TwoStream

/-!
# `ConsoleLogger`

`console.cc`. The sixteen logging methods have one body, `textMethod`, which the methods of
`FileLogger` have as well; a method is this body with its own level, stream and exit.
`textRecorder` is the recorder of both classes (`consoleLogger_step`).
-/

namespace Klog

open TwoStream

/-- `LEVEL_CHECK`, `write_log`, and `exit` if the method exits. -/
def textMethod (host : Host) (outs : OStream World) (l : Level) (exit : ControlFlow) (now : Time)
    (actor event : Bytes) (attrs : AttrMap) : Method World := fun s =>
  if levelCheck s.1.ilevel l then (.returned, s)
  else (exit, writeLog host outs now l actor event attrs s)

/-- The recorder of the loggers that write text: nothing they write touches `err`. -/
def textRecorder (host : Host) : Recorder where
  chunks e := logChunks host e.now e.call.level e.call.actor e.call.event e.call.attrs
  settle t := t.err
  ne_nil e := textRecord_ne_nil host e.now e.call.level e.call.actor e.call.event e.call.attrs

/-- The line the formatting functions make of an entry. -/
def textOf (host : Host) (e : Entry) : Bytes :=
  logToString host e.now e.call.level e.call.actor e.call.event e.call.attrs

theorem record_textRecorder (host : Host) : (textRecorder host).record = textOf host := by
  funext e
  exact (logToString_eq host e.now e.call.level e.call.actor e.call.event e.call.attrs).symm

/-- The common body, on the stream for the level, is one step of the recorder. -/
theorem textMethod_eq_step (host : Host) (c : LogCall) (now : Time) (s : World) :
    textMethod host (portRef c.level) c.level c.flow now c.actor c.event c.attrs s
      = (textRecorder host).step (.log c now) s := by
  rw [textMethod, levelCheck_eq, writeLog_eq_send, portRef, OStream.zoom_send]
  by_cases hpass : s.1.ilevel ≤ c.level
  · rw [(textRecorder host).step_passed hpass]
    simp only [hpass, decide_true, Bool.not_true, Bool.false_eq_true, if_false]
    rfl
  · rw [(textRecorder host).step_suppressed hpass]
    simp [hpass]

namespace ConsoleLogger

/-- `std::cout`, at descriptor 1 unless the process has arranged otherwise. -/
abbrev cout : OStream World := outsRef

/-- `std::cerr`; it has no buffer, which is one of the policies the environment can choose. -/
abbrev cerr : OStream World := errsRef

/-- The constructor, with the standard streams as the process has them. -/
def new (out err : Ofstream) (k : Kernel) : World := (⟨out, err, DEFAULT_LEVEL, .HEALTHY⟩, k)

end ConsoleLogger

open ConsoleLogger in
/-- Each method with its level, stream and exit. -/
def consoleLogger (host : Host) : Logger World where
  debug := textMethod host cout .DEBUG .returned
  debugPlain now actor event := textMethod host cout .DEBUG .returned now actor event .empty
  info := textMethod host cout .INFO .returned
  infoPlain now actor event := textMethod host cout .INFO .returned now actor event .empty
  warn := textMethod host cerr .WARN .returned
  warnPlain now actor event := textMethod host cerr .WARN .returned now actor event .empty
  error := textMethod host cerr .ERROR .returned
  errorPlain now actor event := textMethod host cerr .ERROR .returned now actor event .empty
  critical := textMethod host cerr .CRITICAL .returned
  criticalPlain now actor event :=
    textMethod host cerr .CRITICAL .returned now actor event .empty
  fatal := textMethod host cerr .FATAL (.exited EXIT_FAILURE)
  fatalPlain now actor event :=
    textMethod host cerr .FATAL (.exited EXIT_FAILURE) now actor event .empty
  fatalCode now exitcode := textMethod host cerr .FATAL (.exited exitcode) now
  fatalCodePlain now exitcode actor event :=
    textMethod host cerr .FATAL (.exited exitcode) now actor event .empty
  fatalNoexit := textMethod host cerr .FATAL .returned
  fatalNoexitPlain now actor event :=
    textMethod host cerr .FATAL .returned now actor event .empty
  level := TwoStream.level
  good := TwoStream.good
  getError := TwoStream.error
  close := TwoStream.close

/-- Each method records at its own level, on the stream for that level, and exits as the
interface says. -/
theorem consoleLogger_call (host : Host) (c : LogCall) (now : Time) :
    (consoleLogger host).call now c
      = textMethod host (portRef c.level) c.level c.flow now c.actor c.event c.attrs := by
  cases c <;> rfl

/-- **`ConsoleLogger` is a recorder of text records.** -/
theorem consoleLogger_step (host : Host) :
    (consoleLogger host).step = (textRecorder host).step := by
  funext op s
  cases op with
  | log c now =>
    rw [Logger.step, consoleLogger_call]
    exact textMethod_eq_step host c now s
  | level l => rfl
  | close => rfl

end Klog
