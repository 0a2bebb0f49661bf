import Mathlib.Data.List.TakeWhile
import Klogger.TextLayout

/-!
# `Syslogger`

`syslog.cc`. A record is formatted into a string without a timestamp and handed to `syslog(3)`
as a C string. `Syslogd` is what the C library and the daemon have been told: whether and how
the log was opened, and the calls of `syslog(3)`.

A C string ends at its first NUL, so a record is delivered whole exactly when there is no NUL
in the strings of the call (`whole_iff`).
-/

namespace Klog

/-- The priorities that `syslog.cc` uses. -/
inductive Priority where
  | LOG_EMERG
  | LOG_CRIT
  | LOG_ERR
  | LOG_WARNING
  | LOG_INFO
  | LOG_DEBUG
  deriving DecidableEq, Repr

/-- One call `syslog(priority, "%s", arg.c_str())`. -/
structure SyslogCall where
  priority : Priority
  arg : Bytes
  deriving DecidableEq

/-- The message that is logged: the argument as a C string. -/
def SyslogCall.message (m : SyslogCall) : Bytes := cStr m.arg

/-- The arguments of `openlog(3)`. -/
structure OpenLog where
  ident : Bytes
  options : Nat
  facility : Nat
  deriving DecidableEq

/-- What the C library has been told. The connection is one for the whole process. -/
structure Syslogd where
  opened : Option OpenLog
  calls : List SyslogCall

/-- The members of `Syslogger`, and the logging facility of the process. -/
structure Syslogger where
  ident : Bytes
  err : LogError
  ilevel : Level
  d : Syslogd

namespace Syslogger

/-- The constructor; the options are combined bit by bit. -/
def new (name : Bytes) (f : Nat) (opts : List Nat) (d : Syslogd) : Syslogger :=
  let options := opts.foldl (· ||| ·) 0
  ⟨name, .HEALTHY, DEFAULT_LEVEL, { d with opened := some ⟨cStr name, options, f⟩ }⟩

/-- One call of `syslog(3)`; it returns nothing, so nothing can be learned from it. -/
def syslog (priority : Priority) (arg : Bytes) (s : Syslogger) : Syslogger :=
  { s with d := { s.d with calls := s.d.calls ++ [⟨priority, arg⟩] } }

/-- `LEVEL_CHECK`, `log_to_string_nt`, `syslog`, and `exit` if the method exits. -/
def method (priority : Priority) (l : Level) (exit : ControlFlow) (_now : Time)
    (actor event : Bytes) (attrs : AttrMap) : Method Syslogger := fun s =>
  if levelCheck s.ilevel l then (.returned, s)
  else
    let out := logToStringNt l actor event attrs
    (exit, s.syslog priority out)

def level (l : Level) (s : Syslogger) : Syslogger := { s with ilevel := l }

def good (s : Syslogger) : Bool := s.err == .HEALTHY

def error (s : Syslogger) : LogError := s.err

/-- `close()`: `closelog(3)` cannot fail, and the state is closed from then on. -/
def close (s : Syslogger) : Int × Syslogger :=
  (0, { s with d := { s.d with opened := none }, err := .ERR_CLOSED })

end Syslogger

open Syslogger in
/-- Each method with its priority, level and exit. There is one stream less to choose from: all
messages go the same way. -/
def sysLogger : Logger Syslogger where
  debug := method .LOG_DEBUG .DEBUG .returned
  debugPlain now actor event := method .LOG_DEBUG .DEBUG .returned now actor event .empty
  info := method .LOG_INFO .INFO .returned
  infoPlain now actor event := method .LOG_INFO .INFO .returned now actor event .empty
  warn := method .LOG_WARNING .WARN .returned
  warnPlain now actor event := method .LOG_WARNING .WARN .returned now actor event .empty
  error := method .LOG_ERR .ERROR .returned
  errorPlain now actor event := method .LOG_ERR .ERROR .returned now actor event .empty
  critical := method .LOG_CRIT .CRITICAL .returned
  criticalPlain now actor event := method .LOG_CRIT .CRITICAL .returned now actor event .empty
  fatal := method .LOG_EMERG .FATAL (.exited EXIT_FAILURE)
  fatalPlain now actor event :=
    method .LOG_EMERG .FATAL (.exited EXIT_FAILURE) now actor event .empty
  fatalCode now exitcode := method .LOG_EMERG .FATAL (.exited exitcode) now
  fatalCodePlain now exitcode actor event :=
    method .LOG_EMERG .FATAL (.exited exitcode) now actor event .empty
  fatalNoexit := method .LOG_EMERG .FATAL .returned
  fatalNoexitPlain now actor event :=
    method .LOG_EMERG .FATAL .returned now actor event .empty
  level := Syslogger.level
  good := Syslogger.good
  getError := Syslogger.error
  close := Syslogger.close

namespace Syslogger

/-- The priority of a level. Six priorities of eight are used. -/
def priority : Level → Priority
  | .DEBUG => .LOG_DEBUG
  | .INFO => .LOG_INFO
  | .WARN => .LOG_WARNING
  | .ERROR => .LOG_ERR
  | .CRITICAL => .LOG_CRIT
  | .FATAL => .LOG_EMERG

/-- The call of `syslog(3)` for an entry; its clock reading is not used. -/
def syslogCall (e : Entry) : SyslogCall :=
  ⟨priority e.call.level, logToStringNt e.call.level e.call.actor e.call.event e.call.attrs⟩

/-- Each method is `method` at the priority and the level of the call. -/
theorem call_eq (c : LogCall) (now : Time) :
    sysLogger.call now c
      = method (priority c.level) c.level c.flow now c.actor c.event c.attrs := by
  cases c <;> rfl

/-- A call that passes the threshold is one call of `syslog(3)`. -/
theorem step_log (c : LogCall) (now : Time) (s : Syslogger) :
    sysLogger.step (.log c now) s
      = if s.ilevel ≤ c.level then
          (c.flow, s.syslog (syslogCall ⟨c, now⟩).priority (syslogCall ⟨c, now⟩).arg)
        else (.returned, s) := by
  rw [Logger.step, call_eq, method, levelCheck_eq]
  by_cases hpass : s.ilevel ≤ c.level
  · simp only [hpass, decide_true, Bool.not_true, Bool.false_eq_true, if_false, if_true]
    rfl
  · simp [hpass]

/-! ## What is delivered -/

/-- The messages that a logging call adds to the log. -/
def delivered (c : LogCall) (now : Time) (s : Syslogger) : List Bytes :=
  ((sysLogger.step (.log c now) s).2.d.calls.drop s.d.calls.length).map SyslogCall.message

/-- The call delivers one message, the whole record: it is what `FileLogger` writes for the
call behind the timestamp, and it has every attribute in it. -/
def Whole (c : LogCall) (now : Time) (s : Syslogger) : Prop :=
  ∃ m, delivered c now s = [m] ∧ m = c.formatted
    ∧ (∀ host, logToString host now c.level c.actor c.event c.attrs
        = ascii "[" ++ timestamp host now ++ ascii "] " ++ m)
    ∧ ∀ it ∈ c.attrs.entries, ascii " " ++ it.1 ++ ascii "=" ++ it.2 <:+: m

/-- A string survives `c_str()` exactly if it has no NUL in it. -/
theorem cStr_eq_self_iff {b : Bytes} : cStr b = b ↔ 0 ∉ b := by
  rw [cStr, List.takeWhile_eq_self_iff]
  refine ⟨fun h hmem => ?_, fun h x hx => ?_⟩
  · simpa using h 0 hmem
  · simpa using ne_of_mem_of_not_mem hx h

/-- The text between the strings has no NUL, so it is a matter of the strings. -/
theorem not_mem_formatted_iff {c : LogCall} : 0 ∉ c.formatted ↔ c.Free 0 := by
  have hcount := count_formatted (show (0 : UInt8) < 0x20 by decide) c
  have hnl : (ascii "\n").count 0 = 0 := rfl
  rw [hnl, Nat.add_zero] at hcount
  rw [← List.count_eq_zero, hcount, sum_count_eq_zero_iff]

theorem attr_infix_formatted {c : LogCall} {it : Bytes × Bytes} (h : it ∈ c.attrs.entries) :
    ascii " " ++ it.1 ++ ascii "=" ++ it.2 <:+: c.formatted := by
  have hattrs : ascii " " ++ it.1 ++ ascii "=" ++ it.2 <:+: attrText c.attrs := by
    rw [attrText, List.flatMap_def]
    exact List.infix_of_mem_flatten (List.mem_map_of_mem h)
  -- the attributes stand between the names and the newline
  have hrecord : attrText c.attrs <:+: c.formatted := by
    rw [LogCall.formatted, logToStringNt_layout]
    simp only [← List.append_assoc]
    exact (List.suffix_append _ _).isInfix.trans (List.prefix_append _ _).isInfix
  exact hattrs.trans hrecord

section Passed

variable {c : LogCall} {now : Time} {s : Syslogger} (h : s.ilevel ≤ c.level)

include h

/-- A call that passes delivers one message: the record up to its first NUL. -/
theorem delivered_of_passed : delivered c now s = [cStr c.formatted] := by
  rw [delivered, step_log, if_pos h]
  simp only [syslog, List.drop_left, List.map_cons, List.map_nil]
  rfl

/-- The message is the whole record exactly if there is no NUL in what the call passes. -/
theorem whole_iff : Whole c now s ↔ c.Free 0 := by
  rw [← not_mem_formatted_iff, ← cStr_eq_self_iff]
  constructor
  · -- the one message was cut off at nothing
    rintro ⟨m, hm, rfl, -⟩
    rw [delivered_of_passed h] at hm
    exact List.singleton_inj.mp hm
  · intro hstr
    refine ⟨c.formatted, ?_, rfl, fun host => ?_, fun it => attr_infix_formatted⟩
    · rw [delivered_of_passed h, hstr]
    · rw [logToString_eq, textRecord_eq]
      rfl

end Passed

/-- **Whole records**: two calls that pass the threshold deliver their records whole, and
different messages when their records differ, if and only if no actor, event, key or value of
the two has a NUL in it. -/
theorem whole_records_iff {c c' : LogCall} {now now' : Time} {s s' : Syslogger}
    (h : s.ilevel ≤ c.level) (h' : s'.ilevel ≤ c'.level) :
    (Whole c now s ∧ Whole c' now' s'
        ∧ (c.formatted ≠ c'.formatted → delivered c now s ≠ delivered c' now' s'))
      ↔ c.Free 0 ∧ c'.Free 0 := by
  rw [whole_iff h, whole_iff h']
  refine ⟨fun hall => ⟨hall.1, hall.2.1⟩, fun hfree => ⟨hfree.1, hfree.2, fun hne heq => ?_⟩⟩
  have hstr := cStr_eq_self_iff.mpr (not_mem_formatted_iff.mpr hfree.1)
  have hstr' := cStr_eq_self_iff.mpr (not_mem_formatted_iff.mpr hfree.2)
  rw [delivered_of_passed h, delivered_of_passed h', hstr, hstr'] at heq
  exact hne (List.singleton_inj.mp heq)

/-- A freshly constructed `Syslogger`. -/
def fresh : Syslogger := new (ascii "klogger") 8 [] ⟨none, []⟩

def starts : LogCall :=
  .info (ascii "main") (ascii "starts") ⟨[(ascii "pid", ascii "7")], by decide⟩

theorem whole_records_starts :
    (Whole starts 0 fresh ∧ Whole starts 0 fresh
        ∧ (starts.formatted ≠ starts.formatted →
          delivered starts 0 fresh ≠ delivered starts 0 fresh))
      ↔ starts.Free 0 ∧ starts.Free 0 :=
  whole_records_iff (show fresh.ilevel ≤ starts.level by decide)
    (show fresh.ilevel ≤ starts.level by decide)

/-- The call `starts` with a NUL at the end of the actor. -/
def startsNul : LogCall :=
  .info (ascii "main" ++ [0]) (ascii "starts") ⟨[(ascii "pid", ascii "7")], by decide⟩

/-- The same actor with another event and no attribute. -/
def stopsNul : LogCall := .infoPlain (ascii "main" ++ [0]) (ascii "stops")

/-- A NUL in the actor hides the event and the attributes: two different records are one
message. -/
theorem nul_hides_record :
    delivered startsNul 0 fresh = [ascii "[INFO] [actor:main"]
      ∧ delivered stopsNul 0 fresh = delivered startsNul 0 fresh
      ∧ startsNul.formatted ≠ stopsNul.formatted ∧ ¬ Whole startsNul 0 fresh := by
  refine ⟨by decide +kernel, by decide +kernel, by decide +kernel, ?_⟩
  -- that it is not whole follows from the NUL
  rw [whole_iff (show fresh.ilevel ≤ startsNul.level by decide)]
  decide +kernel

end Syslogger

end Klog
