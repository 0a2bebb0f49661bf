import Klogger.FileLog
import Klogger.TlvStream

/-!
# `BinLogger`

`binlog.cc`. A record is written with checks in between and flushed only if all of them
passed; because a stream that is not good ignores the flush, that is a `send` of the chunks of
the entry (`writeTlvLog_eq_send`). After every call `set_err` computes `err` anew from the two
streams.
-/

namespace Klog

open TwoStream

namespace BinLogger

/-- `out | app` -/
def BIN_DEFAULT_FLAGS : OpenMode := ⟨true, false⟩

/-- `out | trunc` -/
def BIN_TRUNC_FLAGS : OpenMode := ⟨false, true⟩

/-- One file for both streams; as with `FileLogger`, the second one appends. -/
def new (logfile : PathName) (truncate : Bool) (k : Kernel) : World :=
  let flags := if truncate then BIN_TRUNC_FLAGS else BIN_DEFAULT_FLAGS
  construct logfile flags logfile BIN_DEFAULT_FLAGS k

def new₂ (logfile errfile : PathName) (truncate : Bool) (k : Kernel) : World :=
  let flags := if truncate then BIN_TRUNC_FLAGS else BIN_DEFAULT_FLAGS
  construct logfile flags errfile flags k

/-- `klog::write_tlv_log`: write the entry, and flush if that went through. -/
def writeTlvLog {σ : Type} (host : Host) (outs : OStream σ) (now : Time) (level : Level)
    (actor event : Bytes) (attrs : AttrMap) (s : σ) : σ :=
  let lvl := UInt8.ofNat level.value
  let r := Tlv.writeTlvLog host.endian outs now lvl actor event attrs s
  -- `r.1` is what the checks in between have found
  if r.1 then outs.flush r.2 else r.2

/-- `set_err`: the checks in the order of the source. The last branch, reached at the end of the
input only, leaves the value alone. -/
def setErr (t : TwoStream) : TwoStream :=
  if t.outs.good && t.errs.good then t.withErr .HEALTHY
  else if t.outs.bad || t.errs.bad then t.withErr .ERR_DISK
  else if t.outs.fail || t.errs.fail then t.withErr .ERR_DISK
  else t

/-- `LEVEL_CHECK`, `write_tlv_log`, `set_err`, and `exit` if the method exits. -/
def method (host : Host) (outs : OStream World) (l : Level) (exit : ControlFlow) (now : Time)
    (actor event : Bytes) (attrs : AttrMap) : Method World := fun s =>
  if levelCheck s.1.ilevel l then (.returned, s)
  else
    let s := writeTlvLog host outs now l actor event attrs s
    -- `set_err` comes before `exit`, so a `fatal` reports, too
    (exit, (setErr s.1, s.2))

end BinLogger

open BinLogger in
/-- Each method with its level, stream and exit. -/
def binLogger (host : Host) : Logger World where
  debug := method host outsRef .DEBUG .returned
  debugPlain now actor event := method host outsRef .DEBUG .returned now actor event .empty
  info := method host outsRef .INFO .returned
  infoPlain now actor event := method host outsRef .INFO .returned now actor event .empty
  warn := method host errsRef .WARN .returned
  warnPlain now actor event := method host errsRef .WARN .returned now actor event .empty
  error := method host errsRef .ERROR .returned
  errorPlain now actor event := method host errsRef .ERROR .returned now actor event .empty
  critical := method host errsRef .CRITICAL .returned
  criticalPlain now actor event :=
    method host errsRef .CRITICAL .returned now actor event .empty
  fatal := method host errsRef .FATAL (.exited EXIT_FAILURE)
  fatalPlain now actor event :=
    method host errsRef .FATAL (.exited EXIT_FAILURE) now actor event .empty
  fatalCode now exitcode := method host errsRef .FATAL (.exited exitcode) now
  fatalCodePlain now exitcode actor event :=
    method host errsRef .FATAL (.exited exitcode) now actor event .empty
  fatalNoexit := method host errsRef .FATAL .returned
  fatalNoexitPlain now actor event :=
    method host errsRef .FATAL .returned now actor event .empty
  level := TwoStream.level
  good := TwoStream.good
  getError := TwoStream.error
  close := TwoStream.close

namespace BinLogger

/-- What a call hands to the writer, as an entry of the format. -/
def logEntry (e : Klog.Entry) : Tlv.LogEntry where
  timestamp := e.now.toUInt64
  level := UInt8.ofNat e.call.level.value
  actor := e.call.actor
  event := e.call.event
  attrs := e.call.attrs

/-- On a stream that ignores what comes after a failure the checks cannot be seen from outside. -/
theorem writeTlvLog_eq_send {σ : Type} (host : Host) {outs : OStream σ} (h : outs.Sticky)
    (now : Time) (level : Level) (actor event : Bytes) (attrs : AttrMap) (s : σ) :
    writeTlvLog host outs now level actor event attrs s
      = outs.send (Tlv.entryChunks host.endian now (UInt8.ofNat level.value) actor event attrs)
          s := by
  have hne : Tlv.entryChunks host.endian now (UInt8.ofNat level.value) actor event attrs ≠ [] := by
    simp [Tlv.entryChunks, Tlv.headerChunks]
  rw [writeTlvLog, Tlv.writeTlvLog_eq_checked]
  exact h.checked_flush hne s

theorem setErr_eq (t : TwoStream) : setErr t = t.withErr (setErr t).err := by
  unfold setErr
  split
  · rfl
  · split
    · rfl
    · split <;> rfl

/-- The recorder of `BinLogger`: the chunks of the entry, and `set_err` behind them. -/
def recorder (host : Host) : Recorder where
  chunks e := (logEntry e).chunks host.endian
  settle t := (setErr t).err
  ne_nil e := by simp [Tlv.LogEntry.chunks, Tlv.entryChunks, Tlv.headerChunks]

/-- The bytes `tlv::write_tlv_log` emits for an entry. -/
def tlvOf (host : Host) (e : Klog.Entry) : Bytes := Tlv.emitted host.endian (logEntry e)

/-- A log of calls is a log of entries. -/
theorem flatMap_tlvOf {host : Host} (h : host.endian = .little) (es : List Klog.Entry) :
    es.flatMap (tlvOf host) = (es.map logEntry).flatMap (Tlv.emitted .little) := by
  rw [List.flatMap_map]
  refine List.flatMap_congr fun e _ => ?_
  rw [tlvOf, h]

/-- The record is what the writer emits. -/
theorem record_recorder (host : Host) : (recorder host).record = tlvOf host := by
  funext e
  exact (Tlv.emitted_eq_flatten host.endian (logEntry e)).symm

/-- A method, on the stream for its level, is one step of the recorder. -/
theorem method_eq_step (host : Host) (c : LogCall) (now : Time) (s : World) :
    method host (portRef c.level) c.level c.flow now c.actor c.event c.attrs s
      = (recorder host).step (.log c now) s := by
  rw [method, levelCheck_eq, portRef, writeTlvLog_eq_send host (Ofstream.sticky_ref.zoom),
    OStream.zoom_send]
  by_cases hpass : s.1.ilevel ≤ c.level
  · rw [(recorder host).step_passed hpass]
    -- the entry keeps the clock reading as the writer casts it
    have hstamp : (logEntry ⟨c, now⟩).timestamp.toInt64 = now := Int64.toInt64_toUInt64 now
    have hchunks : (recorder host).chunks ⟨c, now⟩
        = Tlv.entryChunks host.endian now (UInt8.ofNat c.level.value) c.actor c.event c.attrs := by
      show Tlv.entryChunks host.endian (logEntry ⟨c, now⟩).timestamp.toInt64 _ _ _ _ = _
      rw [hstamp]
      rfl
    simp only [hpass, decide_true, Bool.not_true, Bool.false_eq_true, if_false,
      Recorder.send, hchunks]
    rw [setErr_eq]
    rfl
  · rw [(recorder host).step_suppressed hpass]
    simp [hpass]

end BinLogger

theorem binLogger_call (host : Host) (c : LogCall) (now : Time) :
    (binLogger host).call now c
      = BinLogger.method host (portRef c.level) c.level c.flow now c.actor c.event c.attrs := by
  cases c <;> rfl

/-- **`BinLogger` is a recorder of binary records.** -/
theorem binLogger_step (host : Host) :
    (binLogger host).step = (BinLogger.recorder host).step := by
  funext op s
  cases op with
  | log c now =>
    rw [Logger.step, binLogger_call]
    exact BinLogger.method_eq_step host c now s
  | level l => rfl
  | close => rfl

end Klog
