import Klogger.Lib.OStream
import Klogger.Logger

/-!
# Text records

`logger.cc`: the timestamp of a text record, and the four functions that format a record.

`write_log` and `write_log_nt` insert piece after piece into the stream and never look at it;
each is a `send` of the pieces of one record (`writeLog_eq_send`, `writeLogNt_eq_send`). A
record with timestamp is the timestamp in brackets and the record without (`textRecord_eq`).

The machine a program runs on enters through `Host`: its byte order, and the local time the
C library breaks a clock reading down to.
-/

namespace Klog

/-- Which octet of an integer comes first in memory. -/
inductive Endian where
  | little
  | big
  deriving DecidableEq, Repr

/-- Broken-down time. `year` counts from year 0, `mon` from 0; `gmtoff` is in seconds. -/
structure Tm where
  year : Nat
  mon : Nat
  mday : Nat
  hour : Nat
  min : Nat
  sec : Nat
  gmtoff : Int

/-- The machine the program runs on. -/
structure Host where
  endian : Endian
  localtime : Time → Tm

/-- The bytes of a string literal of the source. -/
def ascii (s : String) : Bytes := s.toList.map fun c => UInt8.ofNat c.toNat

/-- The bytes of a buffer up to its first NUL. -/
def cStr (b : Bytes) : Bytes := b.takeWhile (· != 0)

/-! ## Timestamps -/

/-- The size of the buffer that `strftime` writes to. -/
def TIMESTAMP_BUF_SIZE : Nat := 32
/-- The length a timestamp is expected to have. With a year of four digits it has. -/
def TIMESTAMP_SIZE : Nat := 24

/-- A number as a stream writes it, without padding. -/
def decimal (n : Nat) : Bytes := ascii (toString n)

/-- A decimal number of at least two digits. -/
def pad2 (n : Nat) : Bytes := if n < 10 then ascii "0" ++ decimal n else decimal n

/-- `%z` -/
def zone (gmtoff : Int) : Bytes :=
  let m := gmtoff.natAbs / 60
  (if gmtoff < 0 then ascii "-" else ascii "+") ++ pad2 (m / 60) ++ pad2 (m % 60)

/-- What `date_format`, `"%FT%T%z"`, expands to. -/
def dateFormat (tm : Tm) : Bytes :=
  decimal tm.year ++ ascii "-" ++ pad2 (tm.mon + 1) ++ ascii "-" ++ pad2 tm.mday ++ ascii "T"
    ++ pad2 tm.hour ++ ascii ":" ++ pad2 tm.min ++ ascii ":" ++ pad2 tm.sec ++ zone tm.gmtoff

/-- `strftime`: the number of bytes stored and the buffer. Nothing counts as stored when the
expansion and its terminating NUL do not fit into `size` bytes. -/
def strftime (size : Nat) (expansion : Bytes) : Nat × Bytes :=
  if expansion.length + 1 ≤ size then (expansion.length, expansion) else (0, [])

/-- A timestamp that does not have the expected length is replaced by the number of seconds. -/
def timestamp (host : Host) (t : Time) : Bytes :=
  -- `localtime` is the host's, so the time zone is, too
  let tm := host.localtime t
  let r := strftime TIMESTAMP_BUF_SIZE (dateFormat tm)
  if TIMESTAMP_SIZE != r.1 then ascii (toString t.toInt) else cStr r.2

/-! ## Records -/

/-- `level_strings`. The name of `WARN` is the only one that is not spelled like its level. -/
def levelStrings : Level → Bytes
  | .DEBUG => ascii "DEBUG"
  | .INFO => ascii "INFO"
  | .WARN => ascii "WARNING"
  | .ERROR => ascii "ERROR"
  | .CRITICAL => ascii "CRITICAL"
  | .FATAL => ascii "FATAL"

variable {σ : Type}

/-- `outs << std::endl` -/
def endl (outs : OStream σ) (s : σ) : σ := outs.flush (outs.write (ascii "\n") s)

/-- The loop over the attributes: a blank and `key=value` for each. -/
def writeAttrs (outs : OStream σ) (attrs : AttrMap) (s : σ) : σ :=
  attrs.entries.foldl (fun s it => outs.emit [ascii " ", it.1, ascii "=", it.2] s) s

/-- `write_log`: timestamp, level, names, attributes, one line. -/
def writeLog (host : Host) (outs : OStream σ) (now : Time) (level : Level) (actor event : Bytes)
    (attrs : AttrMap) (s : σ) : σ :=
  let t := timestamp host now
  let s := outs.emit [ascii "[", t, ascii "] "] s
  let s := outs.emit [ascii "[", levelStrings level, ascii "] "] s
  let s := outs.emit [ascii "[", ascii "actor:", actor, ascii " event:", event, ascii "]"] s
  -- nothing looks at the stream before the end, whatever it did with the pieces
  let s := writeAttrs outs attrs s
  endl outs s

def writeLogNt (outs : OStream σ) (level : Level) (actor event : Bytes) (attrs : AttrMap)
    (s : σ) : σ :=
  let s := outs.emit [ascii "[", levelStrings level, ascii "] "] s
  let s := outs.emit [ascii "[", ascii "actor:", actor, ascii " event:", event, ascii "]"] s
  let s := writeAttrs outs attrs s
  endl outs s

/-- `log_to_string` with a level: format into an empty string stream. -/
def logToString (host : Host) (now : Time) (level : Level) (actor event : Bytes)
    (attrs : AttrMap) : Bytes :=
  (writeLog host Sink.ref now level actor event attrs .empty).accepted

/-- `log_to_string_nt`: what goes to `syslog(3)`. -/
def logToStringNt (level : Level) (actor event : Bytes) (attrs : AttrMap) : Bytes :=
  (writeLogNt Sink.ref level actor event attrs .empty).accepted

/-- `log_to_string` without a level: the names and the attributes only. -/
def logToStringBody (actor event : Bytes) (attrs : AttrMap) : Bytes :=
  let ss := Sink.ref.emit
    [ascii "[", ascii "actor:", actor, ascii " event:", event, ascii "]"] .empty
  (writeAttrs Sink.ref attrs ss).accepted

/-! ## The pieces of a record -/

/-- The pieces in the order of the insertions. -/
def logChunksNt (level : Level) (actor event : Bytes) (attrs : AttrMap) : List Bytes :=
  [ascii "[", levelStrings level, ascii "] "]
    ++ [ascii "[", ascii "actor:", actor, ascii " event:", event, ascii "]"]
    ++ attrs.entries.flatMap (fun it => [ascii " ", it.1, ascii "=", it.2])
    ++ [ascii "\n"]

def logChunks (host : Host) (now : Time) (level : Level) (actor event : Bytes)
    (attrs : AttrMap) : List Bytes :=
  [ascii "[", timestamp host now, ascii "] "] ++ logChunksNt level actor event attrs

/-- The loop writes the pieces of all attributes one after another. Induction on the attributes. -/
theorem writeAttrs_eq_emit (outs : OStream σ) (attrs : AttrMap) (s : σ) :
    writeAttrs outs attrs s
      = outs.emit (attrs.entries.flatMap fun it => [ascii " ", it.1, ascii "=", it.2]) s := by
  unfold writeAttrs
  induction attrs.entries generalizing s with
  | nil => rfl
  | cons it rest ih => rw [List.foldl_cons, ih, List.flatMap_cons, OStream.emit_append]

/-- A script with `std::endl` at its end is a `send`. -/
theorem endl_emit (outs : OStream σ) (cs : List Bytes) (s : σ) :
    endl outs (outs.emit cs s) = outs.send (cs ++ [ascii "\n"]) s := by
  rw [OStream.send, OStream.emit_append]
  rfl

theorem writeLogNt_eq_send (outs : OStream σ) (level : Level) (actor event : Bytes)
    (attrs : AttrMap) (s : σ) :
    writeLogNt outs level actor event attrs s
      = outs.send (logChunksNt level actor event attrs) s := by
  simp only [writeLogNt]
  rw [writeAttrs_eq_emit, ← OStream.emit_append, ← OStream.emit_append, endl_emit]
  rfl

/-- `write_log` is a `send` of its pieces. Whatever is known of a `send` on a stream is now known of
a record. -/
theorem writeLog_eq_send (host : Host) (outs : OStream σ) (now : Time) (level : Level)
    (actor event : Bytes) (attrs : AttrMap) (s : σ) :
    writeLog host outs now level actor event attrs s
      = outs.send (logChunks host now level actor event attrs) s := by
  simp only [writeLog]
  rw [writeAttrs_eq_emit, ← OStream.emit_append, ← OStream.emit_append, ← OStream.emit_append,
    endl_emit, logChunks, logChunksNt]
  simp only [List.append_assoc]

/-- A text record: the bytes `write_log` produces. -/
def textRecord (host : Host) (now : Time) (level : Level) (actor event : Bytes)
    (attrs : AttrMap) : Bytes :=
  (logChunks host now level actor event attrs).flatten

/-- A string stream takes all pieces, so the string is their concatenation. -/
theorem logToStringNt_eq (level : Level) (actor event : Bytes) (attrs : AttrMap) :
    logToStringNt level actor event attrs
      = (logChunksNt level actor event attrs).flatten := by
  rw [logToStringNt, writeLogNt_eq_send, Sink.reliable_empty.send]
  rfl

theorem logToString_eq (host : Host) (now : Time) (level : Level) (actor event : Bytes)
    (attrs : AttrMap) :
    logToString host now level actor event attrs
      = textRecord host now level actor event attrs := by
  rw [logToString, writeLog_eq_send, Sink.reliable_empty.send]
  rfl

/-- A record with timestamp is the timestamp in brackets, a blank, and the record without. -/
theorem textRecord_eq (host : Host) (now : Time) (level : Level) (actor event : Bytes)
    (attrs : AttrMap) :
    textRecord host now level actor event attrs
      = ascii "[" ++ timestamp host now ++ ascii "] "
        ++ logToStringNt level actor event attrs := by
  rw [textRecord, logChunks, logToStringNt_eq, List.flatten_append]
  simp

theorem textRecord_ne_nil (host : Host) (now : Time) (level : Level) (actor event : Bytes)
    (attrs : AttrMap) : textRecord host now level actor event attrs ≠ [] := by
  rw [textRecord_eq, show ascii "[" = [91] from rfl]
  simp

end Klog
