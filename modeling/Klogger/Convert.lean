import Klogger.Lib.Split
import Klogger.Agreement

/-!
# From binary logs to text logs

A binary log has everything in it that a text log has: reading it by its tags, and formatting
each entry as `logger.cc` does, gives the text log that the same program leaves
(`binary_to_text`).
-/

namespace Klog

def Level.ofByte (b : UInt8) : Option Level :=
  [.DEBUG, .INFO, .WARN, .ERROR, .CRITICAL, .FATAL].find? fun l => UInt8.ofNat l.value == b

/-- The text record of a binary one. -/
def Tlv.LogEntry.text (host : Host) (x : Tlv.LogEntry) : Option Bytes := do
  let level ← Level.ofByte x.level
  some (logToString host x.timestamp.toInt64 level x.actor x.event x.attrs)

/-- The text log of a binary one. -/
def toText (host : Host) (bs : Bytes) : Option Bytes := do
  let xs ← Code.decodeAll Tlv.decodeEntry bs
  let records ← xs.mapM (Tlv.LogEntry.text host)
  some records.flatten

/-- The entry that a call is written as has everything that its text record is made of. -/
theorem text_logEntry (host : Host) (e : Entry) :
    (BinLogger.logEntry e).text host = some (textOf host e) := by
  have hlevel : Level.ofByte (BinLogger.logEntry e).level = some e.call.level := by
    show Level.ofByte (UInt8.ofNat e.call.level.value) = some e.call.level
    cases e.call.level <;> decide
  -- the clock reading is cast twice, and back
  have hstamp : (BinLogger.logEntry e).timestamp.toInt64 = e.now := Int64.toInt64_toUInt64 e.now
  rw [Tlv.LogEntry.text, hlevel, hstamp]
  rfl

/-- A file of binary records is turned into the file of the text records. -/
theorem toText_records {host : Host} (hhost : host.endian = .little) {es : List Entry}
    (hsized : ∀ e ∈ es, (BinLogger.logEntry e).Sized) :
    toText host (es.flatMap (BinLogger.tlvOf host)) = some (es.flatMap (textOf host)) := by
  have henc : Tlv.emitted .little = Tlv.LogEntry.enc := funext Tlv.emitted_eq
  -- the entries are found by their tags
  have hdecode : Code.decodeAll Tlv.decodeEntry (es.flatMap (BinLogger.tlvOf host))
      = some (es.map BinLogger.logEntry) := by
    rw [BinLogger.flatMap_tlvOf hhost, henc]
    exact Tlv.byTags.decodeAll_flatMap (List.forall_mem_map.mpr hsized)
  have hrecords : (es.map BinLogger.logEntry).mapM (Tlv.LogEntry.text host)
      = some (es.map (textOf host)) :=
    Split.mapM_map_eq_some_iff.mpr fun e _ => text_logEntry host e
  rw [toText, hdecode, Option.bind_eq_bind, Option.bind_some, hrecords, List.flatMap_def]
  rfl

/-- **A binary log has the text log in it.** One program without `close()`, run on a `FileLogger`
and on a `BinLogger` with two empty files each, and nothing fails: the files of the one are the text
of the files of the other. -/
theorem binary_to_text {host : Host} (hhost : host.endian = .little) {ops : List Op}
    (hops : ∀ op ∈ ops, op ≠ .close) (hsized : ∀ e ∈ passed ops, (BinLogger.logEntry e).Sized)
    {kf kb : Kernel} {logfile errfile binfile binerr : PathName} {t u : Bool}
    (hf : EmptyFiles kf logfile errfile)
    (hfopen : (FileLogger.new₂ logfile errfile t kf).1.err = .HEALTHY)
    (hb : EmptyFiles kb binfile binerr)
    (hbopen : (BinLogger.new₂ binfile binerr u kb).1.err = .HEALTHY) :
    let f := Run.exec (fileLogger host).step ops (FileLogger.new₂ logfile errfile t kf)
    let b := Run.exec (binLogger host).step ops (BinLogger.new₂ binfile binerr u kb)
    toText host (b.2.2.files (kb.ino binfile)) = some (f.2.2.files (kf.ino logfile))
      ∧ toText host (b.2.2.files (kb.ino binerr)) = some (f.2.2.files (kf.ino errfile)) := by
  obtain ⟨_, hlog, herr⟩ := fileLogger_empty_files host hf hops hfopen
  obtain ⟨_, hbin, hbinerr⟩ := binLogger_empty_files host hb hops hbopen
  -- what is sized as a whole is sized in either file
  have hhalf (p : Entry → Bool) : ∀ e ∈ (passed ops).filter p, (BinLogger.logEntry e).Sized :=
    fun e he => hsized e (List.mem_of_mem_filter he)
  constructor
  · rw [hbin, hlog]
    exact toText_records hhost (hhalf _)
  · rw [hbinerr, herr]
    exact toText_records hhost (hhalf _)

theorem binary_to_text_warnInfo :
    let f := Run.exec (fileLogger utc).step warnInfo
      (FileLogger.new₂ [0x61] [0x62, 0x62] false calm)
    let b := Run.exec (binLogger utc).step warnInfo
      (BinLogger.new₂ [0x61] [0x62, 0x62] false calm)
    toText utc (b.2.2.files (calm.ino [0x61])) = some (f.2.2.files (calm.ino [0x61]))
      ∧ toText utc (b.2.2.files (calm.ino [0x62, 0x62]))
          = some (f.2.2.files (calm.ino [0x62, 0x62])) :=
  binary_to_text (show utc.endian = .little from rfl)
    (show ∀ op ∈ warnInfo, op ≠ .close by decide) (by decide +kernel) emptyFiles_calm
    (show (FileLogger.new₂ [0x61] [0x62, 0x62] false calm).1.err = .HEALTHY from rfl)
    emptyFiles_calm
    (show (BinLogger.new₂ [0x61] [0x62, 0x62] false calm).1.err = .HEALTHY from rfl)

end Klog
