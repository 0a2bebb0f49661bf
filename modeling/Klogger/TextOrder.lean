import Mathlib.Data.List.Pairwise
import Klogger.Lib.Numerals
import Klogger.TextRecord

/-!
# Text logs in the order of time

A line of a text log begins with the date and the time of day, in fields of a fixed width from the
year down to the second. So lines compare, as strings, as their times do (`sortKey_le_iff`), and a
log is sorted exactly when the local time never runs backwards between its records
(`text_log_sorted_iff`). It does at the end of daylight saving time: the offset is behind the time
of day and has no say in it.
-/

namespace Klog

/-- Broken-down time as `localtime` gives it for a year of four digits, with an offset that `%z`
writes in four digits. -/
structure Tm.Calendar (tm : Tm) : Prop where
  year_ge : 1000 ≤ tm.year
  year_lt : tm.year < 10000
  mon : tm.mon < 12
  mday : tm.mday < 32
  hour : tm.hour < 24
  min : tm.min < 60
  sec : tm.sec < 61
  gmtoff : tm.gmtoff.natAbs < 100 * 3600

/-- The date and the time of day, most significant number first. -/
def Tm.civil (tm : Tm) : List Nat := [tm.year, tm.mon + 1, tm.mday, tm.hour, tm.min, tm.sec]

/-! ## Timestamps -/

/-- Decimal digits as bytes: they are in the order of what they stand for. -/
def decimalNumerals : Numerals UInt8 where
  base := 10
  digit d := UInt8.ofNat (48 + d)
  base_pos := by decide
  digit_lt := by decide
  digit_inj := by decide

/-- `%FT%T` -/
def stampLayout : List (Nat × Bytes) :=
  [(4, ascii "-"), (2, ascii "-"), (2, ascii "T"), (2, ascii ":"), (2, ascii ":"), (2, [])]

theorem ascii_digitChar {d : Nat} (h : d < 10) :
    UInt8.ofNat d.digitChar.toNat = decimalNumerals.digit d := by
  have hall : ∀ d < 10, UInt8.ofNat (Nat.digitChar d).toNat = decimalNumerals.digit d := by decide
  exact hall d h

/-- A number of `w + 1` digits fills a field of that width. Induction on the width. -/
theorem decimal_eq_field {w n : Nat} (hge : 10 ^ w ≤ n ∨ w = 0) (hlt : n < 10 ^ (w + 1)) :
    decimal n = decimalNumerals.field (w + 1) n := by
  induction w generalizing n with
  | zero =>
    have hdigit : n < 10 := hlt
    have hfield : decimalNumerals.field 1 n = [decimalNumerals.digit (n % 10)] := rfl
    rw [decimal_eq_map, Nat.toDigits_of_lt_base hdigit, hfield, Nat.mod_eq_of_lt hdigit,
      List.map_singleton, ascii_digitChar hdigit]
  | succ w ih =>
    have hbig : 10 ^ (w + 1) ≤ n := by omega
    rw [Nat.pow_succ] at hbig hlt
    have hpos : 0 < 10 ^ w := Nat.pow_pos (by decide)
    have hfield : decimalNumerals.field (w + 1 + 1) n
        = decimalNumerals.field (w + 1) (n / 10) ++ [decimalNumerals.digit (n % 10)] := rfl
    -- the digits in front are the number without its last digit
    rw [hfield, ← ih (.inl (by omega)) (by omega), decimal_eq_map, decimal_eq_map,
      Nat.toDigits_of_base_le (by decide) (by omega), List.map_append, List.map_singleton,
      ascii_digitChar (Nat.mod_lt n (by decide))]

theorem pad2_eq_field {n : Nat} (h : n < 100) : pad2 n = decimalNumerals.field 2 n := by
  unfold pad2
  split
  · next hsmall =>
    have hfield : decimalNumerals.field 2 n
        = [decimalNumerals.digit (n / 10 % 10)] ++ [decimalNumerals.digit (n % 10)] := rfl
    have hone : decimal n = [decimalNumerals.digit (n % 10)] := decimal_eq_field (.inr rfl) hsmall
    rw [hfield, hone, Nat.div_eq_of_lt hsmall]
    rfl
  · exact decimal_eq_field (.inl (by omega)) h

/-- On the calendar every number has a field that is wide enough. -/
theorem Tm.Calendar.fits {tm : Tm} (h : tm.Calendar) :
    decimalNumerals.Fits stampLayout tm.civil := by
  obtain ⟨hge, hyear, hmon, hmday, hhour, hmin, hsec, hoff⟩ := h
  have hpow (w : Nat) (hw : w = 2) {n : Nat} (hn : n < 100) : n < decimalNumerals.base ^ w := by
    rw [hw]
    exact hn
  exact .cons hyear (.cons (hpow 2 rfl (by omega)) (.cons (hpow 2 rfl (by omega))
    (.cons (hpow 2 rfl (by omega)) (.cons (hpow 2 rfl (by omega))
      (.cons (hpow 2 rfl (by omega)) .nil)))))

/-- Date and time of day are fields of fixed width, and the offset stands behind them. -/
theorem dateFormat_eq {tm : Tm} (h : tm.Calendar) :
    dateFormat tm = decimalNumerals.render stampLayout tm.civil ++ zone tm.gmtoff := by
  obtain ⟨hge, hyear, hmon, hmday, hhour, hmin, hsec, hoff⟩ := h
  rw [dateFormat, decimal_eq_field (w := 3) (.inl hge) hyear, pad2_eq_field (by omega),
    pad2_eq_field (by omega), pad2_eq_field (by omega), pad2_eq_field (by omega),
    pad2_eq_field (by omega)]
  simp only [stampLayout, Tm.civil, Numerals.render, List.append_assoc, List.append_nil]

theorem length_stamp (tm : Tm) : (decimalNumerals.render stampLayout tm.civil).length = 19 := by
  simp [stampLayout, Tm.civil, Numerals.render, ascii]

theorem length_zone {gmtoff : Int} (h : gmtoff.natAbs < 100 * 3600) : (zone gmtoff).length = 5 := by
  have hsign : (if gmtoff < 0 then ascii "-" else ascii "+").length = 1 := by
    split <;> rfl
  simp only [zone]
  rw [pad2_eq_field (by omega), pad2_eq_field (by omega), List.length_append, List.length_append,
    hsign, Numerals.length_field, Numerals.length_field]

/-- The buffer is large enough, and the size is the one that is asked for. -/
theorem timestamp_eq {host : Host} {t : Time} (h : (host.localtime t).Calendar) :
    timestamp host t = decimalNumerals.render stampLayout (host.localtime t).civil
      ++ zone (host.localtime t).gmtoff := by
  -- 19 and 5, which is the size that is asked for
  have hlen : (dateFormat (host.localtime t)).length = 24 := by
    rw [dateFormat_eq h, List.length_append, length_stamp, length_zone h.gmtoff]
  have hstr : cStr (dateFormat (host.localtime t)) = dateFormat (host.localtime t) := by
    rw [Syslogger.cStr_eq_self_iff]
    exact fun hmem => absurd (dateFormat_subset _ hmem) (by decide)
  have hstore : strftime TIMESTAMP_BUF_SIZE (dateFormat (host.localtime t))
      = (24, dateFormat (host.localtime t)) := by
    rw [strftime, hlen]
    rfl
  simp only [timestamp, hstore]
  rw [if_neg (by decide), hstr, dateFormat_eq h]

/-! ## Lines -/

/-- The bracket, the date and the time of day. -/
def sortKey (line : Bytes) : Bytes := line.take 20

/-- The key reaches from the bracket to the seconds. -/
theorem sortKey_lineOf {host : Host} {e : Entry} (h : (host.localtime e.now).Calendar) :
    sortKey (lineOf host e)
      = ascii "[" ++ decimalNumerals.render stampLayout (host.localtime e.now).civil := by
  rw [lineOf_layout, timestamp_eq h, sortKey, List.append_assoc, ← List.append_assoc]
  exact List.take_left' (by rw [List.length_append, length_stamp]; rfl)

/-- **Lines compare as their times do.** -/
theorem sortKey_le_iff {host : Host} {e e' : Entry} (h : (host.localtime e.now).Calendar)
    (h' : (host.localtime e'.now).Calendar) :
    sortKey (lineOf host e) ≤ sortKey (lineOf host e')
      ↔ (host.localtime e.now).civil ≤ (host.localtime e'.now).civil := by
  -- the bracket is the same on both sides, and the fields compare as the numbers
  have hlt : sortKey (lineOf host e') < sortKey (lineOf host e)
      ↔ (host.localtime e'.now).civil < (host.localtime e.now).civil := by
    rw [sortKey_lineOf h, sortKey_lineOf h', Numerals.append_left_lt_iff,
      Numerals.render_lt_iff _ h'.fits h.fits]
  exact (not_congr hlt).trans not_lt

/-- The lines of a log, from the first to the last, by the date and the time of day. -/
def Sorted (log : Bytes) : Prop :=
  (Split.lines newline log).Pairwise fun a b => sortKey a ≤ sortKey b

/-- The local time never runs backwards. -/
def InOrder (host : Host) (es : List Entry) : Prop :=
  es.Pairwise fun e e' => (host.localtime e.now).civil ≤ (host.localtime e'.now).civil

/-- For a list of entries without newlines. Every record is a line, so the lines are in order
exactly if the times are, pair by pair. -/
theorem sorted_iff {host : Host} {es : List Entry} (hfree : ∀ e ∈ es, e.call.Free newline)
    (hcalendar : ∀ e ∈ es, (host.localtime e.now).Calendar) :
    Sorted (es.flatMap (textOf host)) ↔ InOrder host es := by
  rw [Sorted, Split.lines, (splitOn_records_iff host es).mpr hfree, List.dropLast_concat,
    List.pairwise_map]
  exact List.Pairwise.iff_of_mem fun he he' => sortKey_le_iff (hcalendar _ he) (hcalendar _ he')

/-- **When a text log is sorted.** The files of a `FileRun`, in whose records there is no newline
and whose clock readings are on the calendar (`Tm.Calendar`), are sorted by the date and the time of
day exactly when the local time never runs backwards between the records of the file. -/
theorem text_log_sorted_iff {r : FileRun} (hfree : r.NoNewline)
    (hcalendar : ∀ e ∈ passed r.ops, (r.host.localtime e.now).Calendar) :
    (Sorted r.log ↔ InOrder r.host r.outs) ∧ (Sorted r.err ↔ InOrder r.host r.errs) := by
  obtain ⟨hlog, herr⟩ := r.files_eq
  rw [hlog, herr]
  exact ⟨sorted_iff (fun e he => hfree e (List.mem_of_mem_filter he))
      fun e he => hcalendar e (List.mem_of_mem_filter he),
    sorted_iff (fun e he => hfree e (List.mem_of_mem_filter he))
      fun e he => hcalendar e (List.mem_of_mem_filter he)⟩

/-- Two calls, a second apart, at the end of daylight saving time. -/
def fallBack : FileRun where
  host := ⟨.little, fun t => if t < 1477789200 then ⟨2016, 9, 30, 2, 59, 59, 7200⟩
    else ⟨2016, 9, 30, 2, 0, 0, 3600⟩⟩
  k := calm
  logfile := [0x61]
  errfile := [0x62, 0x62]
  truncate := true
  ops := [.log (.infoPlain (ascii "main") (ascii "starts")) 1477789199,
    .log (.infoPlain (ascii "main") (ascii "stops")) 1477789200]
  empty := emptyFiles_calm
  opened := rfl
  notClosed := by simp

/-- Local time is back at two o'clock, and the log is not sorted. -/
theorem text_log_sorted_fallBack : ¬ Sorted fallBack.log := by
  have hfree : fallBack.NoNewline := by
    rw [FileRun.NoNewline]
    decide +kernel
  have hcalendar : ∀ e ∈ passed fallBack.ops, (fallBack.host.localtime e.now).Calendar := by
    intro e _
    show (if e.now < 1477789200 then _ else _ : Tm).Calendar
    split <;> constructor <;> decide
  -- what is left is that 2:00:00 comes after 2:59:59
  rw [(text_log_sorted_iff hfree hcalendar).1, InOrder]
  decide +kernel

end Klog
