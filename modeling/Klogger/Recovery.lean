import Klogger.Lines
import Klogger.Torn

/-!
# Reading logs that were cut off

What a reader gets back from a log that stops anywhere.

* The readers of `Klogger.TlvReader` read nothing behind what they find: what they find in a log
  they find in every log that goes on (`decodeTagged_mono`, `skipStrings_mono`). So the measure of
  `log_length` never takes a part of an entry for an entry (`sharp_byMeasure`).
* `salvaged` measures entries off a log and reads each of them by its tags. From a log that was
  cut off it gets exactly the whole entries (`salvaged_append`).
* So from the files of a `BinLogger` it gets a beginning of what was logged, whatever failed, and
  everything as long as the stream is good (`binLogger_recoverable`).
* A text log is cut at its newlines. If its file held whole lines, the lines of a `FileLogger` are
  these and the records, and only what is behind the last newline may be torn
  (`fileLogger_linesKept`).
-/

namespace Klog.Tlv

/-! ## Logs that go on -/

/-- A length field that is whole is read alike whatever comes behind it. -/
theorem decodeLength_mono {bs rest : Bytes} {n : Nat} (h : decodeLength bs = some (n, rest))
    (more : Bytes) : decodeLength (bs ++ more) = some (n, rest ++ more) := by
  cases bs with
  | nil => cases h
  | cons b bs =>
    rw [List.cons_append]
    simp only [decodeLength] at h ⊢
    split at h
    · next hshort =>
      rw [if_pos hshort]
      obtain ⟨rfl, rfl⟩ := Prod.mk.inj (Option.some.inj h)
      rfl
    · -- long form: the count of bytes that follow, all of them there already
      next hlong =>
      rw [if_neg hlong]
      split at h
      · next hle =>
        obtain ⟨rfl, rfl⟩ := Prod.mk.inj (Option.some.inj h)
        rw [List.length_append, if_pos (by omega), List.take_append_of_le_length hle,
          List.drop_append_of_le_length hle]
      · cases h

theorem decodeTagged_mono {tag : UInt8} {bs value rest : Bytes}
    (h : decodeTagged tag bs = some (value, rest)) (more : Bytes) :
    decodeTagged tag (bs ++ more) = some (value, rest ++ more) := by
  cases bs with
  | nil => cases h
  | cons t bs =>
    rw [List.cons_append]
    simp only [decodeTagged] at h ⊢
    split at h
    · next htag =>
      rw [if_pos htag]
      split at h
      · cases h
      · next n r hlen =>
        rw [decodeLength_mono hlen more]
        split at h
        · next hle =>
          obtain ⟨rfl, rfl⟩ := Prod.mk.inj (Option.some.inj h)
          dsimp only
          rw [List.length_append, if_pos (by omega), List.take_append_of_le_length hle,
            List.drop_append_of_le_length hle]
        · cases h
    · cases h

theorem skipStrings_mono {fuel n : Nat} {bs rest : Bytes} (h : skipStrings fuel n bs = some rest)
    (more : Bytes) : skipStrings fuel n (bs ++ more) = some (rest ++ more) := by
  fun_induction skipStrings fuel n bs with
  | case1 fuel bs =>
    obtain rfl := Option.some.inj h
    cases fuel <;> rfl
  | case2 n bs => cases h
  | case3 fuel n bs hnone => cases h
  | case4 fuel n bs s r hsome hle ih =>
    rw [skipStrings, decodeTagged_mono hsome more]
    dsimp only
    rw [if_pos hle]
    exact ih h
  | case5 fuel n bs s r hsome hgt => cases h

/-! ## Torn entries -/

/-- Actor and event count for two each at least. -/
theorem LogEntry.Measured.length_gt {x : LogEntry} (h : x.Measured) : 13 < x.length.toNat := by
  have hactor := recordLength_pos x.actor
  rw [x.toNat_length, Nat.mod_eq_of_lt h.2, LogEntry.strings, List.map_cons, List.sum_cons]
  omega

/-- **A part of an entry is never measured**: its length field is not there yet, or a string
record that the outer length stands for is not. -/
theorem measureEntry_torn {x : LogEntry} (h : x.Measured) {p : Bytes} (hp : p <+: x.enc)
    (hne : p ≠ x.enc) : measureEntry p = none := by
  obtain ⟨q, hq⟩ := hp
  have hq0 : q ≠ [] := by
    rintro rfl
    rw [List.append_nil] at hq
    exact hne hq
  cases p with
  | nil => rfl
  | cons tag bs =>
    have hhead : tag = TLogEntry ∧ bs ++ q = encLength x.length.toNat ++ x.body :=
      List.cons.inj hq
    obtain ⟨rfl, hbs⟩ := hhead
    rw [measureEntry, if_pos rfl]
    cases hlen : decodeLength bs with
    | none => rfl
    | some r =>
      obtain ⟨n, rest⟩ := r
      -- the length field is whole, so the rest of `bs` is a part of the body
      have hwhole := decodeLength_mono hlen q
      rw [hbs, decodeLength_encLength x.length.toNat_lt] at hwhole
      obtain ⟨rfl, hbody⟩ := Prod.mk.inj (Option.some.inj hwhole)
      have hpos := h.length_gt
      have hsum : x.length.toNat = 13 + (x.strings.map recordLength).sum := by
        rw [x.toNat_length, Nat.mod_eq_of_lt h.2]
      cases hskip : skipStrings x.length.toNat (x.length.toNat - 13) (rest.drop 13) with
      | none => simp [hskip]
      | some left =>
        exfalso
        rcases Nat.le_total rest.length 13 with hle | hge
        · -- there are no strings yet
          obtain ⟨m, hm⟩ : ∃ m, x.length.toNat = m + 1 := ⟨x.length.toNat - 1, by omega⟩
          obtain ⟨l, hl⟩ : ∃ l, x.length.toNat - 13 = l + 1 := ⟨x.length.toNat - 14, by omega⟩
          rw [List.drop_eq_nil_of_le hle, hl, hm] at hskip
          cases hskip
        · -- the strings of the whole entry leave nothing, not even `q`
          have hdrop : x.body.drop 13 = x.strings.flatMap encString ++ [] := by
            rw [LogEntry.body, ← List.append_assoc, List.append_nil]
            exact List.drop_left' (by simp [encTimestamp, encLevel])
          have hmore := skipStrings_mono hskip q
          rw [← List.drop_append_of_le_length hge, ← hbody, hdrop, hsum, Nat.add_sub_cancel_left,
            skipStrings_append h.1 [] _ (by omega)] at hmore
          have hnil := (List.append_eq_nil_iff.mp (Option.some.inj hmore).symm).2
          exact hq0 hnil

theorem sharp_byMeasure : byMeasure.Sharp := by
  intro x hx p hp hne n hcut
  rw [show byMeasure.cut p = measureEntry p from rfl, measureEntry_torn hx hp hne] at hcut
  cases hcut

/-! ## Salvage -/

/-- Measure the entries that a log begins with, and read each of them. -/
def salvaged (bs : Bytes) : List LogEntry :=
  (Code.salvage measureEntry bs.length bs).1.filterMap fun w => (decodeEntry w).map Prod.fst

/-- An entry by itself is read as what it is. -/
theorem read_entries {xs : List LogEntry} (hxs : ∀ x ∈ xs, x.Measured) :
    ((xs.map LogEntry.enc).filterMap fun w => (decodeEntry w).map Prod.fst) = xs := by
  have hread (x : LogEntry) (hx : x ∈ xs) : (decodeEntry x.enc).map Prod.fst = some x := by
    have hdec : decodeEntry (x.enc ++ []) = some (x, []) :=
      byTags.dec_enc x (hxs x hx).1 [] byTags.follow_nil
    rw [List.append_nil] at hdec
    rw [hdec]
    rfl
  rw [List.filterMap_map]
  exact (List.filterMap_congr hread).trans List.filterMap_some

/-- The fuel of `salvage` is the length of the log; there are no more entries than bytes. -/
theorem length_le_log {xs : List LogEntry} (hxs : ∀ x ∈ xs, x.Measured) (bs : Bytes) :
    xs.length ≤ (xs.flatMap LogEntry.enc ++ bs).length := by
  have hle : xs.length ≤ (xs.flatMap LogEntry.enc).length := byMeasure.length_le_flatMap hxs
  rw [List.length_append]
  omega

/-- **Salvage.** From whole entries with a torn one behind them it gets the whole ones. -/
theorem salvaged_append {xs ys : List LogEntry} (hxs : ∀ x ∈ xs, x.Measured)
    (hys : ∀ y ∈ ys, y.Measured) {p : Bytes} (hp : Code.Tail LogEntry.enc ys p) :
    salvaged (xs.flatMap LogEntry.enc ++ p) = xs := by
  have hfind : Code.salvage measureEntry (xs.flatMap LogEntry.enc ++ p).length
      (xs.flatMap LogEntry.enc ++ p) = (xs.map LogEntry.enc, p) :=
    sharp_byMeasure.salvage_flatMap hxs hys hp _ (length_le_log hxs p)
  rw [salvaged, hfind, read_entries hxs]

/-- The entries that a log begins with are salvaged, whatever is behind them. -/
theorem prefix_salvaged {xs : List LogEntry} (hxs : ∀ x ∈ xs, x.Measured) (bs : Bytes) :
    xs <+: salvaged (xs.flatMap LogEntry.enc ++ bs) := by
  -- the measure finds these entries first, and then maybe more
  obtain ⟨more, hfind⟩ : ∃ more, (Code.salvage measureEntry (xs.flatMap LogEntry.enc ++ bs).length
      (xs.flatMap LogEntry.enc ++ bs)).1 = xs.map LogEntry.enc ++ more :=
    ⟨_, congrArg Prod.fst (byMeasure.salvage_append hxs bs _ (length_le_log hxs bs))⟩
  rw [salvaged, hfind, List.filterMap_append, read_entries hxs]
  exact List.prefix_append _ _

end Klog.Tlv

namespace Klog

open TwoStream

/-- The log consists of old entries, a number of whole new ones and at most one torn entry;
salvage gets all but the torn one, and all new ones if the stream is good. -/
def Recoverable (log : Bytes) (old new : List Tlv.LogEntry) (o : Ofstream) : Prop :=
  ∃ whole rest p, new = whole ++ rest
    ∧ log = (old ++ whole).flatMap (Tlv.emitted .little) ++ p
    ∧ Code.Tail (Tlv.emitted .little) rest p
    ∧ Tlv.salvaged log = old ++ whole
    ∧ (o.good = true → rest = [])

/-- A file to which a beginning of the records was added can be recovered. -/
theorem recoverable_of_addsBeginning {host : Host} (hhost : host.endian = .little) {i : Ino}
    {k k' : Kernel} {o : Ofstream} {es : List Entry} {old : List Tlv.LogEntry}
    (hold : k.files i = old.flatMap (Tlv.emitted .little)) (holdFits : ∀ x ∈ old, x.Fits)
    (hfits : ∀ e ∈ es, (BinLogger.logEntry e).Fits)
    (h : AddsBeginning (BinLogger.tlvOf host) i k k' o es) :
    Recoverable (k'.files i) old (es.map BinLogger.logEntry) o := by
  obtain ⟨c, hc, hfile, hgood⟩ := h
  rw [BinLogger.flatMap_tlvOf hhost] at hc hgood
  -- a beginning of a row of records is whole records and a part of the next one
  obtain ⟨whole, rest, p, hsplit, rfl, htail⟩ := Code.exists_tail hc
  have hlog : k'.files i = (old ++ whole).flatMap (Tlv.emitted .little) ++ p := by
    rw [hfile, hold, List.flatMap_append, List.append_assoc]
  refine ⟨whole, rest, p, hsplit, hlog, htail, ?_, fun hg => ?_⟩
  · have hnew (x : Tlv.LogEntry) (hx : x ∈ whole ++ rest) : x.Measured := by
      rw [← hsplit] at hx
      obtain ⟨e, he, rfl⟩ := List.mem_map.mp hx
      exact (hfits e he).measured
    have henc : Tlv.emitted .little = Tlv.LogEntry.enc := funext Tlv.emitted_eq
    rw [hlog]
    rw [henc] at htail ⊢
    refine Tlv.salvaged_append (fun x hx => ?_) (fun y hy => hnew y (by simp [hy])) htail
    rcases List.mem_append.mp hx with hx | hx
    · exact (holdFits x hx).measured
    · exact hnew x (by simp [hx])
  · -- everything is there, so nothing is torn
    have hall := hgood hg
    rw [hsplit, List.flatMap_append] at hall
    rw [List.append_cancel_left hall] at htail
    exact htail.eq_nil

/-- **What a reader gets back from a `BinLogger`.** The files held whole entries when the
constructor returned; then anything may fail, and any operation may be called. Each file holds the
old entries, a number of the entries that were logged to it, whole and in order, and at most a part
of one more. The reader gets the whole ones back; if the stream is still good, these are all. -/
theorem binLogger_recoverable {host : Host} (hhost : host.endian = .little)
    (logfile errfile : PathName) (truncate : Bool) {k : Kernel}
    (hdiff : k.ino logfile ≠ k.ino errfile) (old oldErr : List Tlv.LogEntry)
    (hold : (BinLogger.new₂ logfile errfile truncate k).2.files (k.ino logfile)
      = old.flatMap (Tlv.emitted .little))
    (holdErr : (BinLogger.new₂ logfile errfile truncate k).2.files (k.ino errfile)
      = oldErr.flatMap (Tlv.emitted .little))
    (holdFits : ∀ x ∈ old ++ oldErr, x.Fits) (ops : List Op)
    (hfits : ∀ e ∈ passed ops, (BinLogger.logEntry e).Fits) :
    let r := Run.exec (binLogger host).step ops (BinLogger.new₂ logfile errfile truncate k)
    Recoverable (r.2.2.files (k.ino logfile)) old
        ((outsOf (passed ops)).map BinLogger.logEntry) r.2.1.outs
      ∧ Recoverable (r.2.2.files (k.ino errfile)) oldErr
          ((errsOf (passed ops)).map BinLogger.logEntry) r.2.1.errs := by
  obtain ⟨_, houts, herrs⟩ := binLogger_torn host logfile errfile truncate hdiff ops
  exact ⟨recoverable_of_addsBeginning hhost hold (fun x hx => holdFits x (by simp [hx]))
      (fun e he => hfits e (List.mem_of_mem_filter he)) houts,
    recoverable_of_addsBeginning hhost holdErr (fun x hx => holdFits x (by simp [hx]))
      (fun e he => hfits e (List.mem_of_mem_filter he)) herrs⟩

/-- One operation fails, and its entry is torn; the other one is salvaged. -/
theorem binLogger_recoverable_flaky :
    let r := Run.exec (binLogger utc).step warnInfo
      (BinLogger.new₂ [0x61] [0x62, 0x62] true flaky)
    Recoverable (r.2.2.files 1) [] ((outsOf (passed warnInfo)).map BinLogger.logEntry) r.2.1.outs
      ∧ Recoverable (r.2.2.files 2) [] ((errsOf (passed warnInfo)).map BinLogger.logEntry)
          r.2.1.errs
      ∧ Tlv.salvaged (r.2.2.files 1) = (outsOf (passed warnInfo)).map BinLogger.logEntry := by
  obtain ⟨houts, herrs⟩ := binLogger_recoverable (show utc.endian = .little from rfl) [0x61]
    [0x62, 0x62] true (k := flaky) (by decide) [] [] rfl rfl (by simp) warnInfo
    (by decide +kernel)
  exact ⟨houts, herrs, by decide +kernel⟩

/-! ## Text logs -/

/-- What a file holds that consists of these lines, each with its newline. -/
def linesText (ls : List Bytes) : Bytes := ls.flatMap fun l => l ++ [newline]

/-- The log consists of old lines, a number of whole records and at most one torn record; splitting
it at newlines gives the old lines, the line of each whole record, and the torn one behind the
last newline. -/
def LinesKept (host : Host) (log : Bytes) (old : List Bytes) (es : List Entry) (o : Ofstream) :
    Prop :=
  ∃ whole rest p, es = whole ++ rest
    ∧ log = linesText old ++ whole.flatMap (textOf host) ++ p
    ∧ Code.Tail (textOf host) rest p
    ∧ log.splitOn newline = old ++ whole.map (lineOf host) ++ [p]
    ∧ (o.good = true → rest = [])

/-- A part of a record has no newline in it: the newline comes last. -/
theorem not_mem_of_tail {host : Host} {es : List Entry} (hfree : ∀ e ∈ es, e.call.Free newline)
    {p : Bytes} (h : Code.Tail (textOf host) es p) : newline ∉ p := by
  rcases h with ⟨_, rfl⟩ | ⟨e, es', rfl, hp, hne⟩
  · exact List.not_mem_nil
  · rw [textOf_eq_lineOf] at hp hne
    have hline : p <+: lineOf host e := by
      rcases List.prefix_concat_iff.mp hp with heq | hle
      · exact absurd heq hne
      · exact hle
    exact fun hmem => not_mem_lineOf_iff.mpr (hfree e (by simp)) (hline.subset hmem)

/-- A file of whole lines to which a beginning of the records was added keeps its lines. -/
theorem linesKept_of_addsBeginning {host : Host} {i : Ino} {k k' : Kernel} {o : Ofstream}
    {es : List Entry} {old : List Bytes} (hold : k.files i = linesText old)
    (holdFree : ∀ l ∈ old, newline ∉ l) (hfree : ∀ e ∈ es, e.call.Free newline)
    (h : AddsBeginning (textOf host) i k k' o es) : LinesKept host (k'.files i) old es o := by
  obtain ⟨c, hc, hfile, hgood⟩ := h
  obtain ⟨whole, rest, p, rfl, rfl, htail⟩ := Code.exists_tail hc
  have hlog : k'.files i = linesText old ++ whole.flatMap (textOf host) ++ p := by
    rw [hfile, hold, List.append_assoc]
  refine ⟨whole, rest, p, rfl, hlog, htail, ?_, fun hg => ?_⟩
  · have hlines : ∀ e ∈ whole, newline ∉ lineOf host e := fun e he =>
      not_mem_lineOf_iff.mpr (hfree e (by simp [he]))
    have hlast : newline ∉ p := not_mem_of_tail (fun e he => hfree e (by simp [he])) htail
    -- old lines and whole records are terminated pieces alike, and no piece has a newline
    rw [hlog, linesText, flatMap_textOf, List.append_assoc,
      Split.splitOn_flatMap_append (fun l => l) _ holdFree,
      Split.splitOn_flatMap_append _ _ hlines, List.splitOn_eq_singleton hlast, List.map_id',
      List.append_assoc]
  · have hall := hgood hg
    rw [List.flatMap_append] at hall
    rw [List.append_cancel_left hall] at htail
    exact htail.eq_nil

/-- **What a reader gets back from a `FileLogger`.** The files held whole lines when the
constructor returned (a file without old lines was empty), and no string that is recorded has a
newline in it; then anything may fail, and any operation may be called. Every line that ends with a
newline is an old one or a record, whole and in order; what may be torn is behind the last newline.
If the stream is still good, all records are there. -/
theorem fileLogger_linesKept (host : Host) (logfile errfile : PathName) (truncate : Bool)
    {k : Kernel} (hdiff : k.ino logfile ≠ k.ino errfile) (old oldErr : List Bytes)
    (hold : (FileLogger.new₂ logfile errfile truncate k).2.files (k.ino logfile) = linesText old)
    (holdErr : (FileLogger.new₂ logfile errfile truncate k).2.files (k.ino errfile)
      = linesText oldErr)
    (holdFree : ∀ l ∈ old ++ oldErr, newline ∉ l) (ops : List Op)
    (hfree : ∀ e ∈ passed ops, e.call.Free newline) :
    let r := Run.exec (fileLogger host).step ops (FileLogger.new₂ logfile errfile truncate k)
    LinesKept host (r.2.2.files (k.ino logfile)) old (outsOf (passed ops)) r.2.1.outs
      ∧ LinesKept host (r.2.2.files (k.ino errfile)) oldErr (errsOf (passed ops)) r.2.1.errs := by
  obtain ⟨_, houts, herrs⟩ := fileLogger_torn host logfile errfile truncate hdiff ops
  exact ⟨linesKept_of_addsBeginning hold (fun l hl => holdFree l (by simp [hl]))
      (fun e he => hfree e (List.mem_of_mem_filter he)) houts,
    linesKept_of_addsBeginning holdErr (fun l hl => holdFree l (by simp [hl]))
      (fun e he => hfree e (List.mem_of_mem_filter he)) herrs⟩

/-- One operation fails, behind the line `old` that the log file held. -/
theorem fileLogger_linesKept_flaky :
    let files := Function.update flaky.files 1 (linesText [ascii "old"])
    let k : Kernel := { flaky with files := files }
    let r := Run.exec (fileLogger utc).step warnInfo (FileLogger.new₂ [0x61] [0x62, 0x62] false k)
    LinesKept utc (r.2.2.files (k.ino [0x61])) [ascii "old"] (outsOf (passed warnInfo)) r.2.1.outs
      ∧ LinesKept utc (r.2.2.files (k.ino [0x62, 0x62])) [] (errsOf (passed warnInfo))
          r.2.1.errs :=
  fileLogger_linesKept utc [0x61] [0x62, 0x62] false (by decide) [ascii "old"] [] (by decide)
    (by decide) (by decide) warnInfo (by decide +kernel)

end Klog
