import Klogger.Agreement

/-!
# The files of a `BinLogger`

Which bytes a `BinLogger` can leave in its two files, from empty ones. Every pair of logs that
`readValid` accepts, with DEBUG and INFO entries in the one and the other levels in the other, is
left by some program; and no program leaves anything else (`binLogger_files_iff`).
-/

namespace Klog.Tlv

/-- Read a log by its tags, and accept it if it is what the writers make of the entries. -/
def readValid (bs : Bytes) : Option (List LogEntry) := do
  let xs ← Code.decodeAll decodeEntry bs
  if (∀ x ∈ xs, x.Sized) ∧ xs.flatMap (emitted .little) = bs then some xs else none

/-- What is accepted are the encodings of sized entries, each in one way only. -/
theorem readValid_iff {bs : Bytes} {xs : List LogEntry} :
    readValid bs = some xs ↔ (∀ x ∈ xs, x.Sized) ∧ xs.flatMap (emitted .little) = bs := by
  constructor
  · intro h
    obtain ⟨ys, _, hcheck⟩ := Option.bind_eq_some_iff.mp h
    split at hcheck
    · next hvalid =>
      obtain rfl := Option.some.inj hcheck
      exact hvalid
    · cases hcheck
  · rintro ⟨hsized, rfl⟩
    have henc : emitted .little = LogEntry.enc := funext emitted_eq
    -- the converse needs that the decoder finds the entries
    have hdecode : Code.decodeAll decodeEntry (xs.flatMap (emitted .little)) = some xs := by
      rw [henc]
      exact byTags.decodeAll_flatMap hsized
    rw [readValid, hdecode]
    exact if_pos ⟨hsized, rfl⟩

/-- The level byte is that of a level whose messages go to this stream. -/
def LogEntry.OfStream (outs : Bool) (x : LogEntry) : Prop :=
  ∃ l : Level, l.toOuts = outs ∧ x.level = UInt8.ofNat l.value

/-- A log with the entries of one of the two streams. -/
def ValidLog (outs : Bool) (bs : Bytes) : Prop :=
  ∃ xs, readValid bs = some xs ∧ ∀ x ∈ xs, x.OfStream outs

end Klog.Tlv

namespace Klog

open TwoStream

/-! ## A program for a log -/

/-- A call with attributes at a level; it does not exit. -/
def callAt (l : Level) (actor event : Bytes) (attrs : AttrMap) : LogCall :=
  match l with
  | .DEBUG => .debug actor event attrs
  | .INFO => .info actor event attrs
  | .WARN => .warn actor event attrs
  | .ERROR => .error actor event attrs
  | .CRITICAL => .critical actor event attrs
  | .FATAL => .fatalNoexit actor event attrs

theorem level_callAt (l : Level) (actor event : Bytes) (attrs : AttrMap) :
    (callAt l actor event attrs).level = l := by
  cases l <;> rfl

theorem flow_callAt (l : Level) (actor event : Bytes) (attrs : AttrMap) :
    (callAt l actor event attrs).flow = .returned := by
  cases l <;> rfl

/-- There is a call that returns and leaves this entry. -/
theorem exists_entry {outs : Bool} {x : Tlv.LogEntry} (h : x.OfStream outs) :
    ∃ e : Entry, BinLogger.logEntry e = x ∧ e.call.level.toOuts = outs
      ∧ e.call.flow = .returned := by
  obtain ⟨l, hl, hx⟩ := h
  refine ⟨⟨callAt l x.actor x.event x.attrs, x.timestamp.toInt64⟩, ?_, ?_, flow_callAt ..⟩
  · have hstamp : x.timestamp.toInt64.toUInt64 = x.timestamp := x.timestamp.toUInt64_toInt64
    have hlevel : UInt8.ofNat (callAt l x.actor x.event x.attrs).level.value = x.level := by
      rw [level_callAt, hx]
    rw [BinLogger.logEntry, hstamp, hlevel]
    cases l <;> rfl
  · rw [level_callAt, hl]

/-- So there are calls for a whole log. Induction on its entries. -/
theorem exists_entries {outs : Bool} {xs : List Tlv.LogEntry} (h : ∀ x ∈ xs, x.OfStream outs) :
    ∃ es : List Entry, es.map BinLogger.logEntry = xs
      ∧ ∀ e ∈ es, e.call.level.toOuts = outs ∧ e.call.flow = .returned := by
  induction xs with
  | nil => exact ⟨[], rfl, by simp⟩
  | cons x xs ih =>
    obtain ⟨e, hx, he⟩ := exists_entry (h x (by simp))
    obtain ⟨es, hxs, hes⟩ := ih fun y hy => h y (by simp [hy])
    exact ⟨e :: es, by rw [List.map_cons, hx, hxs], List.forall_mem_cons.mpr ⟨he, hes⟩⟩

/-- Let everything through, and make the calls. -/
def logAll (es : List Entry) : List Op := .level .DEBUG :: es.map fun e => .log e.call e.now

theorem logAll_ne_close (es : List Entry) : ∀ op ∈ logAll es, op ≠ .close :=
  List.forall_mem_cons.mpr ⟨Op.noConfusion, List.forall_mem_map.mpr fun _ _ => Op.noConfusion⟩

/-- At the lowest threshold every call is recorded, and as each returns, the next one is made.
Induction on the calls. -/
theorem exec_log {es : List Entry} (h : ∀ e ∈ es, e.call.flow = .returned)
    (before : List Entry) :
    (Run.exec Journal.step (es.map fun e => .log e.call e.now) ⟨.DEBUG, before⟩).2.entries
      = before ++ es := by
  induction es generalizing before with
  | nil => exact (List.append_nil before).symm
  | cons e es ih =>
    have hpass : Level.DEBUG ≤ e.call.level := by cases e.call.level <;> decide
    have hstep : Journal.step (.log e.call e.now) ⟨.DEBUG, before⟩
        = (.returned, ⟨.DEBUG, before ++ [e]⟩) := by
      rw [Journal.step, if_pos hpass, h e (by simp)]
    rw [List.map_cons, Run.exec_cons_returned (by rw [hstep]), hstep,
      ih (fun x hx => h x (by simp [hx]))]
    simp

theorem passed_logAll {es : List Entry} (h : ∀ e ∈ es, e.call.flow = .returned) :
    passed (logAll es) = es := exec_log h []

/-! ## The files -/

/-- What a stream has been sent is valid. -/
theorem validLog_records {host : Host} (hhost : host.endian = .little) {outs : Bool}
    {es : List Entry} (hsized : ∀ e ∈ es, (BinLogger.logEntry e).Sized)
    (hstream : ∀ e ∈ es, e.call.level.toOuts = outs) :
    Tlv.ValidLog outs (es.flatMap (BinLogger.tlvOf host)) := by
  refine ⟨es.map BinLogger.logEntry, Tlv.readValid_iff.mpr ⟨?_, ?_⟩, ?_⟩
  · exact List.forall_mem_map.mpr hsized
  · rw [BinLogger.flatMap_tlvOf hhost]
  · exact List.forall_mem_map.mpr fun e he => ⟨e.call.level, hstream e he, rfl⟩

/-- Entries for the one stream in front of those for the other: the split gives both back. -/
theorem split_append {es es' : List Entry} (h : ∀ e ∈ es, e.call.level.toOuts = true)
    (h' : ∀ e ∈ es', e.call.level.toOuts = false) :
    outsOf (es ++ es') = es ∧ errsOf (es ++ es') = es' := by
  have hall : outsOf es = es := List.filter_eq_self.mpr h
  have hnone : outsOf es' = [] := List.filter_eq_nil_iff.mpr fun e he => by simp [h' e he]
  have hall' : errsOf es' = es' := List.filter_eq_self.mpr fun e he => by simp [h' e he]
  have hnone' : errsOf es = [] := List.filter_eq_nil_iff.mpr fun e he => by simp [h e he]
  constructor
  · exact (List.filter_append ..).trans (congrArg₂ _ hall hnone) |>.trans (List.append_nil es)
  · exact (List.filter_append ..).trans (congrArg₂ _ hnone' hall')

/-- **The files a `BinLogger` can leave.** Nothing fails. Two logs are what some program without
`close()` leaves in two empty files, with strings whose sizes fit a `size_t`, if and only if both
are valid, the one with entries of the levels DEBUG and INFO and the other with entries of the other
levels. -/
theorem binLogger_files_iff {host : Host} (hhost : host.endian = .little) {k : Kernel}
    {logfile errfile : PathName} {truncate : Bool} (hempty : EmptyFiles k logfile errfile)
    (hopen : (BinLogger.new₂ logfile errfile truncate k).1.err = .HEALTHY) (log err : Bytes) :
    (∃ ops : List Op, (∀ op ∈ ops, op ≠ .close)
        ∧ (∀ e ∈ passed ops, (BinLogger.logEntry e).Sized)
        ∧ let r := Run.exec (binLogger host).step ops
            (BinLogger.new₂ logfile errfile truncate k)
          r.2.2.files (k.ino logfile) = log ∧ r.2.2.files (k.ino errfile) = err)
      ↔ Tlv.ValidLog true log ∧ Tlv.ValidLog false err := by
  have hrun {ops : List Op} (hops : ∀ op ∈ ops, op ≠ .close) :
      let r := Run.exec (binLogger host).step ops (BinLogger.new₂ logfile errfile truncate k)
      Recorded (BinLogger.tlvOf host) (r.2.2.files (k.ino logfile)) (r.2.2.files (k.ino errfile))
        (passed ops) :=
    (binLogger_empty_files host hempty hops hopen).2
  constructor
  · -- a program is given: its entries are there, in order, in the file for their levels
    rintro ⟨ops, hops, hsized, rfl, rfl⟩
    obtain ⟨houts, herrs⟩ := hrun hops
    rw [houts, herrs]
    constructor
    · exact validLog_records hhost (fun e he => hsized e (List.mem_of_mem_filter he))
        fun e he => (List.mem_filter.mp he).2
    · refine validLog_records hhost (fun e he => hsized e (List.mem_of_mem_filter he))
        fun e he => ?_
      simpa using (List.mem_filter.mp he).2
  · rintro ⟨⟨xs, hxs, hxlevel⟩, ⟨ys, hys, hylevel⟩⟩
    obtain ⟨es, rfl, hes⟩ := exists_entries hxlevel
    obtain ⟨es', rfl, hes'⟩ := exists_entries hylevel
    -- the logs are given: read them, and make a call for each entry
    obtain ⟨hsized, rfl⟩ := Tlv.readValid_iff.mp hxs
    obtain ⟨hsized', rfl⟩ := Tlv.readValid_iff.mp hys
    -- the calls for the one file, and then those for the other
    have hpassed : passed (logAll (es ++ es')) = es ++ es' := passed_logAll fun e he =>
      (List.mem_append.mp he).elim (fun h => (hes e h).2) fun h => (hes' e h).2
    obtain ⟨houts, herrs⟩ := split_append (fun e he => (hes e he).1) fun e he => (hes' e he).1
    have hops := logAll_ne_close (es ++ es')
    obtain ⟨hlog, herr⟩ := hrun hops
    rw [hpassed, houts, BinLogger.flatMap_tlvOf hhost] at hlog
    rw [hpassed, herrs, BinLogger.flatMap_tlvOf hhost] at herr
    refine ⟨logAll (es ++ es'), hops, ?_, hlog, herr⟩
    rw [hpassed]
    exact fun e he => (List.mem_append.mp he).elim
      (fun h => hsized _ (List.mem_map_of_mem h)) fun h => hsized' _ (List.mem_map_of_mem h)

/-- The log with the entry of `starts` is one of them. -/
theorem binLogger_files_starts :
    ∃ ops : List Op, (∀ op ∈ ops, op ≠ .close)
      ∧ (∀ e ∈ passed ops, (BinLogger.logEntry e).Sized)
      ∧ let r := Run.exec (binLogger utc).step ops
          (BinLogger.new₂ [0x61] [0x62, 0x62] false calm)
        r.2.2.files (calm.ino [0x61]) = Tlv.emitted .little
            (BinLogger.logEntry ⟨.infoPlain (ascii "main") (ascii "starts"), noon⟩)
          ∧ r.2.2.files (calm.ino [0x62, 0x62]) = [] := by
  refine (binLogger_files_iff (show utc.endian = .little from rfl) emptyFiles_calm rfl _ _).mpr
    ⟨⟨[BinLogger.logEntry ⟨.infoPlain (ascii "main") (ascii "starts"), noon⟩], ?_, ?_⟩,
      ⟨[], rfl, by simp⟩⟩
  · decide +kernel
  · exact fun x hx => ⟨.INFO, rfl, by rw [List.mem_singleton.mp hx]; rfl⟩

end Klog
