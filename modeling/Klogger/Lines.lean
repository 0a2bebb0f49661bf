import Klogger.Lib.Split
import Klogger.Agreement

/-!
# Lines of text logs

A text record ends with a newline, and `write_log` copies the strings of a call as they are. So
the files of a `FileLogger` have a line for every record and another one for every newline in
the strings of a record (`length_lines_records`). Two runs that call the same methods with
other strings are compared by what is left of them without the strings (`SameMethods`).
-/

namespace Klog

def newline : UInt8 := 0x0A

/-! ## Runs without their strings -/

/-- The same method, called with empty strings. -/
def LogCall.shape : LogCall → LogCall
  | .debug .. => .debug [] [] .empty
  | .debugPlain .. => .debugPlain [] []
  | .info .. => .info [] [] .empty
  | .infoPlain .. => .infoPlain [] []
  | .warn .. => .warn [] [] .empty
  | .warnPlain .. => .warnPlain [] []
  | .error .. => .error [] [] .empty
  | .errorPlain .. => .errorPlain [] []
  | .critical .. => .critical [] [] .empty
  | .criticalPlain .. => .criticalPlain [] []
  | .fatal .. => .fatal [] [] .empty
  | .fatalPlain .. => .fatalPlain [] []
  | .fatalCode exitcode .. => .fatalCode exitcode [] [] .empty
  | .fatalCodePlain exitcode .. => .fatalCodePlain exitcode [] []
  | .fatalNoexit .. => .fatalNoexit [] [] .empty
  | .fatalNoexitPlain .. => .fatalNoexitPlain [] []

/-- The same operation, at time 0 and with empty strings. -/
def Op.shape : Op → Op
  | .log c _ => .log c.shape 0
  | .level l => .level l
  | .close => .close

/-- The same methods in the same order, with any strings and clock readings. -/
def SameMethods (ops ops' : List Op) : Prop := ops.map Op.shape = ops'.map Op.shape

instance (ops ops' : List Op) : Decidable (SameMethods ops ops') :=
  inferInstanceAs (Decidable (ops.map Op.shape = ops'.map Op.shape))

def Entry.shape (e : Entry) : Entry := ⟨e.call.shape, 0⟩

def Journal.shape (j : Journal) : Journal := ⟨j.threshold, j.entries.map Entry.shape⟩

theorem level_shape (c : LogCall) : c.shape.level = c.level := by
  cases c <;> rfl

theorem flow_shape (c : LogCall) : c.shape.flow = c.flow := by
  cases c <;> rfl

/-- The strings of a call decide neither whether it is recorded nor whether it exits. -/
theorem step_shape (op : Op) (j : Journal) :
    Journal.step op.shape j.shape = ((Journal.step op j).1, (Journal.step op j).2.shape) := by
  cases op with
  | log c now =>
    simp only [Op.shape, Journal.step, level_shape, flow_shape]
    by_cases hpass : j.threshold ≤ c.level
    · rw [if_pos (show j.shape.threshold ≤ c.level from hpass), if_pos hpass]
      simp [Journal.shape, Entry.shape]
    · rw [if_neg (show ¬ j.shape.threshold ≤ c.level from hpass), if_neg hpass]
  | level l => rfl
  | close => rfl

/-- So the shapes of the entries are those of the operations. The run of the abstract machine is
relabelled (`Run.exec_map`). -/
theorem passed_shape (ops : List Op) :
    passed (ops.map Op.shape) = (passed ops).map Entry.shape :=
  congrArg (·.2.entries) (Run.exec_map step_shape ops Journal.init)

/-- On which stream an entry goes can be seen from its shape. -/
theorem outsOf_map_shape (es : List Entry) :
    outsOf (es.map Entry.shape) = (outsOf es).map Entry.shape := by
  rw [outsOf, List.filter_map]
  simp only [Function.comp_def, Entry.shape, level_shape]
  rfl

theorem errsOf_map_shape (es : List Entry) :
    errsOf (es.map Entry.shape) = (errsOf es).map Entry.shape := by
  rw [errsOf, List.filter_map]
  simp only [Function.comp_def, Entry.shape, level_shape]
  rfl

/-- Runs of the same methods record as many entries on each of the two streams. -/
theorem SameMethods.length_eq {ops ops' : List Op} (h : SameMethods ops ops') :
    (outsOf (passed ops)).length = (outsOf (passed ops')).length
      ∧ (errsOf (passed ops)).length = (errsOf (passed ops')).length := by
  have hpassed : (passed ops).map Entry.shape = (passed ops').map Entry.shape := by
    rw [← passed_shape, ← passed_shape, h]
  have houts := congrArg (fun es => (outsOf es).length) hpassed
  have herrs := congrArg (fun es => (errsOf es).length) hpassed
  simp only [outsOf_map_shape, List.length_map] at houts
  simp only [errsOf_map_shape, List.length_map] at herrs
  exact ⟨houts, herrs⟩

/-! ## Records and lines -/

/-- A text record without the newline at its end. -/
def lineOf (host : Host) (e : Entry) : Bytes := (textOf host e).dropLast

/-- The newlines in the strings of the entries. -/
def newlines (es : List Entry) : Nat :=
  (es.map fun e => (e.call.strings.map (·.count newline)).sum).sum

theorem textOf_eq_lineOf (host : Host) (e : Entry) :
    textOf host e = lineOf host e ++ [newline] := by
  -- the newline is the last field of the layout
  have hlast : ∃ line, textOf host e = line ++ [newline] := by
    rw [textOf, logToString_eq, textRecord_eq, logToStringNt_layout]
    simp only [← List.append_assoc]
    exact ⟨_, rfl⟩
  obtain ⟨line, hline⟩ := hlast
  rw [lineOf, hline, List.dropLast_concat]

/-- Every newline inside a record is one of the strings'. -/
theorem count_lineOf (host : Host) (e : Entry) :
    (lineOf host e).count newline = (e.call.strings.map (·.count newline)).sum := by
  have hctrl : newline < 0x20 := by decide
  have hstamp : (ascii "[" ++ timestamp host e.now ++ ascii "] ").count newline = 0 := by
    rw [List.count_append, List.count_append,
      List.count_eq_zero.mpr ((printable_timestamp host e.now).not_mem hctrl)]
    rfl
  have hrecord : (textOf host e).count newline
      = (e.call.strings.map (·.count newline)).sum + 1 := by
    rw [textOf_eq, List.count_append, hstamp, Nat.zero_add]
    exact count_formatted hctrl e.call
  rw [textOf_eq_lineOf, List.count_append, List.count_singleton_self] at hrecord
  omega

/-- There is a newline inside a record exactly if there is one in its strings. -/
theorem not_mem_lineOf_iff {host : Host} {e : Entry} :
    newline ∉ lineOf host e ↔ e.call.Free newline := by
  rw [← List.count_eq_zero, count_lineOf, sum_count_eq_zero_iff]

theorem flatMap_textOf (host : Host) (es : List Entry) :
    es.flatMap (textOf host) = es.flatMap fun e => lineOf host e ++ [newline] :=
  congrArg es.flatMap (funext (textOf_eq_lineOf host))

/-- A line for every record, and one for every newline in its strings. -/
theorem length_lines_records (host : Host) (es : List Entry) :
    (Split.lines newline (es.flatMap (textOf host))).length = es.length + newlines es := by
  rw [Split.length_lines, flatMap_textOf, Split.count_flatMap_terminated]
  simp only [count_lineOf, newlines]

/-- The lines are the records exactly if no string has a newline in it. -/
theorem splitOn_records_iff (host : Host) (es : List Entry) :
    (es.flatMap (textOf host)).splitOn newline = es.map (lineOf host) ++ [[]]
      ↔ ∀ e ∈ es, e.call.Free newline := by
  rw [flatMap_textOf, Split.splitOn_flatMap_iff]
  simp only [not_mem_lineOf_iff]

theorem newlines_eq_zero {es : List Entry} (h : ∀ e ∈ es, e.call.Free newline) :
    newlines es = 0 := by
  rw [newlines, List.sum_eq_zero_iff_forall_eq_nat]
  intro n hn
  obtain ⟨e, he, rfl⟩ := List.mem_map.mp hn
  exact sum_count_eq_zero_iff.mpr (h e he)

/-! ## Runs of a `FileLogger` -/

/-- A run of a two-file `FileLogger`, from empty files, on which nothing fails; there is no
`close()` in it. -/
structure FileRun where
  host : Host
  k : Kernel
  logfile : PathName
  errfile : PathName
  truncate : Bool
  ops : List Op
  empty : EmptyFiles k logfile errfile
  opened : (FileLogger.new₂ logfile errfile truncate k).1.err = .HEALTHY
  notClosed : ∀ op ∈ ops, op ≠ .close

namespace FileRun

/-- The system after the run. -/
def final (r : FileRun) : Kernel :=
  (Run.exec (fileLogger r.host).step r.ops
    (FileLogger.new₂ r.logfile r.errfile r.truncate r.k)).2.2

def log (r : FileRun) : Bytes := r.final.files (r.k.ino r.logfile)

def err (r : FileRun) : Bytes := r.final.files (r.k.ino r.errfile)

/-- The entries that are recorded in each of the files. -/
def outs (r : FileRun) : List Entry := outsOf (passed r.ops)

def errs (r : FileRun) : List Entry := errsOf (passed r.ops)

/-- Splitting the files at newlines gives the records, one line each, and nothing else. -/
def OneLineEach (r : FileRun) : Prop :=
  r.log.splitOn newline = r.outs.map (lineOf r.host) ++ [[]]
    ∧ r.err.splitOn newline = r.errs.map (lineOf r.host) ++ [[]]

/-- Each file has as many lines as in the other run. -/
def SameLines (r r' : FileRun) : Prop :=
  (Split.lines newline r.log).length = (Split.lines newline r'.log).length
    ∧ (Split.lines newline r.err).length = (Split.lines newline r'.err).length

/-- There is no newline in any actor, event, key or value that is recorded. -/
def NoNewline (r : FileRun) : Prop := ∀ e ∈ passed r.ops, e.call.Free newline

theorem files_eq (r : FileRun) :
    r.log = r.outs.flatMap (textOf r.host) ∧ r.err = r.errs.flatMap (textOf r.host) := by
  have h := exec_empty_files (textRecorder r.host)
    (m := if r.truncate then FileLogger.TRUNC_FLAGS else FileLogger.DEFAULT_FLAGS)
    (by cases r.truncate <;> rfl) r.empty r.opened r.notClosed
  rw [record_textRecorder, ← fileLogger_step] at h
  exact h.2

/-- A line for each record, in both files, exactly if no string has a newline. -/
theorem oneLineEach_iff (r : FileRun) : r.OneLineEach ↔ r.NoNewline := by
  rw [OneLineEach, r.files_eq.1, r.files_eq.2, splitOn_records_iff, splitOn_records_iff]
  refine ⟨fun h e he => ?_, fun h => ⟨fun e he => ?_, fun e he => ?_⟩⟩
  · -- every entry is in one of the two files
    cases hout : e.call.level.toOuts with
    | true => exact h.1 e (List.mem_filter.mpr ⟨he, hout⟩)
    | false => exact h.2 e (List.mem_filter.mpr ⟨he, by simp [hout]⟩)
  · exact h e (List.mem_of_mem_filter he)
  · exact h e (List.mem_of_mem_filter he)

/-- Two runs of the same methods have as many records in each file, so the lines differ by the
newlines in the strings. -/
theorem sameLines_iff {r r' : FileRun} (h : SameMethods r.ops r'.ops) :
    r.SameLines r' ↔ newlines r.outs = newlines r'.outs ∧ newlines r.errs = newlines r'.errs := by
  obtain ⟨houts, herrs⟩ := h.length_eq
  rw [SameLines, r.files_eq.1, r.files_eq.2, r'.files_eq.1, r'.files_eq.2, length_lines_records,
    length_lines_records, length_lines_records, length_lines_records]
  simp only [outs, errs]
  rw [houts, herrs, Nat.add_left_cancel_iff, Nat.add_left_cancel_iff]

theorem NoNewline.newlines_eq {r : FileRun} (h : r.NoNewline) :
    newlines r.outs = 0 ∧ newlines r.errs = 0 :=
  ⟨newlines_eq_zero fun e he => h e (List.mem_of_mem_filter he),
    newlines_eq_zero fun e he => h e (List.mem_of_mem_filter he)⟩

end FileRun

/-- **Lines and records.** Two runs that call the same methods leave as many lines in each
file, and a line for each record, if and only if no string that is recorded in either has a
newline in it. The numbers of lines alone are equal exactly when as many newlines were passed
in the strings for each file. -/
theorem text_lines_iff {r r' : FileRun} (h : SameMethods r.ops r'.ops) :
    ((r.SameLines r' ∧ r.OneLineEach ∧ r'.OneLineEach) ↔ r.NoNewline ∧ r'.NoNewline)
      ∧ (r.SameLines r'
        ↔ newlines r.outs = newlines r'.outs ∧ newlines r.errs = newlines r'.errs) := by
  refine ⟨?_, FileRun.sameLines_iff h⟩
  rw [r.oneLineEach_iff, r'.oneLineEach_iff, FileRun.sameLines_iff h]
  refine ⟨fun hall => hall.2, fun hfree => ⟨?_, hfree⟩⟩
  obtain ⟨houts, herrs⟩ := hfree.1.newlines_eq
  obtain ⟨houts', herrs'⟩ := hfree.2.newlines_eq
  rw [houts, herrs, houts', herrs']
  exact ⟨rfl, rfl⟩

/-- A run of one call on two fresh files. -/
def oneCall (event : Bytes) : FileRun where
  host := utc
  k := calm
  logfile := [0x61]
  errfile := [0x62, 0x62]
  truncate := false
  ops := [.log (.infoPlain (ascii "main") event) noon]
  empty := emptyFiles_calm
  opened := rfl
  notClosed := by simp

theorem text_lines_starts :
    (((oneCall (ascii "starts")).SameLines (oneCall [])
          ∧ (oneCall (ascii "starts")).OneLineEach ∧ (oneCall []).OneLineEach)
        ↔ (oneCall (ascii "starts")).NoNewline ∧ (oneCall []).NoNewline) :=
  (text_lines_iff (show SameMethods (oneCall (ascii "starts")).ops (oneCall []).ops by decide)).1

/-- An event that closes its record and goes on with the beginning of another. -/
def forged : Bytes :=
  ascii "starts]\n[2016-03-18T12:36:11+0000] [INFO] [actor:root event:logs in"

/-- One record with a newline in its event is two lines, and the file is the one that two
records leave. -/
theorem newline_forges_line :
    SameMethods (oneCall forged).ops (oneCall (ascii "starts")).ops
      ∧ ¬ (oneCall forged).SameLines (oneCall (ascii "starts"))
      ∧ (oneCall forged).outs.length = 1
      ∧ (oneCall forged).log
        = textOf utc ⟨.infoPlain (ascii "main") (ascii "starts"), noon⟩
          ++ textOf utc ⟨.infoPlain (ascii "root") (ascii "logs in"), noon⟩
      ∧ ¬ (oneCall forged).OneLineEach := by
  have hmethods : SameMethods (oneCall forged).ops (oneCall (ascii "starts")).ops := by decide
  refine ⟨hmethods, ?_, by decide +kernel, by decide +kernel, ?_⟩
  · -- one newline against none
    rw [FileRun.sameLines_iff hmethods]
    decide +kernel
  · rw [FileRun.oneLineEach_iff, FileRun.NoNewline]
    decide +kernel

end Klog
