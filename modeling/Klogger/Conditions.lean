import Klogger.Health
import Klogger.Ledger

/-!
# The conditions that are reported

`LogError` has eight values, and no backend knows them all. What `error()` can answer, whatever is
done with a logger and whatever fails, is one list for each backend, and every value in it is
answered in some run (`reported_conditions`). Nothing ever answers `ERR_NOPERM`,
`ERR_UNAVAILABLE` or `ERR_UNKNOWN`, and only a `BinLogger` knows that a disk is full.
-/

namespace Klog

open TwoStream

/-- The values that a run can end with, from one of the states of `start`. -/
def Reports {σ : Type} (L : Logger σ) (start : σ → Prop) (v : LogError) : Prop :=
  ∃ s ops, start s ∧ L.getError (Run.exec L.step ops s).2 = v

/-- What holds in the beginning, and is preserved, holds of every value that is reported. -/
theorem Reports.mem {σ : Type} {L : Logger σ} {start I : σ → Prop} {vs : List LogError}
    (hstart : ∀ s, start s → I s) (hstep : ∀ op s, I s → I (L.step op s).2)
    (hI : ∀ s, I s → L.getError s ∈ vs) {v : LogError} (h : Reports L start v) : v ∈ vs := by
  obtain ⟨s, ops, hs, rfl⟩ := h
  exact hI _ (Run.exec_invariant (P := fun _ => True) (fun op t _ ht => hstep op t ht)
    (fun _ _ => trivial) (hstart s hs))

/-! ## Each backend -/

/-- After `close()` the value is one of two, as both calls of `close(2)` went well or not. -/
theorem mem_close {vs : List LogError} (h : .ERR_CLOSED ∈ vs ∧ .ERR_CLOSEFAIL ∈ vs) (s : World) :
    (TwoStream.close s).2.1.err ∈ vs := by
  rw [err_close]
  split
  · exact h.1
  · exact h.2

/-- A logger that writes text keeps the value it has, until it is closed. -/
theorem text_mem_step (host : Host) {vs : List LogError}
    (h : .ERR_CLOSED ∈ vs ∧ .ERR_CLOSEFAIL ∈ vs) (op : Op) (s : World) (hs : s.1.err ∈ vs) :
    ((textRecorder host).step op s).2.1.err ∈ vs := by
  by_cases hop : op = .close
  · subst hop
    exact mem_close h s
  · rw [text_err_step host hop]
    exact hs

/-- A `BinLogger` also sets its value anew with each record that it attempts (`set_err`): to healthy
or to a full disk, as neither of its streams is ever at the end of input. -/
theorem bin_mem_step (host : Host) {vs : List LogError}
    (h : .ERR_CLOSED ∈ vs ∧ .ERR_CLOSEFAIL ∈ vs) (hvs : .HEALTHY ∈ vs ∧ .ERR_DISK ∈ vs) (op : Op)
    (s : World) (hs : NoEof s ∧ s.1.err ∈ vs) :
    NoEof ((BinLogger.recorder host).step op s).2
      ∧ ((BinLogger.recorder host).step op s).2.1.err ∈ vs := by
  refine ⟨hs.1.step _ op, ?_⟩
  cases op with
  | log c now =>
    by_cases hpass : s.1.ilevel ≤ c.level
    · -- `set_err` looks at both streams
      rw [BinLogger.err_step hs.1 hpass]
      split
      · exact hvs.1
      · exact hvs.2
    · rw [(BinLogger.recorder host).step_suppressed hpass]
      exact hs.2
  | level l => exact hs.2
  | close => exact mem_close h s

/-- The constructors check the two streams, and report nothing but that one is not good. -/
theorem construct_err_mem (p q : PathName) (m n : OpenMode) (k : Kernel) :
    (construct p m q n k).1.err ∈ [LogError.HEALTHY, .ERR_OPEN] := by
  unfold construct
  dsimp only
  split <;> simp

theorem openFiles_err_mem (c : FileBacked) (l : LogFiles) (truncate : Bool) (k : Kernel) :
    NoEof (c.openFiles l truncate k)
      ∧ (c.openFiles l truncate k).1.err ∈ [LogError.HEALTHY, .ERR_OPEN] := by
  obtain ⟨p, m, q, n, heq⟩ : ∃ p m q n, c.openFiles l truncate k = construct p m q n k := by
    cases c <;> cases l <;> exact ⟨_, _, _, _, rfl⟩
  rw [heq]
  exact ⟨noEof_construct p q m n k, construct_err_mem p q m n k⟩

/-- A console has nothing to open. Runs without an operation, with one `close()` and with two answer
the three values. -/
theorem consoleLogger_reports_iff (host : Host) (v : LogError) :
    Reports (consoleLogger host) (fun s => ∃ out err k, s = ConsoleLogger.new out err k) v
      ↔ v ∈ [.HEALTHY, .ERR_CLOSED, .ERR_CLOSEFAIL] := by
  refine ⟨fun h => h.mem (I := fun s => s.1.err ∈ _) ?_ ?_ (fun _ hs => hs), fun h => ?_⟩
  · rintro _ ⟨out, err, k, rfl⟩
    exact List.mem_cons_self
  · rw [consoleLogger_step]
    exact text_mem_step host (by decide)
  · simp only [List.mem_cons, List.not_mem_nil, or_false] at h
    -- one run for each value; the second `close()` finds the descriptors closed
    rcases h with rfl | rfl | rfl
    · exact ⟨_, [], ⟨.null, .null, calm, rfl⟩, rfl⟩
    · exact ⟨_, [.close], ⟨.null, .null, calm, rfl⟩, rfl⟩
    · exact ⟨_, [.close, .close], ⟨.null, .null, calm, rfl⟩, rfl⟩

/-- A `FileLogger` can also fail to open a file, which its constructor reports. -/
theorem fileLogger_reports_iff (host : Host) (v : LogError) :
    Reports (fileLogger host) (fun s => ∃ l truncate k, s = openLogfile l truncate k) v
      ↔ v ∈ [.HEALTHY, .ERR_OPEN, .ERR_CLOSED, .ERR_CLOSEFAIL] := by
  refine ⟨fun h => h.mem (I := fun s => s.1.err ∈ _) ?_ ?_ (fun _ hs => hs), fun h => ?_⟩
  · rintro _ ⟨l, truncate, k, rfl⟩
    -- what the constructor answers stays possible for the whole run
    have hsub : [LogError.HEALTHY, .ERR_OPEN]
        ⊆ [.HEALTHY, .ERR_OPEN, .ERR_CLOSED, .ERR_CLOSEFAIL] := by decide
    exact hsub (openFiles_err_mem .file l truncate k).2
  · rw [fileLogger_step]
    exact text_mem_step host (by decide)
  · simp only [List.mem_cons, List.not_mem_nil, or_false] at h
    -- `sealed` is a system on which no file can be opened
    rcases h with rfl | rfl | rfl | rfl
    · exact ⟨_, [], ⟨.two [0x61] [0x62, 0x62], false, calm, rfl⟩, rfl⟩
    · exact ⟨_, [], ⟨.two [0x61] [0x62, 0x62], false, sealed, rfl⟩, rfl⟩
    · exact ⟨_, [.close], ⟨.two [0x61] [0x62, 0x62], false, calm, rfl⟩, rfl⟩
    · exact ⟨_, [.close, .close], ⟨.two [0x61] [0x62, 0x62], false, calm, rfl⟩, rfl⟩

/-- A `BinLogger` is the only one that reports a failed write. -/
theorem binLogger_reports_iff (host : Host) (v : LogError) :
    Reports (binLogger host) (fun s => ∃ l truncate k, s = openBinlogfile l truncate k) v
      ↔ v ∈ [.HEALTHY, .ERR_OPEN, .ERR_DISK, .ERR_CLOSED, .ERR_CLOSEFAIL] := by
  refine ⟨fun h => h.mem (I := fun s => NoEof s ∧ s.1.err ∈ _) ?_ ?_ (fun _ hs => hs.2),
    fun h => ?_⟩
  · rintro _ ⟨l, truncate, k, rfl⟩
    -- the invariant needs more than the value: the streams are never at the end of input
    have hsub : [LogError.HEALTHY, .ERR_OPEN]
        ⊆ [.HEALTHY, .ERR_OPEN, .ERR_DISK, .ERR_CLOSED, .ERR_CLOSEFAIL] := by decide
    obtain ⟨heof, herr⟩ := openFiles_err_mem .bin l truncate k
    exact ⟨heof, hsub herr⟩
  · rw [binLogger_step]
    exact bin_mem_step host (by decide) (by decide)
  · simp only [List.mem_cons, List.not_mem_nil, or_false] at h
    rcases h with rfl | rfl | rfl | rfl | rfl
    · exact ⟨_, [], ⟨.two [0x61] [0x62, 0x62], false, calm, rfl⟩, rfl⟩
    · exact ⟨_, [], ⟨.two [0x61] [0x62, 0x62], false, sealed, rfl⟩, rfl⟩
    · -- the first write fails, in either byte order
      refine ⟨_, justInfo, ⟨.two [0x61] [0x62, 0x62], false, full, rfl⟩, ?_⟩
      obtain ⟨e, localtime⟩ := host
      cases e <;> rfl
    · exact ⟨_, [.close], ⟨.two [0x61] [0x62, 0x62], false, calm, rfl⟩, rfl⟩
    · exact ⟨_, [.close, .close], ⟨.two [0x61] [0x62, 0x62], false, calm, rfl⟩, rfl⟩

/-- A `Syslogger` cannot see what `syslog(3)` does with a message, and `closelog(3)` returns
nothing. -/
theorem sysLogger_reports_iff (v : LogError) :
    Reports sysLogger (fun s => ∃ name f opts d, s = Syslogger.new name f opts d) v
      ↔ v ∈ [.HEALTHY, .ERR_CLOSED] := by
  refine ⟨fun h => h.mem (I := fun s => s.err ∈ _) ?_ (fun op s hs => ?_) (fun _ hs => hs),
    fun h => ?_⟩
  · rintro _ ⟨name, f, opts, d, rfl⟩
    exact List.mem_cons_self
  · cases op with
    | log c now =>
      rw [Syslogger.step_log]
      split <;> exact hs
    | level l => exact hs
    | close => exact List.mem_cons_of_mem _ List.mem_cons_self
  · simp only [List.mem_cons, List.not_mem_nil, or_false] at h
    rcases h with rfl | rfl
    · exact ⟨_, [], ⟨[], 8, [], ⟨none, []⟩, rfl⟩, rfl⟩
    · exact ⟨_, [.close], ⟨[], 8, [], ⟨none, []⟩, rfl⟩, rfl⟩

/-! ## All of them -/

/-- **The conditions that are reported.** A `ConsoleLogger` reports that it is healthy, closed or
could not be closed; a `FileLogger` also that it could not be opened, and a `BinLogger` besides
that it could not write; a `Syslogger` that it is healthy or closed. Each of them does so in some
run, and none reports anything else. -/
theorem reported_conditions (host : Host) (v : LogError) :
    (Reports (consoleLogger host) (fun s => ∃ out err k, s = ConsoleLogger.new out err k) v
        ↔ v ∈ [.HEALTHY, .ERR_CLOSED, .ERR_CLOSEFAIL])
      ∧ (Reports (fileLogger host) (fun s => ∃ l truncate k, s = openLogfile l truncate k) v
        ↔ v ∈ [.HEALTHY, .ERR_OPEN, .ERR_CLOSED, .ERR_CLOSEFAIL])
      ∧ (Reports (binLogger host) (fun s => ∃ l truncate k, s = openBinlogfile l truncate k) v
        ↔ v ∈ [.HEALTHY, .ERR_OPEN, .ERR_DISK, .ERR_CLOSED, .ERR_CLOSEFAIL])
      ∧ (Reports sysLogger (fun s => ∃ name f opts d, s = Syslogger.new name f opts d) v
        ↔ v ∈ [.HEALTHY, .ERR_CLOSED]) :=
  ⟨consoleLogger_reports_iff host v, fileLogger_reports_iff host v, binLogger_reports_iff host v,
    sysLogger_reports_iff v⟩

end Klog
