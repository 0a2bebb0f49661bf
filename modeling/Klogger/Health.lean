import Klogger.Contents
import Klogger.Syslog

/-!
# What the loggers say about themselves

Runs under any faults, with any outcome of the constructor.

* `BinLogger` recomputes `err` after every call. Its streams never become good again, so after
  a loss it never reports `HEALTHY` again (`binLogger_reports_losses`).
* `FileLogger` and `ConsoleLogger` look at no stream after the constructor. They report a loss
  only if they had reported something before (`text_loggers_report_iff`).
* A logger that was closed or could not be opened does not always keep saying so:
  `terminal_conditions_iff` lists the operations that make each class forget.
-/

namespace Klog

open TwoStream

/-! ## `set_err` -/

/-- Neither stream is at the end of an input file; no operation of an output stream gets it
there. -/
def NoEof (s : World) : Prop := s.1.outs.eofbit = false ∧ s.1.errs.eofbit = false

/-- No operation reads, so none gets there. -/
theorem NoEof.step {s : World} (h : NoEof s) (R : Recorder) (op : Op) :
    NoEof (R.step op s).2 := by
  have hkept := R.step_kept op s
  exact ⟨hkept.outs_eof.trans h.1, hkept.errs_eof.trans h.2⟩

theorem noEof_construct (p q : PathName) (m n : OpenMode) (k : Kernel) :
    NoEof (construct p m q n k) :=
  ⟨Ofstream.openFile_eofbit rfl, Ofstream.openFile_eofbit rfl⟩

namespace BinLogger

/-- `set_err` knows two values, as long as no stream is at the end of an input file. -/
theorem err_setErr {t : TwoStream} (houts : t.outs.eofbit = false)
    (herrs : t.errs.eofbit = false) :
    (setErr t).err = if t.outs.good && t.errs.good then .HEALTHY else .ERR_DISK := by
  unfold setErr
  cases hgood : t.outs.good && t.errs.good with
  | true => rfl
  | false =>
    -- a stream that is not good answers `fail`, as it is not at the end of the input
    have hfail : (t.outs.fail || t.errs.fail) = true := by
      rcases Bool.and_eq_false_iff.mp hgood with h | h
      · rw [Ofstream.fail_of_not_good houts h, Bool.true_or]
      · rw [Ofstream.fail_of_not_good herrs h, Bool.or_true]
    simp only [hfail, if_true, Bool.false_eq_true, if_false]
    split <;> rfl

/-- After a record `err` is what the two streams say, whatever it was before. -/
theorem err_step {host : Host} {c : LogCall} {s : World} (h : NoEof s)
    (hpass : s.1.ilevel ≤ c.level) (now : Time) :
    ((recorder host).step (.log c now) s).2.1.err
      = if BothGood ((recorder host).step (.log c now) s).2 then .HEALTHY else .ERR_DISK := by
  have hnext := h.step (recorder host) (.log c now)
  rw [(recorder host).step_passed hpass] at hnext ⊢
  have herr := err_setErr (t := ((recorder host).send ⟨c, now⟩ s).1) hnext.1 hnext.2
  simp only [BothGood, ← Bool.and_eq_true]
  exact herr

/-- A loss has been noticed: a stream is not good, and `err` says that something is wrong. -/
def Reporting (s : World) : Prop := ¬ BothGood s ∧ s.1.err ≠ .HEALTHY

/-- A loss leaves a stream that is not good, and `set_err` looks at it right after. -/
theorem reporting_of_lost {host : Host} {op : Op} {s : World} (h : NoEof s)
    (hlost : Lost (recorder host).record (recorder host).step op s) :
    Reporting ((recorder host).step op s).2 := by
  have hbad := (recorder host).not_bothGood_of_lost hlost
  obtain ⟨c, now, rfl, hpass, _⟩ := hlost
  refine ⟨hbad, ?_⟩
  rw [err_step h hpass, if_neg hbad]
  decide

/-- No operation takes the report back: `set_err` finds the same stream not good, and
`close()` writes a value of its own. -/
theorem Reporting.step {host : Host} {s : World} (h : Reporting s) (heof : NoEof s) (op : Op) :
    Reporting ((recorder host).step op s).2 := by
  obtain ⟨hbad, herr⟩ := h
  have hbad' := (recorder host).not_bothGood_step hbad op
  refine ⟨hbad', ?_⟩
  cases op with
  | log c now =>
    by_cases hpass : s.1.ilevel ≤ c.level
    · -- it may change what is wrong, and not that something is
      rw [err_step heof hpass, if_neg hbad']
      decide
    · rw [(recorder host).step_suppressed hpass]
      exact herr
  | level l => exact herr
  | close =>
    show (close s).2.1.err ≠ .HEALTHY
    rw [err_close]
    split <;> decide

/-- As long as the logger is running `set_err` finds both streams good. -/
theorem healthy_step {host : Host} {fd₁ fd₂ : Fd} {op : Op} {s : World} (h : Running fd₁ fd₂ s)
    (heof : NoEof s) (hop : op ≠ .close) (herr : s.1.err = .HEALTHY) :
    ((recorder host).step op s).2.1.err = .HEALTHY := by
  have hnext := h.step (recorder host) hop
  cases op with
  | log c now =>
    by_cases hpass : s.1.ilevel ≤ c.level
    · rw [err_step heof hpass, if_pos ⟨hnext.outs_good, hnext.errs_good⟩]
    · rw [(recorder host).step_suppressed hpass]
      exact herr
  | level l => exact herr
  | close => exact absurd rfl hop

/-- What the constructors make of a system. -/
def Built (k : Kernel) (s : World) : Prop :=
  (∃ logfile truncate, s = new logfile truncate k)
    ∨ ∃ logfile errfile truncate, s = new₂ logfile errfile truncate k

/-- Each constructor is `construct` at some paths and modes. -/
theorem Built.construct {k : Kernel} {s : World} (h : Built k s) :
    ∃ p m q n, s = construct p m q n k := by
  rcases h with ⟨p, t, rfl⟩ | ⟨p, q, t, rfl⟩
  · exact ⟨_, _, _, _, rfl⟩
  · exact ⟨_, _, _, _, rfl⟩

theorem Built.noEof {k : Kernel} {s : World} (h : Built k s) : NoEof s := by
  obtain ⟨p, m, q, n, rfl⟩ := h.construct
  exact noEof_construct p q m n k

end BinLogger

/-! ## Losses -/

/-- **`BinLogger` never reports healthy after a loss.** Conversely it reports healthy
throughout every run without `close()` in which both opens succeeded and nothing failed. -/
theorem binLogger_reports_losses (host : Host) {k : Kernel} {s : World}
    (hs : BinLogger.Built k s) (ops : List Op) :
    Run.OnceThen (binLogger host).step
        (Lost (BinLogger.tlvOf host) (binLogger host).step)
        (fun t => (binLogger host).getError t ≠ .HEALTHY) ops s
      ∧ (k.Faultless → BothGood s → (∀ op ∈ ops, op ≠ .close) →
          Run.Always (binLogger host).step (fun t => (binLogger host).getError t = .HEALTHY)
            ops s) := by
  rw [binLogger_step, ← BinLogger.record_recorder]
  refine ⟨?_, fun hk hgood hops => ?_⟩
  · -- from the loss on the logger is `Reporting`
    have hreport : Run.OnceThen (BinLogger.recorder host).step
        (Lost (BinLogger.recorder host).record (BinLogger.recorder host).step)
        BinLogger.Reporting ops s :=
      Run.onceThen_of_preserved (I := NoEof) (fun op t ht => ht.step _ op)
        (fun _ _ ht hlost => BinLogger.reporting_of_lost ht hlost)
        (fun op _ ht hrep => hrep.step ht op) ops hs.noEof
    exact fun pre op mid post hsplit hpre hlost => (hreport pre op mid post hsplit hpre hlost).2
  · -- before any fault it is `Running`
    have hnoeof := hs.noEof
    obtain ⟨p, m, q, n, rfl⟩ := hs.construct
    have herr := bothGood_construct_iff.mpr hgood
    obtain ⟨fd₁, fd₂, _, hrunning, _, _⟩ := construct_running hk herr
    intro pre post hsplit
    -- the operations in front of any point of the run
    have hnoclose : ∀ op ∈ pre, op ≠ .close := fun op hop => hops op (by simp [hsplit, hop])
    have hstart : Running fd₁ fd₂ (construct p m q n k) ∧ NoEof (construct p m q n k)
        ∧ (construct p m q n k).1.err = .HEALTHY := ⟨hrunning, hnoeof, herr⟩
    refine (Run.exec_invariant (P := fun op => op ≠ .close)
      (I := fun t => Running fd₁ fd₂ t ∧ NoEof t ∧ t.1.err = .HEALTHY) ?_ hnoclose hstart).2.2
    exact fun op t hop ht => ⟨ht.1.step _ hop, ht.2.1.step _ op,
      BinLogger.healthy_step ht.1 ht.2.1 hop ht.2.2⟩

theorem binLogger_reports_losses_warnInfo :
    let s := BinLogger.new₂ [0x61] [0x62, 0x62] false calm
    Run.OnceThen (binLogger utc).step (Lost (BinLogger.tlvOf utc) (binLogger utc).step)
        (fun t => (binLogger utc).getError t ≠ .HEALTHY) warnInfo s
      ∧ Run.Always (binLogger utc).step (fun t => (binLogger utc).getError t = .HEALTHY)
          warnInfo s :=
  have h := binLogger_reports_losses utc
    (.inr ⟨[0x61], [0x62, 0x62], false, rfl⟩ : BinLogger.Built calm _) warnInfo
  ⟨h.1, h.2 faultless_calm (by decide) (by decide)⟩

/-- Nothing a text logger writes touches `err`; only `close()` does. -/
theorem text_err_step (host : Host) {op : Op} (hop : op ≠ .close) (s : World) :
    ((textRecorder host).step op s).2.1.err = s.1.err := by
  cases op with
  | log c now =>
    by_cases hpass : s.1.ilevel ≤ c.level
    · rw [(textRecorder host).step_passed hpass]
      show ((textRecorder host).send ⟨c, now⟩ s).1.err = s.1.err
      unfold Recorder.send port
      split <;> rfl
    · rw [(textRecorder host).step_suppressed hpass]
  | level l => rfl
  | close => exact absurd rfl hop

theorem text_err_exec (host : Host) {ops : List Op} (hops : ∀ op ∈ ops, op ≠ .close)
    (s : World) : (Run.exec (textRecorder host).step ops s).2.1.err = s.1.err :=
  Run.exec_invariant (P := fun op => op ≠ .close) (I := fun t => t.1.err = s.1.err)
    (fun _ t hop ht => (text_err_step host hop t).trans ht) hops rfl

/-- Either `good()` is false all along, or it is true all along; in the second case a loss is not
reported. -/
theorem text_reports_iff (host : Host) {ops : List Op} (hops : ∀ op ∈ ops, op ≠ .close)
    (s : World) :
    Run.OnceThen (textRecorder host).step
        (Lost (textRecorder host).record (textRecorder host).step)
        (fun t => TwoStream.good t = false) ops s
      ↔ s.1.err ≠ .HEALTHY
        ∨ Run.Along (textRecorder host).step (Carries (textRecorder host).ops) ops s := by
  -- what `good()` answers at any point of the run is settled before it
  have hgood (pre post : List Op) (hsplit : ops = pre ++ post) :
      TwoStream.good (Run.exec (textRecorder host).step pre s).2 = false
        ↔ s.1.err ≠ .HEALTHY := by
    have hnoclose : ∀ op ∈ pre, op ≠ .close := fun op hop => hops op (by simp [hsplit, hop])
    simp [TwoStream.good, text_err_exec host hnoclose s]
  refine ⟨fun h => ?_, ?_⟩
  · by_cases herr : s.1.err = .HEALTHY
    · -- `good()` is true all along, so nothing may have been lost
      right
      intro pre op post hsplit hpre
      by_contra hlost
      have hbad := h pre op [] post hsplit hpre ((textRecorder host).lost_iff.mpr hlost)
      exact (hgood (pre ++ [op]) post (by simp [hsplit])).mp hbad herr
    · exact .inl herr
  · rintro (herr | halong) pre op mid post hsplit hpre hlost
    · exact (hgood (pre ++ op :: mid) post (by simp [hsplit])).mpr herr
    · exact absurd (halong pre op (mid ++ post) hsplit hpre)
        ((textRecorder host).lost_iff.mp hlost)

/-- The writes and the flush that `write_log` makes for an entry. -/
def textOps (host : Host) (e : Entry) : Nat :=
  (logChunks host e.now e.call.level e.call.actor e.call.event e.call.attrs).length + 1

/-- **When the loggers that write text report losses.** After a loss `good()` answers `false`
from then on if and only if the logger had reported an error before the run, or there is no
loss: every call that passes the threshold finds its stream good and open, and none of its
writes fails. -/
theorem text_loggers_report_iff (host : Host) {ops : List Op} (hops : ∀ op ∈ ops, op ≠ .close)
    (s : World) :
    (Run.OnceThen (fileLogger host).step (Lost (textOf host) (fileLogger host).step)
          (fun t => (fileLogger host).good t = false) ops s
        ↔ (fileLogger host).getError s ≠ .HEALTHY
          ∨ Run.Along (fileLogger host).step (Carries (textOps host)) ops s)
      ∧ (Run.OnceThen (consoleLogger host).step (Lost (textOf host) (consoleLogger host).step)
          (fun t => (consoleLogger host).good t = false) ops s
        ↔ (consoleLogger host).getError s ≠ .HEALTHY
          ∨ Run.Along (consoleLogger host).step (Carries (textOps host)) ops s) := by
  rw [fileLogger_step, consoleLogger_step, ← record_textRecorder]
  exact ⟨text_reports_iff host hops s, text_reports_iff host hops s⟩

/-- A system on which nothing can be written once two files are open. -/
def full : Kernel := { calm with oracle := fun n => if n < 2 then .ok (n + 3) else .fail 0 }

def justInfo : List Op := [.log (.infoPlain (ascii "main") (ascii "starts")) noon]

theorem text_loggers_report_justInfo :
    let s := FileLogger.new₂ [0x61] [0x62, 0x62] false calm
    (Run.OnceThen (fileLogger utc).step (Lost (textOf utc) (fileLogger utc).step)
          (fun t => (fileLogger utc).good t = false) justInfo s
        ↔ (fileLogger utc).getError s ≠ .HEALTHY
          ∨ Run.Along (fileLogger utc).step (Carries (textOps utc)) justInfo s)
      ∧ (Run.OnceThen (consoleLogger utc).step (Lost (textOf utc) (consoleLogger utc).step)
          (fun t => (consoleLogger utc).good t = false) justInfo s
        ↔ (consoleLogger utc).getError s ≠ .HEALTHY
          ∨ Run.Along (consoleLogger utc).step (Carries (textOps utc)) justInfo s) :=
  text_loggers_report_iff utc (by decide) (FileLogger.new₂ [0x61] [0x62, 0x62] false calm)

/-- On a full disk the message of a freshly opened `FileLogger` is lost, the file stays empty,
and the logger is healthy. -/
theorem full_disk_not_reported :
    let s := FileLogger.new₂ [0x61] [0x62, 0x62] false full
    let t := (Run.exec (fileLogger utc).step justInfo s).2
    (fileLogger utc).getError s = .HEALTHY ∧ t.2.files 1 = []
      ∧ (fileLogger utc).good t = true
      ∧ ¬ Run.OnceThen (fileLogger utc).step (Lost (textOf utc) (fileLogger utc).step)
          (fun t => (fileLogger utc).good t = false) justInfo s := by
  refine ⟨by decide +kernel, by decide +kernel, by decide +kernel, ?_⟩
  intro h
  -- the message is not in the file, and nothing else happened
  have hlost : Lost (textOf utc) (fileLogger utc).step
      (.log (.infoPlain (ascii "main") (ascii "starts")) noon)
      (FileLogger.new₂ [0x61] [0x62, 0x62] false full) := by
    refine ⟨_, _, rfl, by decide +kernel, ?_⟩
    rintro ⟨_, _, _, _, hgood⟩
    revert hgood
    decide +kernel
  have hreported := h [] _ [] [] rfl rfl hlost
  revert hreported
  decide +kernel

/-! ## Terminal conditions -/

/-- A `close()` that returns 0. -/
def Closes {σ : Type} (L : Logger σ) (op : Op) (s : σ) : Prop := op = .close ∧ (L.close s).1 = 0

/-- Once `close()` has returned 0, `error()` stays `ERR_CLOSED`. -/
def Latches {σ : Type} (L : Logger σ) (ops : List Op) (s : σ) : Prop :=
  Run.OnceThen L.step (Closes L) (fun t => L.getError t = .ERR_CLOSED) ops s

/-- What makes a recorder forget that it was closed: a second `close()`, and the calls that
pass the threshold if `err` is computed anew after them (`Q` says that it is not). -/
theorem recorder_latches_iff (R : Recorder) {I : World → Prop} {Q : Prop}
    (hI : ∀ op s, I s → I (R.step op s).2)
    (hQ : ∀ c now s, I s → s.1.err = .ERR_CLOSED → s.1.ilevel ≤ c.level →
      ((R.step (.log c now) s).2.1.err = .ERR_CLOSED ↔ Q))
    (ops : List Op) {s : World} (hs : I s) :
    Run.OnceThen R.step (fun op t => op = .close ∧ (close t).1 = 0)
        (fun t => t.1.err = .ERR_CLOSED) ops s
      ↔ Run.OnceAlong R.step (fun op t => op = .close ∧ (close t).1 = 0)
        (fun op t => op ≠ .close ∧ (Passes op t → Q)) ops s := by
  -- standard output is closed from the first `close()` on
  have hclosed : Run.OnceThen R.step (fun op t => op = .close ∧ (close t).1 = 0)
      (fun t => t.2.fds STDOUT_FILENO = none) ops s := by
    refine Run.onceThen_of_preserved (I := I) hI ?_ ?_ ops hs
    · rintro op t _ ⟨rfl, hzero⟩
      exact close_stdout hzero
    · exact fun op t _ ht => (R.step_kept op t).fds _ ht
  -- with that in the property, one operation decides
  rw [← hclosed.and_iff]
  refine Run.onceThen_iff_onceAlong hI ?_ ?_ ops hs
  · rintro op t _ ⟨rfl, hzero⟩
    refine ⟨?_, close_stdout hzero⟩
    show (close t).2.1.err = .ERR_CLOSED
    rw [err_close, if_pos hzero]
  · rintro op t hi ⟨herr, hout⟩
    have hout' : (R.step op t).2.2.fds STDOUT_FILENO = none := (R.step_kept op t).fds _ hout
    simp only [hout', and_true]
    cases op with
    | log c now =>
      by_cases hpass : t.1.ilevel ≤ c.level
      · rw [hQ c now t hi herr hpass]
        simp [hpass]
      · rw [R.step_suppressed hpass]
        simp [hpass, herr]
    | level l =>
      refine iff_of_true herr ?_
      simp
    | close =>
      refine iff_of_false ?_ (by simp)
      show (close t).2.1.err ≠ .ERR_CLOSED
      rw [close_of_closed hout]
      exact fun h => nomatch h

/-- `BinLogger` forgets that it could not be opened with the first call that passes. -/
theorem binLogger_errOpen_iff (host : Host) {k : Kernel} {s : World}
    (hs : BinLogger.Built k s) (herr : s.1.err = .ERR_OPEN) {ops : List Op}
    (hops : ∀ op ∈ ops, op ≠ .close) :
    Run.Always (BinLogger.recorder host).step (fun t => t.1.err = .ERR_OPEN) ops s
      ↔ Run.Along (BinLogger.recorder host).step (fun op t => ¬ Passes op t) ops s := by
  set R := BinLogger.recorder host with hR
  -- it reports that it could not be opened, so a stream is not good, and never will be
  have hbad : ¬ BothGood s := by
    obtain ⟨p, m, q, n, rfl⟩ := hs.construct
    intro hgood
    rw [bothGood_construct_iff.mpr hgood] at herr
    cases herr
  have hiff : Run.Always R.step (fun t => t.1.err = .ERR_OPEN) ops s
      ↔ Run.Along R.step (fun op t => op ≠ .close ∧ ¬ Passes op t) ops s := by
    refine Run.always_iff_along (I := fun t => NoEof t ∧ ¬ BothGood t)
      (fun op t ht => ⟨ht.1.step R op, R.not_bothGood_step ht.2 op⟩) ?_ ⟨hs.noEof, hbad⟩ herr
    rintro op t ⟨heof, hnot⟩ ht
    cases op with
    | log c now =>
      by_cases hpass : t.1.ilevel ≤ c.level
      · -- `set_err` says that the disk is full
        rw [BinLogger.err_step heof hpass, if_neg (R.not_bothGood_step hnot _)]
        simp [hpass]
      · rw [R.step_suppressed hpass]
        simp [hpass, ht]
    | level l => exact iff_of_true ht (by simp)
    | close =>
      refine iff_of_false ?_ (by simp)
      show (close t).2.1.err ≠ .ERR_OPEN
      rw [err_close]
      split <;> decide
  rw [hiff]
  exact ⟨fun h pre op post hsplit hpre => (h pre op post hsplit hpre).2,
    fun h pre op post hsplit hpre => ⟨hops op (by simp [hsplit]), h pre op post hsplit hpre⟩⟩

/-- A `Syslogger` sets `err` in `close()` only, and always to the same value. -/
theorem sysLogger_latches (ops : List Op) (s : Syslogger) : Latches sysLogger ops s := by
  refine Run.onceThen_of_preserved (I := fun _ => True) (fun _ _ _ => trivial) ?_ ?_ ops trivial
  · rintro op t _ ⟨rfl, _⟩
    rfl
  · intro op t _ ht
    cases op with
    | log c now =>
      rw [Syslogger.step_log]
      split
      · exact ht
      · exact ht
    | level l => exact ht
    | close => rfl

/-- **When terminal conditions latch.** After a `close()` that returned 0, `ConsoleLogger` and
`FileLogger` stay at `ERR_CLOSED` exactly as long as `close()` is not called again;
`BinLogger` only if no call passes the threshold either; `Syslogger` always. A `FileLogger`
stays at `ERR_OPEN`; a `BinLogger` exactly as long as no call passes the threshold. -/
theorem terminal_conditions_iff (host : Host) (ops : List Op) :
    (∀ s, Latches (consoleLogger host) ops s
        ↔ Run.OnceAlong (consoleLogger host).step (Closes (consoleLogger host))
            (fun op _ => op ≠ .close) ops s)
      ∧ (∀ s, Latches (fileLogger host) ops s
        ↔ Run.OnceAlong (fileLogger host).step (Closes (fileLogger host))
            (fun op _ => op ≠ .close) ops s)
      ∧ (∀ k s, BinLogger.Built k s → (Latches (binLogger host) ops s
        ↔ Run.OnceAlong (binLogger host).step (Closes (binLogger host))
            (fun op t => op ≠ .close ∧ ¬ Passes op t) ops s))
      ∧ (∀ s, Latches sysLogger ops s)
      ∧ ((∀ op ∈ ops, op ≠ .close) →
        (∀ s, (fileLogger host).getError s = .ERR_OPEN →
            Run.Always (fileLogger host).step
              (fun t => (fileLogger host).getError t = .ERR_OPEN) ops s)
          ∧ ∀ k s, BinLogger.Built k s → (binLogger host).getError s = .ERR_OPEN →
            (Run.Always (binLogger host).step
                (fun t => (binLogger host).getError t = .ERR_OPEN) ops s
              ↔ Run.Along (binLogger host).step (fun op t => ¬ Passes op t) ops s)) := by
  have htext (s : World) := recorder_latches_iff (textRecorder host) (I := fun _ => True)
    (Q := True) (fun _ _ _ => trivial)
    (fun c now t _ ht _ => iff_of_true ((text_err_step host (by simp) t).trans ht) trivial)
    ops (s := s) trivial
  simp only [imp_true_iff, and_true] at htext
  refine ⟨?_, ?_, ?_, sysLogger_latches ops, ?_⟩
  · intro s
    unfold Latches
    rw [consoleLogger_step]
    exact htext s
  · intro s
    unfold Latches
    rw [fileLogger_step]
    exact htext s
  · intro k s hs
    unfold Latches
    rw [binLogger_step]
    -- `BinLogger` computes it anew, and never to `ERR_CLOSED`
    refine recorder_latches_iff (BinLogger.recorder host) (I := NoEof) (Q := False)
      (fun op t ht => ht.step _ op) ?_ ops hs.noEof
    intro c now t ht _ hpass
    rw [BinLogger.err_step ht hpass]
    split <;> simp
  · intro hops
    rw [fileLogger_step, binLogger_step]
    refine ⟨?_, fun k s hs herr => binLogger_errOpen_iff host hs herr hops⟩
    intro s herr pre post hsplit
    have hnoclose : ∀ op ∈ pre, op ≠ .close := fun op hop => hops op (by simp [hsplit, hop])
    exact (text_err_exec host hnoclose s).trans herr

/-- A system that lets nothing be opened. -/
def sealed : Kernel := { calm with oracle := fun _ => .fail 0 }

theorem terminal_conditions_sealed :
    (Latches (binLogger utc) (.close :: justInfo) (BinLogger.new [0x61] true sealed)
        ↔ Run.OnceAlong (binLogger utc).step (Closes (binLogger utc))
            (fun op t => op ≠ .close ∧ ¬ Passes op t) (.close :: justInfo)
            (BinLogger.new [0x61] true sealed))
      ∧ Run.Always (fileLogger utc).step
          (fun t => (fileLogger utc).getError t = .ERR_OPEN) justInfo
          (FileLogger.new [0x61] true sealed)
      ∧ (Run.Always (binLogger utc).step
            (fun t => (binLogger utc).getError t = .ERR_OPEN) justInfo
            (BinLogger.new [0x61] true sealed)
          ↔ Run.Along (binLogger utc).step (fun op t => ¬ Passes op t) justInfo
            (BinLogger.new [0x61] true sealed)) :=
  have hbuilt : BinLogger.Built sealed (BinLogger.new [0x61] true sealed) :=
    .inl ⟨[0x61], true, rfl⟩
  have hopen := (terminal_conditions_iff utc justInfo).2.2.2.2 (by decide)
  ⟨(terminal_conditions_iff utc (.close :: justInfo)).2.2.1 sealed _ hbuilt,
    hopen.1 _ rfl, hopen.2 sealed _ hbuilt rfl⟩

/-- A second `close()` turns `ERR_CLOSED` into `ERR_CLOSEFAIL`; a message logged with a closed
`BinLogger` turns it into `HEALTHY`, and one logged with a `BinLogger` that could not be opened
turns `ERR_OPEN` into `ERR_DISK`. -/
theorem terminal_conditions_forgotten :
    let f := FileLogger.new₂ [0x61] [0x62, 0x62] false calm
    let b := BinLogger.new₂ [0x61] [0x62, 0x62] false calm
    let x := BinLogger.new₂ [0x61] [0x62, 0x62] false sealed
    ((fileLogger utc).close f).1 = 0
      ∧ (Run.exec (fileLogger utc).step [.close, .close] f).2.1.err = .ERR_CLOSEFAIL
      ∧ ((binLogger utc).close b).1 = 0
      ∧ (Run.exec (binLogger utc).step (.close :: justInfo) b).2.1.err = .HEALTHY
      ∧ x.1.err = .ERR_OPEN
      ∧ (Run.exec (binLogger utc).step justInfo x).2.1.err = .ERR_DISK
      ∧ ¬ Latches (fileLogger utc) [.close, .close] f := by
  refine ⟨by decide +kernel, by decide +kernel, by decide +kernel, by decide +kernel,
    by decide +kernel, by decide +kernel, ?_⟩
  intro h
  -- the state behind the second `close()` is one of those in question
  have herr := h [] .close [.close] [] rfl rfl ⟨rfl, by decide +kernel⟩
  revert herr
  decide +kernel

end Klog
