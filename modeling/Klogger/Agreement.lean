import Klogger.Health

/-!
# The four backends agree

One sequence of calls, run on each of the four backends from construction, with the same clock
readings, no faults and no `close()`. Each backend runs beside the abstract machine, which
fixes what is recorded and where the run stops; what is left is how an entry is written down
(`backends_agree`).
-/

namespace Klog

open TwoStream

/-! ## The console -/

/-- What the standard descriptors have been sent for the entries `es`. -/
def Standard (record : Entry → Bytes) (b₁ b₂ : Bytes) (k : Kernel) (es : List Entry) : Prop :=
  k.fds STDOUT_FILENO ≠ none ∧ k.fds STDERR_FILENO ≠ none
    ∧ k.sent STDOUT_FILENO = b₁ ++ (outsOf es).flatMap record
    ∧ k.sent STDERR_FILENO = b₂ ++ (errsOf es).flatMap record

/-- One record pushed to the descriptor its level is for goes behind what that descriptor was sent;
the other descriptor is left alone. This is the step of the run below. -/
theorem Standard.push {record : Entry → Bytes} {b₁ b₂ : Bytes} {k : Kernel} {es : List Entry}
    (h : Standard record b₁ b₂ k es) (e : Entry) (n : Nat) :
    Standard record b₁ b₂
      ((k.push (fdFor STDOUT_FILENO STDERR_FILENO e.call.level) (record e)).tock n)
      (es ++ [e]) := by
  obtain ⟨hopen₁, hopen₂, hsent₁, hsent₂⟩ := h
  have hopen (g fd : Fd) (hg : k.fds g ≠ none) : (k.push fd (record e)).fds g ≠ none :=
    mt (k.pushTo_fds_eq_none (some fd) (record e) g).mp hg
  refine ⟨hopen _ _ hopen₁, hopen _ _ hopen₂, ?_⟩
  cases hout : e.call.level.toOuts with
  | true =>
    -- DEBUG and INFO: standard output grows, standard error does not
    rw [fdFor_outs hout, outsOf_snoc_outs hout, errsOf_snoc_outs hout, Kernel.tock_sent,
      Kernel.push_sent hopen₁, k.push_sent_ne (by decide), hsent₁, hsent₂]
    simp
  | false =>
    -- from WARN on, the other way round
    rw [fdFor_errs hout, outsOf_snoc_errs hout, errsOf_snoc_errs hout, Kernel.tock_sent,
      Kernel.push_sent hopen₂, k.push_sent_ne (by decide), hsent₁, hsent₂]
    simp

/-- A console run ends as the abstract machine does, and the records of what passed stand on the
two standard descriptors. `Running` is the invariant of the logger, `Standard` that of what has been
sent. -/
theorem exec_console (host : Host) {k : Kernel} (hk : k.Faultless)
    (hout : k.fds STDOUT_FILENO ≠ none) (herr : k.fds STDERR_FILENO ≠ none) {ops : List Op}
    (hops : ∀ op ∈ ops, op ≠ .close) :
    let r := Run.exec (consoleLogger host).step ops
      (ConsoleLogger.new (.attached STDOUT_FILENO) (.attached STDERR_FILENO) k)
    r.1 = outcome ops
      ∧ r.2.2.sent STDOUT_FILENO
          = k.sent STDOUT_FILENO ++ (outsOf (passed ops)).flatMap (textOf host)
      ∧ r.2.2.sent STDERR_FILENO
          = k.sent STDERR_FILENO ++ (errsOf (passed ops)).flatMap (textOf host) := by
  rw [consoleLogger_step, ← record_textRecorder]
  -- what the constructor returns is running: both streams good, both descriptors open
  have hrunning : Running STDOUT_FILENO STDERR_FILENO
      (ConsoleLogger.new (.attached STDOUT_FILENO) (.attached STDERR_FILENO) k) :=
    ⟨rfl, rfl, rfl, hout, rfl, rfl, rfl, herr, hk⟩
  -- nothing has been logged yet, and the descriptors hold what was sent to them before
  have hstart : Standard (textRecorder host).record (k.sent STDOUT_FILENO)
      (k.sent STDERR_FILENO) k [] := ⟨hout, herr, by simp [outsOf], by simp [errsOf]⟩
  obtain ⟨hflow, _, _, _, hsent₁, hsent₂⟩ := exec_running hrunning rfl (textRecorder host) hops
    (fun _ _ e n h => h.push e n) hstart
  exact ⟨hflow, hsent₁, hsent₂⟩

/-! ## Syslog -/

/-- A `Syslogger` beside the abstract machine: as many calls of `syslog(3)` as entries. -/
def Mirrors (calls : List SyslogCall) (s : Syslogger) (j : Journal) : Prop :=
  s.ilevel = j.threshold ∧ s.d.calls = calls ++ j.entries.map Syslogger.syslogCall

/-- One operation keeps a `Syslogger` beside the abstract machine, and both say the same about the
process. One case for each operation. -/
theorem Mirrors.step {calls : List SyslogCall} {s : Syslogger} {j : Journal}
    (h : Mirrors calls s j) {op : Op} (hop : op ≠ .close) :
    (sysLogger.step op s).1 = (Journal.step op j).1
      ∧ Mirrors calls (sysLogger.step op s).2 (Journal.step op j).2 := by
  obtain ⟨hlevel, hcalls⟩ := h
  cases op with
  | log c now =>
    rw [Syslogger.step_log, Journal.step, hlevel]
    -- the threshold is the same on both sides, so both pass the entry or neither does
    by_cases hpass : j.threshold ≤ c.level
    · rw [if_pos hpass, if_pos hpass]
      refine ⟨rfl, hlevel, ?_⟩
      simp [Syslogger.syslog, hcalls]
    · rw [if_neg hpass, if_neg hpass]
      exact ⟨rfl, hlevel, hcalls⟩
  | level l => exact ⟨rfl, rfl, hcalls⟩
  | close => exact absurd rfl hop

/-- From any healthy state at the default threshold: the calls of `syslog(3)` are the old ones and
one for each entry that passed. -/
theorem exec_syslog (s : Syslogger) (hs : s.ilevel = DEFAULT_LEVEL) {ops : List Op}
    (hops : ∀ op ∈ ops, op ≠ .close) :
    (Run.exec sysLogger.step ops s).1 = outcome ops
      ∧ (Run.exec sysLogger.step ops s).2.d.calls
          = s.d.calls ++ (passed ops).map Syslogger.syslogCall := by
  have hstart : Mirrors s.d.calls s Journal.init := ⟨hs, by simp [Journal.init]⟩
  have hstep (op : Op) (t : Syslogger) (j : Journal) (hop : op ≠ .close)
      (h : Mirrors s.d.calls t j) := h.step hop
  obtain ⟨hflow, _, hcalls⟩ := Run.exec_sim hstep hops hstart
  exact ⟨hflow, hcalls⟩

/-- A text record is the timestamp in brackets and the string that goes to `syslog(3)`. -/
theorem textOf_eq (host : Host) (e : Entry) :
    textOf host e
      = ascii "[" ++ timestamp host e.now ++ ascii "] " ++ (Syslogger.syslogCall e).arg := by
  rw [textOf, logToString_eq, textRecord_eq]
  rfl

/-! ## All four -/

/-- Two different, empty files on a system on which nothing fails. -/
structure EmptyFiles (k : Kernel) (logfile errfile : PathName) : Prop where
  faultless : k.Faultless
  ne : k.ino logfile ≠ k.ino errfile
  log : k.files (k.ino logfile) = []
  err : k.files (k.ino errfile) = []

/-- The bytes are the records of the entries for `outs` and for `errs`. -/
def Recorded (record : Entry → Bytes) (outs errs : Bytes) (es : List Entry) : Prop :=
  outs = (outsOf es).flatMap record ∧ errs = (errsOf es).flatMap record

/-- Either class of recorder on two empty files leaves there the records of what passed, and nothing
else. Starting from empty files is what makes the backends comparable. -/
theorem exec_empty_files (R : Recorder) {p q : PathName} {m : OpenMode} (hm : m.app = !m.trunc)
    {k : Kernel} (h : EmptyFiles k p q) (hopen : (construct p m q m k).1.err = .HEALTHY)
    {ops : List Op} (hops : ∀ op ∈ ops, op ≠ .close) :
    let r := Run.exec R.step ops (construct p m q m k)
    r.1 = outcome ops
      ∧ Recorded R.record (r.2.2.files (k.ino p)) (r.2.2.files (k.ino q)) (passed ops) := by
  have hexec := exec_two_files R hm h.faultless h.ne hopen hops
  rw [h.log, h.err] at hexec
  simpa [Recorded] using hexec

section Classes

variable (host : Host) {p q : PathName} {truncate : Bool} {k : Kernel} (h : EmptyFiles k p q)
  {ops : List Op} (hops : ∀ op ∈ ops, op ≠ .close)

include h hops

theorem fileLogger_empty_files (hopen : (FileLogger.new₂ p q truncate k).1.err = .HEALTHY) :
    let r := Run.exec (fileLogger host).step ops (FileLogger.new₂ p q truncate k)
    r.1 = outcome ops
      ∧ Recorded (textOf host) (r.2.2.files (k.ino p)) (r.2.2.files (k.ino q)) (passed ops) := by
  rw [fileLogger_step, ← record_textRecorder]
  cases truncate <;> exact exec_empty_files (textRecorder host) rfl h hopen hops

theorem binLogger_empty_files (hopen : (BinLogger.new₂ p q truncate k).1.err = .HEALTHY) :
    let r := Run.exec (binLogger host).step ops (BinLogger.new₂ p q truncate k)
    r.1 = outcome ops
      ∧ Recorded (BinLogger.tlvOf host) (r.2.2.files (k.ino p)) (r.2.2.files (k.ino q))
          (passed ops) := by
  rw [binLogger_step, ← BinLogger.record_recorder]
  cases truncate <;> exact exec_empty_files (BinLogger.recorder host) rfl h hopen hops

end Classes

/-- **The four backends agree.** They stop at the same call with the same exit code. The
console sends to its two descriptors what `FileLogger` writes to its two files; these files,
those of `BinLogger` and the calls of `syslog(3)` are made of the same entries in the same
order; and a line of `FileLogger` is the timestamp in brackets and the string that `Syslogger`
formats. -/
theorem backends_agree (host : Host) {ops : List Op} (hops : ∀ op ∈ ops, op ≠ .close)
    {kc kf kb : Kernel} {logfile errfile binfile binerr : PathName} {t u : Bool}
    (hc : kc.Faultless) (hout : kc.fds STDOUT_FILENO ≠ none) (herr : kc.fds STDERR_FILENO ≠ none)
    (hf : EmptyFiles kf logfile errfile)
    (hfopen : (FileLogger.new₂ logfile errfile t kf).1.err = .HEALTHY)
    (hb : EmptyFiles kb binfile binerr)
    (hbopen : (BinLogger.new₂ binfile binerr u kb).1.err = .HEALTHY)
    (name : Bytes) (facility : Nat) (options : List Nat) (d : Syslogd) :
    let c := Run.exec (consoleLogger host).step ops
      (ConsoleLogger.new (.attached STDOUT_FILENO) (.attached STDERR_FILENO) kc)
    let f := Run.exec (fileLogger host).step ops (FileLogger.new₂ logfile errfile t kf)
    let b := Run.exec (binLogger host).step ops (BinLogger.new₂ binfile binerr u kb)
    let y := Run.exec sysLogger.step ops (Syslogger.new name facility options d)
    (c.1 = outcome ops ∧ f.1 = outcome ops ∧ b.1 = outcome ops ∧ y.1 = outcome ops)
      ∧ (c.2.2.sent STDOUT_FILENO = kc.sent STDOUT_FILENO ++ f.2.2.files (kf.ino logfile)
          ∧ c.2.2.sent STDERR_FILENO = kc.sent STDERR_FILENO ++ f.2.2.files (kf.ino errfile))
      ∧ Recorded (textOf host) (f.2.2.files (kf.ino logfile)) (f.2.2.files (kf.ino errfile))
          (passed ops)
      ∧ Recorded (BinLogger.tlvOf host) (b.2.2.files (kb.ino binfile))
          (b.2.2.files (kb.ino binerr)) (passed ops)
      ∧ y.2.d.calls = d.calls ++ (passed ops).map Syslogger.syslogCall
      ∧ ∀ e ∈ passed ops, textOf host e
          = ascii "[" ++ timestamp host e.now ++ ascii "] " ++ (Syslogger.syslogCall e).arg := by
  -- each backend beside the abstract machine, by itself
  obtain ⟨hcflow, hsent₁, hsent₂⟩ := exec_console host hc hout herr hops
  obtain ⟨hyflow, hcalls⟩ := exec_syslog (Syslogger.new name facility options d) rfl hops
  have hfile := exec_empty_files (textRecorder host)
    (m := if t then FileLogger.TRUNC_FLAGS else FileLogger.DEFAULT_FLAGS)
    (by cases t <;> rfl) hf hfopen hops
  have hbin := exec_empty_files (BinLogger.recorder host)
    (m := if u then BinLogger.BIN_TRUNC_FLAGS else BinLogger.BIN_DEFAULT_FLAGS)
    (by cases u <;> rfl) hb hbopen hops
  rw [record_textRecorder] at hfile
  rw [BinLogger.record_recorder] at hbin
  simp only [fileLogger_step, binLogger_step]
  refine ⟨⟨hcflow, hfile.1, hbin.1, hyflow⟩, ⟨?_, ?_⟩, hfile.2, hbin.2, hcalls,
    fun e _ => textOf_eq host e⟩
  · -- console and file have the same entries in common, so the same bytes
    exact hsent₁.trans (congrArg (kc.sent STDOUT_FILENO ++ ·) hfile.2.1.symm)
  · exact hsent₂.trans (congrArg (kc.sent STDERR_FILENO ++ ·) hfile.2.2.symm)

theorem emptyFiles_calm : EmptyFiles calm [0x61] [0x62, 0x62] :=
  ⟨faultless_calm, by decide, rfl, rfl⟩

theorem backends_agree_warnInfo :
    let c := Run.exec (consoleLogger utc).step warnInfo
      (ConsoleLogger.new (.attached STDOUT_FILENO) (.attached STDERR_FILENO) calm)
    let f := Run.exec (fileLogger utc).step warnInfo
      (FileLogger.new₂ [0x61] [0x62, 0x62] false calm)
    let y := Run.exec sysLogger.step warnInfo (Syslogger.new [] 8 [] ⟨none, []⟩)
    c.2.2.sent STDOUT_FILENO = calm.sent STDOUT_FILENO ++ f.2.2.files (calm.ino [0x61])
      ∧ c.2.2.sent STDERR_FILENO
          = calm.sent STDERR_FILENO ++ f.2.2.files (calm.ino [0x62, 0x62])
      ∧ y.2.d.calls = [] ++ (passed warnInfo).map Syslogger.syslogCall :=
  have h := backends_agree utc (show ∀ op ∈ warnInfo, op ≠ .close by decide) faultless_calm
    (by decide) (by decide) emptyFiles_calm
    (show (FileLogger.new₂ [0x61] [0x62, 0x62] false calm).1.err = .HEALTHY from rfl)
    emptyFiles_calm
    (show (BinLogger.new₂ [0x61] [0x62, 0x62] false calm).1.err = .HEALTHY from rfl)
    [] 8 [] ⟨none, []⟩
  ⟨h.2.1.1, h.2.1.2, h.2.2.2.2.1⟩

end Klog
