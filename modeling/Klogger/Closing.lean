import Klogger.Agreement
import Klogger.Ledger

/-!
# Logging after `close()`

No logging method asks whether the logger has been closed. `close()` of the file-backed loggers
closes descriptors that are not theirs, and `syslog(3)` opens the log again; so these go on as if
`close()` had not been called, and only what is sent to a console is stopped (`closed_loggers`).
-/

namespace Klog

open TwoStream

section Running

variable {fd₁ fd₂ : Fd} {s : World}

/-- A running logger on other descriptors than the standard ones survives `close()`. -/
theorem Running.close (h : Running fd₁ fd₂ s)
    (h₁ : fd₁ ≠ STDOUT_FILENO ∧ fd₁ ≠ STDERR_FILENO)
    (h₂ : fd₂ ≠ STDOUT_FILENO ∧ fd₂ ≠ STDERR_FILENO) : Running fd₁ fd₂ (TwoStream.close s).2 := by
  -- the stream objects know nothing of `close()`
  have houts : (TwoStream.close s).2.1.outs = s.1.outs := close_stream s true
  have herrs : (TwoStream.close s).2.1.errs = s.1.errs := close_stream s false
  refine ⟨by rw [houts, h.outs_good], by rw [houts, h.outs_buf], by rw [houts, h.outs_fd], ?_,
    by rw [herrs, h.errs_good], by rw [herrs, h.errs_buf], by rw [herrs, h.errs_fd], ?_, ?_⟩
  · rw [Process.close_fds_ne h₁.1 h₁.2]
    exact h.outs_open
  · rw [Process.close_fds_ne h₂.1 h₂.2]
    exact h.errs_open
  · rcases close_kernel s with hk | hk <;> rw [hk]
    · exact h.faultless.close _
    · exact (h.faultless.close _).close _

/-- One operation of such a logger, beside the abstract machine; `close()` changes nothing that
`X` looks at. -/
theorem step_closing (h : Running fd₁ fd₂ s) (h₁ : fd₁ ≠ STDOUT_FILENO ∧ fd₁ ≠ STDERR_FILENO)
    (h₂ : fd₂ ≠ STDOUT_FILENO ∧ fd₂ ≠ STDERR_FILENO) (R : Recorder) (op : Op) {j : Journal}
    (hl : s.1.ilevel = j.threshold) {X : Kernel → List Entry → Prop}
    (hX : ∀ k es e n, X k es →
      X ((k.push (fdFor fd₁ fd₂ e.call.level) (R.record e)).tock n) (es ++ [e]))
    (hclose : ∀ k k' es, k'.files = k.files → k'.fds fd₁ = k.fds fd₁ → k'.fds fd₂ = k.fds fd₂ →
      X k es → X k' es)
    (hx : X s.2 j.entries) :
    (R.step op s).1 = (Journal.step op j).1
      ∧ Running fd₁ fd₂ (R.step op s).2
      ∧ (R.step op s).2.1.ilevel = (Journal.step op j).2.threshold
      ∧ X (R.step op s).2.2 (Journal.step op j).2.entries := by
  -- `close()`, or an operation that `step_running` knows
  by_cases hop : op = .close
  · subst hop
    exact ⟨rfl, h.close h₁ h₂, (close_ilevel s).trans hl, hclose s.2 _ _ (close_files s)
      (Process.close_fds_ne h₁.1 h₁.2) (Process.close_fds_ne h₂.1 h₂.2) hx⟩
  · exact step_running h R hop hl hX hx

end Running

/-! ## Two files -/

theorem TwoFiles.frame {record : Entry → Bytes} {fd₁ fd₂ : Fd} {i₁ i₂ : Ino} {b₁ b₂ : Bytes}
    {k k' : Kernel} {es : List Entry} (hfiles : k'.files = k.files)
    (hfd₁ : k'.fds fd₁ = k.fds fd₁) (hfd₂ : k'.fds fd₂ = k.fds fd₂)
    (h : TwoFiles record fd₁ fd₂ i₁ i₂ b₁ b₂ k es) :
    TwoFiles record fd₁ fd₂ i₁ i₂ b₁ b₂ k' es := by
  unfold TwoFiles Kernel.AtEnd at h ⊢
  rw [hfiles, hfd₁, hfd₂]
  exact h

/-- What any operations at all leave in two files that were empty. -/
theorem exec_closing (R : Recorder) {p q : PathName} {m : OpenMode} {k : Kernel}
    (hout : k.fds STDOUT_FILENO ≠ none) (herr : k.fds STDERR_FILENO ≠ none)
    (h : EmptyFiles k p q) (hopen : (construct p m q m k).1.err = .HEALTHY) (ops : List Op) :
    let r := Run.exec R.step ops (construct p m q m k)
    r.1 = outcome ops
      ∧ Recorded R.record (r.2.2.files (k.ino p)) (r.2.2.files (k.ino q)) (passed ops) := by
  obtain ⟨fd₁, fd₂, hfd, hrunning, hlevel, hfd₁, hfd₂, hfiles⟩ :=
    construct_running h.faultless hopen
  -- the new descriptors were free, and the standard ones were not
  obtain ⟨g₁, g₂, _, hfree₁, hfree₂, heq⟩ := construct_free hopen
  obtain rfl : g₁ = fd₁ := by
    have houts := hrunning.outs_fd
    rw [heq] at houts
    exact Option.some.inj houts
  obtain rfl : g₂ = fd₂ := by
    have herrs := hrunning.errs_fd
    rw [heq] at herrs
    exact Option.some.inj herrs
  have hother {fd : Fd} (hfree : k.fds fd = none) : fd ≠ STDOUT_FILENO ∧ fd ≠ STDERR_FILENO :=
    ⟨fun heq => hout (heq ▸ hfree), fun heq => herr (heq ▸ hfree)⟩
  have hempty {i : Ino} (hi : k.files i = []) : (construct p m q m k).2.files i = [] := by
    rw [hfiles]
    cases m.trunc <;> simp [Function.update_apply, hi]
  have hend {fd : Fd} {i : Ino} (hfd : (construct p m q m k).2.fds fd = some ⟨i, m.app, 0⟩)
      (hi : k.files i = []) : (construct p m q m k).2.AtEnd fd i := by
    refine ⟨_, hfd, rfl, .inr ?_⟩
    rw [hempty hi]
    rfl
  have hstart : TwoFiles R.record g₁ g₂ (k.ino p) (k.ino q) [] [] (construct p m q m k).2 [] :=
    ⟨hend hfd₁ h.log, hend hfd₂ h.err, hempty h.log, hempty h.err⟩
  obtain ⟨hflow, _, _, _, _, hlog, herr⟩ := Run.exec_sim (P := fun _ => True)
    (R := fun s (j : Journal) => Running g₁ g₂ s ∧ s.1.ilevel = j.threshold
      ∧ TwoFiles R.record g₁ g₂ (k.ino p) (k.ino q) [] [] s.2 j.entries)
    (fun op s j _ hst => step_closing hst.1 (hother hfree₁) (hother hfree₂) R op
      hst.2.1 (fun _ _ e n hx => hx.push hfd h.ne e n)
      (fun _ _ _ hf hf₁ hf₂ hx => hx.frame hf hf₁ hf₂) hst.2.2)
    (show ∀ op ∈ ops, True from fun _ _ => trivial)
    (show _ ∧ _ ∧ TwoFiles _ _ _ _ _ _ _ _ Journal.init.entries from ⟨hrunning, hlevel, hstart⟩)
  exact ⟨hflow, hlog, herr⟩

/-! ## Syslog and the console -/

/-- A `Syslogger` records on: `syslog(3)` opens the log by itself if it is closed. -/
theorem exec_syslog_closing (s : Syslogger) (hs : s.ilevel = DEFAULT_LEVEL) (ops : List Op) :
    (Run.exec sysLogger.step ops s).1 = outcome ops
      ∧ (Run.exec sysLogger.step ops s).2.d.calls
          = s.d.calls ++ (passed ops).map Syslogger.syslogCall := by
  have hstart : Mirrors s.d.calls s Journal.init := ⟨hs, by simp [Journal.init]⟩
  have hstep (op : Op) (t : Syslogger) (j : Journal) (_ : True) (h : Mirrors s.d.calls t j) :
      (sysLogger.step op t).1 = (Journal.step op j).1
        ∧ Mirrors s.d.calls (sysLogger.step op t).2 (Journal.step op j).2 := by
    -- `close()` adds no call and keeps the threshold
    by_cases hop : op = .close
    · subst hop
      exact ⟨rfl, h.1, h.2⟩
    · exact h.step hop
  obtain ⟨hflow, _, hcalls⟩ :=
    Run.exec_sim hstep (show ∀ op ∈ ops, True from fun _ _ => trivial) hstart
  exact ⟨hflow, hcalls⟩

/-- A logger whose descriptors are not open changes no file. -/
theorem exec_closed (R : Recorder) {s : World} {fd₁ fd₂ : Fd} (houts : s.1.outs.fd = some fd₁)
    (herrs : s.1.errs.fd = some fd₂) (h₁ : s.2.fds fd₁ = none) (h₂ : s.2.fds fd₂ = none)
    (ops : List Op) : (Run.exec R.step ops s).2.2.files = s.2.files := by
  have hclosed {t : World} (ht : Recorder.Kept s t) :
      ¬ t.2.isOpen t.1.outs.fd ∧ ¬ t.2.isOpen t.1.errs.fd := by
    rw [ht.outs_fd, ht.errs_fd, houts, herrs, Kernel.isOpen_some, Kernel.isOpen_some]
    exact ⟨not_not.mpr (ht.fds _ h₁), not_not.mpr (ht.fds _ h₂)⟩
  have hstep (op : Op) (t : World) (_ : True)
      (ht : Recorder.Kept s t ∧ t.2.files = s.2.files) :
      Recorder.Kept s (R.step op t).2 ∧ (R.step op t).2.2.files = s.2.files := by
    obtain ⟨houts, herrs⟩ := hclosed ht.1
    exact ⟨ht.1.trans (R.step_kept op t), (R.step_files houts herrs op).trans ht.2⟩
  exact (Run.exec_invariant hstep (show ∀ op ∈ ops, True from fun _ _ => trivial)
    ⟨Recorder.Kept.refl s, rfl⟩).2

/-- **What `close()` stops.** Runs of one logger by itself. If nothing fails, a file-backed logger
that was opened on two empty files next to open standard descriptors records every call that passes
its threshold, and so does a `Syslogger`, wherever `close()` is called in between. What a
`ConsoleLogger` is sent after a `close()` that returned 0 changes no file; another logger that is
opened in between might be given the standard descriptors, but there is none here. -/
theorem closed_loggers (host : Host) (ops : List Op) :
    (∀ (c : FileBacked) (k : Kernel) (logfile errfile : PathName) (truncate : Bool),
        k.fds STDOUT_FILENO ≠ none → k.fds STDERR_FILENO ≠ none →
        EmptyFiles k logfile errfile →
        (c.openFiles (.two logfile errfile) truncate k).1.err = .HEALTHY →
        let r := Run.exec (c.vtable host).step ops
          (c.openFiles (.two logfile errfile) truncate k)
        r.1 = outcome ops
          ∧ Recorded (c.record host) (r.2.2.files (k.ino logfile)) (r.2.2.files (k.ino errfile))
              (passed ops))
      ∧ (∀ s : Syslogger, s.ilevel = DEFAULT_LEVEL →
          (Run.exec sysLogger.step ops s).1 = outcome ops
            ∧ (Run.exec sysLogger.step ops s).2.d.calls
                = s.d.calls ++ (passed ops).map Syslogger.syslogCall)
      ∧ ∀ s : World, s.1.outs.fd = some STDOUT_FILENO → s.1.errs.fd = some STDERR_FILENO →
          ((consoleLogger host).close s).1 = 0 →
          (Run.exec (consoleLogger host).step (.close :: ops) s).2.2.files = s.2.files := by
  refine ⟨fun c k logfile errfile truncate hout herr hempty hopen => ?_,
    fun s hs => exec_syslog_closing s hs ops, fun s houts herrs hzero => ?_⟩
  · rw [openFiles_two] at hopen ⊢
    rw [Process.vtable_step, ← c.record_recorder]
    exact exec_closing (c.recorder host) hout herr hempty hopen ops
  · rw [consoleLogger_step, Run.exec_cons_returned rfl]
    -- the descriptors are closed by the first operation, and the rest is a run on closed ones
    have hkept := (textRecorder host).step_kept .close s
    have hfiles := exec_closed (textRecorder host) (hkept.outs_fd.trans houts)
      (hkept.errs_fd.trans herrs) (close_stdout hzero) (close_stderr hzero) ops
    exact hfiles.trans (close_files s)

/-- The INFO message that follows `close()` is in the file. -/
theorem closed_loggers_justInfo :
    let r := Run.exec (FileBacked.file.vtable utc).step (.close :: justInfo)
      (FileBacked.file.openFiles (.two [0x61] [0x62, 0x62]) false calm)
    Recorded (FileBacked.file.record utc) (r.2.2.files (calm.ino [0x61]))
      (r.2.2.files (calm.ino [0x62, 0x62])) (passed justInfo) :=
  ((closed_loggers utc (.close :: justInfo)).1 .file calm [0x61] [0x62, 0x62] false (by decide)
    (by decide) emptyFiles_calm rfl).2

end Klog
