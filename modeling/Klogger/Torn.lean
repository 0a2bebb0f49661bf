import Klogger.Contents

/-!
# The files of a two-file logger, whatever fails

Runs under any faults, with `close()` and with any outcome of the constructor. Beside the
abstract machine each of the two streams is tracked on its own (`Beside`): its file holds a
beginning of the records meant for it, and all of them as long as the stream is good. So the
file is cut off somewhere inside the file that a run without faults leaves, and what goes wrong
with one stream costs the other nothing (`two_file_loggers_torn`).
-/

namespace Klog

open TwoStream

/-- A logger with two streams on two files beside the abstract machine. -/
structure Beside (record : Entry → Bytes) (i₁ i₂ : Ino) (b₁ b₂ : Bytes) (s : World)
    (j : Journal) : Prop where
  threshold : s.1.ilevel = j.threshold
  ne : ∀ fd, s.1.outs.fd = some fd → s.1.errs.fd ≠ some fd
  outs : Ofstream.Tracks b₁ ((outsOf j.entries).flatMap record) i₁ (s.1.outs, s.2)
  errs : Ofstream.Tracks b₂ ((errsOf j.entries).flatMap record) i₂ (s.1.errs, s.2)

section Step

variable {R : Recorder} {i₁ i₂ : Ino} {b₁ b₂ : Bytes} {s : World} {j : Journal}

/-- One more entry, whatever becomes of it. The stream it goes through tracks one record more; the
other stream is framed, as it is on another descriptor and another file. -/
theorem Beside.send (h : Beside R.record i₁ i₂ b₁ b₂ s j) (hi : i₁ ≠ i₂) (e : Entry) :
    Beside R.record i₁ i₂ b₁ b₂ (R.settled (R.send e s))
      { j with entries := j.entries ++ [e] } := by
  -- different descriptors, read from the side of `errs`
  have hsym (fd : Fd) (hfd : s.1.errs.fd = some fd) : s.1.outs.fd ≠ some fd :=
    fun houts => h.ne fd houts hfd
  cases hout : e.call.level.toOuts with
  | true =>
    have hmoved := Ofstream.send_moved (R.chunks e) (s.1.outs, s.2)
    rw [R.send_outs hout]
    refine ⟨h.threshold, fun fd hfd => h.ne fd (hmoved.fd ▸ hfd), ?_, ?_⟩
    · show Ofstream.Tracks b₁ ((outsOf (j.entries ++ [e])).flatMap R.record) i₁
        (Ofstream.ref.send (R.chunks e) (s.1.outs, s.2))
      rw [outsOf_snoc_outs hout, List.flatMap_append, List.flatMap_singleton]
      exact h.outs.send (R.chunks e)
    · show Ofstream.Tracks b₂ ((errsOf (j.entries ++ [e])).flatMap R.record) i₂
        (s.1.errs, (Ofstream.ref.send (R.chunks e) (s.1.outs, s.2)).2)
      rw [errsOf_snoc_outs hout]
      exact h.errs.frame_send h.outs hi.symm hsym (R.chunks e)
  | false =>
    have hmoved := Ofstream.send_moved (R.chunks e) (s.1.errs, s.2)
    rw [R.send_errs hout]
    refine ⟨h.threshold, fun fd hfd herrs => h.ne fd hfd (hmoved.fd ▸ herrs), ?_, ?_⟩
    · show Ofstream.Tracks b₁ ((outsOf (j.entries ++ [e])).flatMap R.record) i₁
        (s.1.outs, (Ofstream.ref.send (R.chunks e) (s.1.errs, s.2)).2)
      rw [outsOf_snoc_errs hout]
      exact h.outs.frame_send h.errs hi h.ne (R.chunks e)
    · show Ofstream.Tracks b₂ ((errsOf (j.entries ++ [e])).flatMap R.record) i₂
        (Ofstream.ref.send (R.chunks e) (s.1.errs, s.2))
      rw [errsOf_snoc_errs hout, List.flatMap_append, List.flatMap_singleton]
      exact h.errs.send (R.chunks e)

theorem close_files (s : World) : (TwoStream.close s).2.2.files = s.2.files := by
  rcases close_kernel s with hk | hk
  · rw [hk, Kernel.close_files]
  · rw [hk, Kernel.close_files, Kernel.close_files]

/-- `close()` leaves a descriptor as it is or closes it. -/
theorem close_fds (s : World) (g : Fd) :
    (TwoStream.close s).2.2.fds g = s.2.fds g ∨ (TwoStream.close s).2.2.fds g = none := by
  rcases Option.eq_none_or_eq_some ((TwoStream.close s).2.2.fds g) with hnone | ⟨f, hf⟩
  · exact .inr hnone
  · left
    rcases close_kernel s with hk | hk <;> rw [hk] at hf ⊢
    · rw [hf, Kernel.fds_of_close hf]
    · rw [hf, Kernel.fds_of_close (Kernel.fds_of_close hf)]

/-- `close()` may take the descriptor from under a stream; then the file stays as it is from there
on. -/
theorem Beside.close (h : Beside R.record i₁ i₂ b₁ b₂ s j) :
    Beside R.record i₁ i₂ b₁ b₂ (TwoStream.close s).2 j := by
  obtain ⟨e, hobj⟩ := close_withErr s
  have hstate : (TwoStream.close s).2 = (s.1.withErr e, (TwoStream.close s).2.2) :=
    Prod.ext hobj rfl
  have hfiles := close_files s
  rw [hstate]
  exact ⟨h.threshold, h.ne, h.outs.frame (congrFun hfiles i₁) fun g _ => close_fds s g,
    h.errs.frame (congrFun hfiles i₂) fun g _ => close_fds s g⟩

/-- Every operation keeps the logger beside the machine, with no condition on the environment. -/
theorem Beside.step (h : Beside R.record i₁ i₂ b₁ b₂ s j) (hi : i₁ ≠ i₂) (op : Op) :
    (R.step op s).1 = (Journal.step op j).1
      ∧ Beside R.record i₁ i₂ b₁ b₂ (R.step op s).2 (Journal.step op j).2 := by
  cases op with
  | log c now =>
    by_cases hpass : j.threshold ≤ c.level
    · rw [R.step_passed (h.threshold ▸ hpass), Journal.step, if_pos hpass]
      exact ⟨rfl, h.send hi ⟨c, now⟩⟩
    · rw [R.step_suppressed (h.threshold ▸ hpass), Journal.step, if_neg hpass]
      exact ⟨rfl, h⟩
  | level l => exact ⟨rfl, rfl, h.ne, h.outs, h.errs⟩
  | close => exact ⟨rfl, h.close⟩

end Step

/-! ## Construction -/

section Construction

variable {path : PathName} {mode : OpenMode} {k : Kernel}

theorem ino_openFile (x : Ofstream × Kernel) :
    (Ofstream.openFile path mode x).2.ino = x.2.ino := by
  rcases Bool.eq_false_or_eq_true (Ofstream.openFile path mode x).1.good with hgood | hbad
  · obtain ⟨fd, _, heq⟩ := Ofstream.openFile_of_good hgood
    rw [heq]
  · rw [Ofstream.openFile_of_not_good hbad]
    rfl

/-- A stream that a constructor has opened, or has failed to open, tracks its file. -/
theorem tracks_openFile (hm : mode.app = !mode.trunc) :
    Ofstream.Tracks ((Ofstream.openFile path mode (Ofstream.null, k)).2.files (k.ino path)) []
      (k.ino path) (Ofstream.openFile path mode (Ofstream.null, k)) := by
  rcases Bool.eq_false_or_eq_true (Ofstream.openFile path mode (Ofstream.null, k)).1.good
    with hgood | hbad
  · obtain ⟨fd, _, heq⟩ := Ofstream.openFile_of_good hgood
    rw [heq]
    refine ⟨fun _ => rfl, fun g hg => .inr ?_, [], List.nil_prefix, by simp, fun _ => rfl⟩
    obtain rfl : fd = g := Option.some.inj hg
    refine ⟨⟨k.ino path, mode.app, 0⟩, Function.update_self _ _ _, rfl, ?_⟩
    -- a stream that does not append starts at offset 0 of a file that was emptied
    cases htrunc : mode.trunc <;> simp [hm, htrunc]
  · -- a stream that could not be opened is not good, and owes nothing
    rw [Ofstream.openFile_of_not_good hbad]
    exact ⟨fun _ => rfl, fun _ hfd => (nomatch hfd), [], List.nil_prefix, by simp, fun _ => rfl⟩

/-- An `open` of another file leaves a stream and its file alone. -/
theorem tracks_frame_open (path : PathName) (mode : OpenMode) {base wanted : Bytes} {i : Ino}
    {o : Ofstream} (h : Ofstream.Tracks base wanted i (o, k)) (hi : i ≠ k.ino path)
    (hfree : ∀ fd, o.fd = some fd → k.fds fd ≠ none) :
    Ofstream.Tracks base wanted i (o, (Ofstream.openFile path mode (Ofstream.null, k)).2)
      ∧ ∀ fd, o.fd = some fd →
          (Ofstream.openFile path mode (Ofstream.null, k)).1.fd ≠ some fd := by
  rcases Bool.eq_false_or_eq_true (Ofstream.openFile path mode (Ofstream.null, k)).1.good
    with hgood | hbad
  · obtain ⟨g, hg, heq⟩ := Ofstream.openFile_of_good hgood
    -- the new descriptor was unused
    have hne (fd : Fd) (hfd : o.fd = some fd) : fd ≠ g := by
      rintro rfl
      exact hfree fd hfd hg
    rw [heq]
    refine ⟨h.frame ?_ fun fd hfd => .inl ?_, fun fd hfd hsame => ?_⟩
    · cases mode.trunc with
      | true => exact Function.update_of_ne hi _ _
      | false => rfl
    · exact Function.update_of_ne (hne fd hfd) _ _
    · exact hne fd hfd (Option.some.inj hsame).symm
  · rw [Ofstream.openFile_of_not_good hbad]
    exact ⟨h.frame rfl fun _ _ => .inl rfl, fun _ _ hsame => (nomatch hsame)⟩

/-- A constructor, whatever it reports, leaves a logger that tracks its files from where they
stand. -/
theorem beside_construct (record : Entry → Bytes) {p q : PathName} {m : OpenMode}
    (hm : m.app = !m.trunc) (hpq : k.ino p ≠ k.ino q) :
    Beside record (k.ino p) (k.ino q) ((construct p m q m k).2.files (k.ino p))
      ((construct p m q m k).2.files (k.ino q)) (construct p m q m k) Journal.init := by
  set o := Ofstream.openFile p m (Ofstream.null, k) with ho
  set e := Ofstream.openFile q m (Ofstream.null, o.2) with he
  have hino : o.2.ino = k.ino := ino_openFile _
  have houts : Ofstream.Tracks (o.2.files (k.ino p)) [] (k.ino p) o := tracks_openFile hm
  have herrs : Ofstream.Tracks (e.2.files (k.ino q)) [] (k.ino q) e := by
    have h : Ofstream.Tracks (e.2.files (o.2.ino q)) [] (o.2.ino q) e := tracks_openFile hm
    rwa [hino] at h
  -- the first descriptor is in use when the second file is opened
  have htaken (fd : Fd) (hfd : o.1.fd = some fd) : o.2.fds fd ≠ none := by
    rcases Bool.eq_false_or_eq_true o.1.good with hgood | hbad
    · obtain ⟨g, _, heq⟩ := Ofstream.openFile_of_good hgood
      rw [ho, heq] at hfd ⊢
      obtain rfl : g = fd := Option.some.inj hfd
      simp
    · rw [ho, Ofstream.openFile_of_not_good hbad] at hfd
      cases hfd
  have hother : k.ino p ≠ o.2.ino q := by
    rw [hino]
    exact hpq
  obtain ⟨hafter, hne⟩ := tracks_frame_open q m (o := o.1) (k := o.2) houts hother htaken
  have hbase : e.2.files (k.ino p) = o.2.files (k.ino p) := by
    obtain ⟨c, hc, hfile, _⟩ := hafter.file
    rw [hfile, List.prefix_nil.mp hc, List.append_nil]
  refine ⟨rfl, hne, ?_, herrs⟩
  show Ofstream.Tracks (e.2.files (k.ino p)) [] (k.ino p) (o.1, e.2)
  rw [hbase]
  exact hafter

end Construction

/-! ## Runs -/

/-- Between `k` and `k'` a beginning of the records was added to the file, all of them if the
stream is good. -/
def AddsBeginning (record : Entry → Bytes) (i : Ino) (k k' : Kernel) (o : Ofstream)
    (es : List Entry) : Prop :=
  ∃ c, c <+: es.flatMap record ∧ k'.files i = k.files i ++ c
    ∧ (o.good = true → c = es.flatMap record)

/-- A run leaves in each file a beginning of what was meant for it. The abstract machine cannot
fail, so it says what that is. -/
theorem exec_torn (R : Recorder) {p q : PathName} {m : OpenMode} (hm : m.app = !m.trunc)
    {k : Kernel} (hpq : k.ino p ≠ k.ino q) (ops : List Op) :
    let s := construct p m q m k
    let r := Run.exec R.step ops s
    r.1 = outcome ops
      ∧ AddsBeginning R.record (k.ino p) s.2 r.2.2 r.2.1.outs (outsOf (passed ops))
      ∧ AddsBeginning R.record (k.ino q) s.2 r.2.2 r.2.1.errs (errsOf (passed ops)) := by
  have hstep (op : Op) (s : World) (j : Journal) (_ : True)
      (h : Beside R.record (k.ino p) (k.ino q) ((construct p m q m k).2.files (k.ino p))
        ((construct p m q m k).2.files (k.ino q)) s j) := h.step hpq op
  obtain ⟨hflow, hbeside⟩ := Run.exec_sim hstep (fun _ _ => trivial)
    (beside_construct R.record hm hpq)
  exact ⟨hflow, hbeside.outs.file, hbeside.errs.file⟩

section Classes

variable (host : Host) (logfile errfile : PathName) (truncate : Bool) {k : Kernel}
  (hdiff : k.ino logfile ≠ k.ino errfile) (ops : List Op)

include hdiff

theorem fileLogger_torn :
    let s := FileLogger.new₂ logfile errfile truncate k
    let r := Run.exec (fileLogger host).step ops s
    r.1 = outcome ops
      ∧ AddsBeginning (textOf host) (k.ino logfile) s.2 r.2.2 r.2.1.outs (outsOf (passed ops))
      ∧ AddsBeginning (textOf host) (k.ino errfile) s.2 r.2.2 r.2.1.errs
          (errsOf (passed ops)) := by
  rw [fileLogger_step, ← record_textRecorder]
  cases truncate <;> exact exec_torn (textRecorder host) rfl hdiff ops

theorem binLogger_torn :
    let s := BinLogger.new₂ logfile errfile truncate k
    let r := Run.exec (binLogger host).step ops s
    r.1 = outcome ops
      ∧ AddsBeginning (BinLogger.tlvOf host) (k.ino logfile) s.2 r.2.2 r.2.1.outs
          (outsOf (passed ops))
      ∧ AddsBeginning (BinLogger.tlvOf host) (k.ino errfile) s.2 r.2.2 r.2.1.errs
          (errsOf (passed ops)) := by
  rw [binLogger_step, ← BinLogger.record_recorder]
  cases truncate <;> exact exec_torn (BinLogger.recorder host) rfl hdiff ops

end Classes

/-- **Two-file loggers under faults.** Whatever fails and whoever calls `close()`, the run stops
where it would without faults, and each file has been given a beginning of the records for it:
nothing is invented, changed, reordered or left out in between. A stream that is still good has
given its file all of them, whatever became of the other. -/
theorem two_file_loggers_torn (host : Host) (logfile errfile : PathName) (truncate : Bool)
    {k : Kernel} (hdiff : k.ino logfile ≠ k.ino errfile) (ops : List Op) :
    let f := FileLogger.new₂ logfile errfile truncate k
    let f' := Run.exec (fileLogger host).step ops f
    let b := BinLogger.new₂ logfile errfile truncate k
    let b' := Run.exec (binLogger host).step ops b
    (f'.1 = outcome ops ∧ b'.1 = outcome ops)
      ∧ (AddsBeginning (textOf host) (k.ino logfile) f.2 f'.2.2 f'.2.1.outs (outsOf (passed ops))
        ∧ AddsBeginning (textOf host) (k.ino errfile) f.2 f'.2.2 f'.2.1.errs (errsOf (passed ops)))
      ∧ AddsBeginning (BinLogger.tlvOf host) (k.ino logfile) b.2 b'.2.2 b'.2.1.outs
          (outsOf (passed ops))
        ∧ AddsBeginning (BinLogger.tlvOf host) (k.ino errfile) b.2 b'.2.2 b'.2.1.errs
            (errsOf (passed ops)) := by
  obtain ⟨hflow, hfile⟩ := fileLogger_torn host logfile errfile truncate hdiff ops
  obtain ⟨hflow', hbin⟩ := binLogger_torn host logfile errfile truncate hdiff ops
  exact ⟨⟨hflow, hflow'⟩, hfile, hbin⟩

/-- A system that fails one operation, after five bytes. -/
def flaky : Kernel := { calm with oracle := fun n => if n = 6 then .fail 5 else .ok (n + 3) }

/-- The warning is torn, and the message after it arrives whole in the other file. -/
theorem two_file_loggers_torn_flaky :
    let f := FileLogger.new₂ [0x61] [0x62, 0x62] true flaky
    let f' := (Run.exec (fileLogger utc).step warnInfo f).2
    AddsBeginning (textOf utc) 1 f.2 f'.2 f'.1.outs (outsOf (passed warnInfo))
      ∧ AddsBeginning (textOf utc) 2 f.2 f'.2 f'.1.errs (errsOf (passed warnInfo))
      ∧ f'.2.files 1 = (outsOf (passed warnInfo)).flatMap (textOf utc)
      ∧ f'.2.files 2 = ascii "[2016-03-18T12:36:11+0000] " := by
  obtain ⟨_, ⟨houts, herrs⟩, _⟩ := two_file_loggers_torn utc [0x61] [0x62, 0x62] true
    (k := flaky) (by decide) warnInfo
  -- the two files themselves are computed
  exact ⟨houts, herrs, by decide +kernel, by decide +kernel⟩

end Klog
