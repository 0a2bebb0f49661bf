import Klogger.BinLog

/-!
# What reaches the files

Runs without `close()` in which no operation of a stream fails. As long as both streams are
good and open (`Running`), a call that passes the threshold is one push of its record on one
of two descriptors (`send_running`), and what a run leaves behind follows from what a single
push does (`exec_running`).

* Two files: each holds the records for its stream in the order of the calls (`exec_two_files`).
* One file: the stream `errs` always appends, the stream `outs` only if the file was not
  truncated. The records are all there, in order, exactly when no record of `outs` follows a
  record of `errs`, or the file was not truncated (`exec_one_file_iff`).
-/

namespace Klog

open TwoStream

/-! ## Running loggers -/

/-- Both streams are good, with empty buffers, and attached to open descriptors; no operation
fails from here on. -/
structure Running (fd₁ fd₂ : Fd) (s : World) : Prop where
  outs_good : s.1.outs.good = true
  outs_buf : s.1.outs.buf = []
  outs_fd : s.1.outs.fd = some fd₁
  outs_open : s.2.fds fd₁ ≠ none
  errs_good : s.1.errs.good = true
  errs_buf : s.1.errs.buf = []
  errs_fd : s.1.errs.fd = some fd₂
  errs_open : s.2.fds fd₂ ≠ none
  faultless : s.2.Faultless

/-- The descriptor under the stream for messages of a level. -/
def fdFor (fd₁ fd₂ : Fd) (l : Level) : Fd := if l.toOuts then fd₁ else fd₂

theorem fdFor_outs {fd₁ fd₂ : Fd} {l : Level} (h : l.toOuts = true) : fdFor fd₁ fd₂ l = fd₁ := by
  rw [fdFor, if_pos h]

theorem fdFor_errs {fd₁ fd₂ : Fd} {l : Level} (h : l.toOuts = false) :
    fdFor fd₁ fd₂ l = fd₂ := by
  rw [fdFor, if_neg (by simp [h])]

/-- On a running logger a record is one push, and the logger itself stays as it was. -/
theorem send_running {fd₁ fd₂ : Fd} {s : World} (h : Running fd₁ fd₂ s) (R : Recorder)
    (e : Entry) :
    R.send e s = (s.1, (s.2.push (fdFor fd₁ fd₂ e.call.level) (R.record e)).tock
      ((R.chunks e).length + 1)) := by
  cases hout : e.call.level.toOuts with
  | true =>
    -- good, open and no faults ahead: the whole script goes through
    have hclear : Ofstream.Clear ((R.chunks e).length + 1) (s.1.outs, s.2) :=
      Ofstream.clear_of_faultless h.outs_good
        (by rw [h.outs_fd]; exact Kernel.isOpen_some.mpr h.outs_open) h.faultless _
    rw [R.send_outs hout, Ofstream.send_of_clear hclear h.outs_buf, h.outs_fd, fdFor_outs hout]
    rfl
  | false =>
    have hclear : Ofstream.Clear ((R.chunks e).length + 1) (s.1.errs, s.2) :=
      Ofstream.clear_of_faultless h.errs_good
        (by rw [h.errs_fd]; exact Kernel.isOpen_some.mpr h.errs_open) h.faultless _
    rw [R.send_errs hout, Ofstream.send_of_clear hclear h.errs_buf, h.errs_fd, fdFor_errs hout]
    rfl

/-- What a record changes, descriptors and clock and `err`, leaves the logger running. -/
theorem Running.push {fd₁ fd₂ : Fd} {s : World} (h : Running fd₁ fd₂ s) (fd : Fd) (d : Bytes)
    (n : Nat) (e : LogError) : Running fd₁ fd₂ (s.1.withErr e, (s.2.push fd d).tock n) where
  outs_good := h.outs_good
  outs_buf := h.outs_buf
  outs_fd := h.outs_fd
  outs_open := mt (s.2.pushTo_fds_eq_none (some fd) d fd₁).mp h.outs_open
  errs_good := h.errs_good
  errs_buf := h.errs_buf
  errs_fd := h.errs_fd
  errs_open := mt (s.2.pushTo_fds_eq_none (some fd) d fd₂).mp h.errs_open
  faultless := (h.faultless.pushTo (some fd) d).tock n

/-- One operation of a running logger, beside the abstract machine. -/
theorem step_running {fd₁ fd₂ : Fd} {s : World} (h : Running fd₁ fd₂ s) (R : Recorder)
    {op : Op} (hop : op ≠ .close) {j : Journal} (hl : s.1.ilevel = j.threshold)
    {X : Kernel → List Entry → Prop}
    (hX : ∀ k es e n, X k es →
      X ((k.push (fdFor fd₁ fd₂ e.call.level) (R.record e)).tock n) (es ++ [e]))
    (hx : X s.2 j.entries) :
    (R.step op s).1 = (Journal.step op j).1
      ∧ Running fd₁ fd₂ (R.step op s).2
      ∧ (R.step op s).2.1.ilevel = (Journal.step op j).2.threshold
      ∧ X (R.step op s).2.2 (Journal.step op j).2.entries := by
  cases op with
  | log c now =>
    by_cases hpass : j.threshold ≤ c.level
    · -- the logger has the threshold of the abstract machine
      have hpass' : s.1.ilevel ≤ c.level := hl ▸ hpass
      rw [R.step_passed hpass', Journal.step, if_pos hpass, send_running h]
      exact ⟨rfl, h.push _ _ _ _, hl, hX _ _ ⟨c, now⟩ _ hx⟩
    · have hpass' : ¬ s.1.ilevel ≤ c.level := hl ▸ hpass
      rw [R.step_suppressed hpass', Journal.step, if_neg hpass]
      exact ⟨rfl, h, hl, hx⟩
  | level l => exact ⟨rfl, ⟨h.1, h.2, h.3, h.4, h.5, h.6, h.7, h.8, h.9⟩, rfl, hx⟩
  | close => exact absurd rfl hop

theorem Running.step {fd₁ fd₂ : Fd} {s : World} (h : Running fd₁ fd₂ s) (R : Recorder) {op : Op}
    (hop : op ≠ .close) : Running fd₁ fd₂ (R.step op s).2 :=
  (step_running h R hop (j := ⟨s.1.ilevel, []⟩) rfl (X := fun _ _ => True)
    (fun _ _ _ _ _ => trivial) trivial).2.1

/-- **What a run leaves behind follows from what one push does.** The run ends as the abstract
machine does, and a property of the files that every push carries from the entries so far to
one entry more holds of all entries in the end. -/
theorem exec_running {fd₁ fd₂ : Fd} {s : World} (h : Running fd₁ fd₂ s)
    (hl : s.1.ilevel = DEFAULT_LEVEL) (R : Recorder) {ops : List Op}
    (hops : ∀ op ∈ ops, op ≠ .close) {X : Kernel → List Entry → Prop}
    (hX : ∀ k es e n, X k es →
      X ((k.push (fdFor fd₁ fd₂ e.call.level) (R.record e)).tock n) (es ++ [e]))
    (hx : X s.2 []) :
    (Run.exec R.step ops s).1 = outcome ops
      ∧ Running fd₁ fd₂ (Run.exec R.step ops s).2
      ∧ X (Run.exec R.step ops s).2.2 (passed ops) := by
  have hstart : Running fd₁ fd₂ s ∧ s.1.ilevel = Journal.init.threshold
      ∧ X s.2 Journal.init.entries := ⟨h, hl, hx⟩
  obtain ⟨hflow, hrunning, _, hfinal⟩ := Run.exec_sim
    (R := fun s (j : Journal) => Running fd₁ fd₂ s ∧ s.1.ilevel = j.threshold ∧ X s.2 j.entries)
    (fun op s j hop hst => step_running hst.1 R hop hst.2.1 hX hst.2.2) hops hstart
  exact ⟨hflow, hrunning, hfinal⟩

/-! ## Construction -/

/-- What a constructor that went well leaves behind: two new descriptors, at the beginning of their
files, which are empty if they were to be. -/
theorem construct_healthy {p q : PathName} {m n : OpenMode} {k : Kernel}
    (h : (construct p m q n k).1.err = .HEALTHY) :
    ∃ fd₁ fd₂, fd₁ ≠ fd₂ ∧ construct p m q n k =
      (⟨.attached fd₁, .attached fd₂, DEFAULT_LEVEL, .HEALTHY⟩,
        { k with
          files :=
            let files := if m.trunc then Function.update k.files (k.ino p) [] else k.files
            if n.trunc then Function.update files (k.ino q) [] else files
          fds := Function.update (Function.update k.fds fd₁ (some ⟨k.ino p, m.app, 0⟩)) fd₂
            (some ⟨k.ino q, n.app, 0⟩)
          tick := k.tick + 2 }) := by
  obtain ⟨houts, herrs⟩ := bothGood_construct_iff.mp h
  obtain ⟨fd₁, hfree₁, heq₁⟩ := Ofstream.openFile_of_good houts
  obtain ⟨fd₂, hfree₂, heq₂⟩ := Ofstream.openFile_of_good herrs
  -- the second open found the first descriptor taken
  have hne : fd₁ ≠ fd₂ := by
    rintro rfl
    rw [heq₁] at hfree₂
    simp at hfree₂
  have hdef : construct p m q n k
      = (⟨(Ofstream.openFile p m (Ofstream.null, k)).1,
          (Ofstream.openFile q n (Ofstream.null,
            (Ofstream.openFile p m (Ofstream.null, k)).2)).1,
          DEFAULT_LEVEL, (construct p m q n k).1.err⟩,
        (Ofstream.openFile q n (Ofstream.null,
          (Ofstream.openFile p m (Ofstream.null, k)).2)).2) := rfl
  refine ⟨fd₁, fd₂, hne, ?_⟩
  rw [hdef, h, heq₂, heq₁]

theorem construct_running {p q : PathName} {m n : OpenMode} {k : Kernel} (hk : k.Faultless)
    (h : (construct p m q n k).1.err = .HEALTHY) :
    ∃ fd₁ fd₂, fd₁ ≠ fd₂ ∧ Running fd₁ fd₂ (construct p m q n k)
      ∧ (construct p m q n k).1.ilevel = DEFAULT_LEVEL
      ∧ (construct p m q n k).2.fds fd₁ = some ⟨k.ino p, m.app, 0⟩
      ∧ (construct p m q n k).2.fds fd₂ = some ⟨k.ino q, n.app, 0⟩
      ∧ (construct p m q n k).2.files =
          let files := if m.trunc then Function.update k.files (k.ino p) [] else k.files
          if n.trunc then Function.update files (k.ino q) [] else files := by
  obtain ⟨fd₁, fd₂, hne, heq⟩ := construct_healthy h
  have hfd₁ : (construct p m q n k).2.fds fd₁ = some ⟨k.ino p, m.app, 0⟩ := by
    rw [heq]
    simp [Function.update_of_ne hne]
  have hfd₂ : (construct p m q n k).2.fds fd₂ = some ⟨k.ino q, n.app, 0⟩ := by
    rw [heq]
    simp
  have hfaultless : (construct p m q n k).2.Faultless := by
    rw [heq]
    intro i hi
    exact hk i (le_trans (Nat.le_add_right _ 2) hi)
  have hobj : (construct p m q n k).1
      = ⟨.attached fd₁, .attached fd₂, DEFAULT_LEVEL, .HEALTHY⟩ := by rw [heq]
  refine ⟨fd₁, fd₂, hne, ?_, by rw [hobj], hfd₁, hfd₂, by rw [heq]⟩
  exact {
    outs_good := by rw [hobj]; rfl
    outs_buf := by rw [hobj]; rfl
    outs_fd := by rw [hobj]; rfl
    outs_open := by rw [hfd₁]; simp
    errs_good := by rw [hobj]; rfl
    errs_buf := by rw [hobj]; rfl
    errs_fd := by rw [hobj]; rfl
    errs_open := by rw [hfd₂]; simp
    faultless := hfaultless }

/-! ## Two files -/

/-- The state of two files after the entries `es`. -/
def TwoFiles (record : Entry → Bytes) (fd₁ fd₂ : Fd) (i₁ i₂ : Ino) (b₁ b₂ : Bytes)
    (k : Kernel) (es : List Entry) : Prop :=
  k.AtEnd fd₁ i₁ ∧ k.AtEnd fd₂ i₂
    ∧ k.files i₁ = b₁ ++ (outsOf es).flatMap record
    ∧ k.files i₂ = b₂ ++ (errsOf es).flatMap record

/-- A record goes to the end of its own file. The other file does not change, as the two are
different. -/
theorem TwoFiles.push {record : Entry → Bytes} {fd₁ fd₂ : Fd} {i₁ i₂ : Ino} {b₁ b₂ : Bytes}
    (hfd : fd₁ ≠ fd₂) (hi : i₁ ≠ i₂) {k : Kernel} {es : List Entry}
    (h : TwoFiles record fd₁ fd₂ i₁ i₂ b₁ b₂ k es) (e : Entry) (n : Nat) :
    TwoFiles record fd₁ fd₂ i₁ i₂ b₁ b₂
      ((k.push (fdFor fd₁ fd₂ e.call.level) (record e)).tock n) (es ++ [e]) := by
  obtain ⟨hend₁, hend₂, hfile₁, hfile₂⟩ := h
  cases hout : e.call.level.toOuts with
  | true =>
    rw [TwoFiles, fdFor_outs hout, outsOf_snoc_outs hout, errsOf_snoc_outs hout]
    refine ⟨hend₁.push _, hend₂.push_ne hend₁ hfd.symm hi.symm _, ?_, ?_⟩
    · rw [Kernel.tock_files, hend₁.push_files, Function.update_self, hfile₁]
      simp
    · rw [Kernel.tock_files, hend₁.push_files, Function.update_of_ne hi.symm, hfile₂]
  | false =>
    rw [TwoFiles, fdFor_errs hout, outsOf_snoc_errs hout, errsOf_snoc_errs hout]
    refine ⟨hend₁.push_ne hend₂ hfd hi _, hend₂.push _, ?_, ?_⟩
    · rw [Kernel.tock_files, hend₂.push_files, Function.update_of_ne hi, hfile₁]
    · rw [Kernel.tock_files, hend₂.push_files, Function.update_self, hfile₂]
      simp

/-- A run on two files that are opened in the same mode: what was there before, unless it was
emptied, and then the records for each of them. -/
theorem exec_two_files (R : Recorder) {p q : PathName} {m : OpenMode} (hm : m.app = !m.trunc)
    {k : Kernel} (hk : k.Faultless) (hpq : k.ino p ≠ k.ino q)
    (hopen : (construct p m q m k).1.err = .HEALTHY) {ops : List Op}
    (hops : ∀ op ∈ ops, op ≠ .close) :
    let r := Run.exec R.step ops (construct p m q m k)
    r.1 = outcome ops
      ∧ r.2.2.files (k.ino p)
          = (if m.trunc then [] else k.files (k.ino p)) ++ (outsOf (passed ops)).flatMap R.record
      ∧ r.2.2.files (k.ino q)
          = (if m.trunc then [] else k.files (k.ino q))
            ++ (errsOf (passed ops)).flatMap R.record := by
  obtain ⟨fd₁, fd₂, hne, hrunning, hlevel, hfd₁, hfd₂, hfiles⟩ := construct_running hk hopen
  -- what the two opens leave in the files; the second one leaves the first file alone
  have hbase₁ : (construct p m q m k).2.files (k.ino p)
      = if m.trunc then [] else k.files (k.ino p) := by
    rw [hfiles]
    cases m.trunc <;> simp [Function.update_of_ne hpq]
  have hbase₂ : (construct p m q m k).2.files (k.ino q)
      = if m.trunc then [] else k.files (k.ino q) := by
    rw [hfiles]
    cases m.trunc <;> simp
  -- a stream that does not append starts at offset 0 of a file that was emptied
  have hend {fd : Fd} {i : Ino} (hfd : (construct p m q m k).2.fds fd = some ⟨i, m.app, 0⟩)
      (hbase : (construct p m q m k).2.files i = if m.trunc then [] else k.files i) :
      (construct p m q m k).2.AtEnd fd i := by
    refine ⟨_, hfd, rfl, ?_⟩
    rw [hbase, hm]
    cases m.trunc <;> simp
  have hstart : TwoFiles R.record fd₁ fd₂ (k.ino p) (k.ino q)
      (if m.trunc then [] else k.files (k.ino p)) (if m.trunc then [] else k.files (k.ino q))
      (construct p m q m k).2 [] :=
    ⟨hend hfd₁ hbase₁, hend hfd₂ hbase₂, by simp [outsOf, hbase₁], by simp [errsOf, hbase₂]⟩
  obtain ⟨hflow, _, _, _, hfile₁, hfile₂⟩ := exec_running hrunning hlevel R hops
    (fun _ _ e n h => h.push hne hpq e n) hstart
  exact ⟨hflow, hfile₁, hfile₂⟩

/-! ## One file -/

/-- No entry for `outs` comes after an entry for `errs`. -/
def Ordered (es : List Entry) : Prop :=
  es.Pairwise fun a b => b.call.level.toOuts = true → a.call.level.toOuts = true

instance : DecidablePred Ordered := fun es =>
  inferInstanceAs (Decidable (es.Pairwise _))

theorem ordered_append_errs {es : List Entry} {e : Entry} (h : e.call.level.toOuts = false) :
    Ordered (es ++ [e]) ↔ Ordered es := by
  simp [Ordered, List.pairwise_append, h]

/-- One for `outs` does unless there was none for `errs` so far. -/
theorem ordered_append_outs {es : List Entry} {e : Entry} (h : e.call.level.toOuts = true) :
    Ordered (es ++ [e]) ↔ Ordered es ∧ errsOf es = [] := by
  simp [Ordered, List.pairwise_append, errsOf, h]

/-- The state of one file that both streams append to, after the entries `es`. -/
def OneFile (record : Entry → Bytes) (fd₁ fd₂ : Fd) (i : Ino) (b : Bytes) (k : Kernel)
    (es : List Entry) : Prop :=
  k.Appending fd₁ i ∧ k.Appending fd₂ i ∧ k.files i = b ++ es.flatMap record

/-- In append mode both streams find the end of the file, wherever the other one has moved it. -/
theorem OneFile.push {record : Entry → Bytes} {fd₁ fd₂ : Fd} {i : Ino} {b : Bytes}
    {k : Kernel} {es : List Entry} (h : OneFile record fd₁ fd₂ i b k es) (e : Entry) (n : Nat) :
    OneFile record fd₁ fd₂ i b
      ((k.push (fdFor fd₁ fd₂ e.call.level) (record e)).tock n) (es ++ [e]) := by
  obtain ⟨happ₁, happ₂, hfile⟩ := h
  have hend : k.AtEnd (fdFor fd₁ fd₂ e.call.level) i := by
    unfold fdFor
    split
    · exact happ₁.atEnd
    · exact happ₂.atEnd
  refine ⟨happ₁.push _ _, happ₂.push _ _, ?_⟩
  rw [Kernel.tock_files, hend.push_files, Function.update_self, hfile]
  simp

/-- The state of one file that `errs` appends to and `outs` writes at its own offset, which
counts the records of `outs` only. Once a record of `outs` follows one of `errs`, the file is
too short for its records, and it stays so. -/
def Clobbered (record : Entry → Bytes) (fd₁ fd₂ : Fd) (i : Ino) (k : Kernel)
    (es : List Entry) : Prop :=
  k.Appending fd₂ i ∧ ∃ f, k.fds fd₁ = some f ∧ f.ino = i ∧ f.append = false
    ∧ f.off ≤ (k.files i).length
    ∧ ((Ordered es ∧ k.files i = es.flatMap record
          ∧ f.off = ((outsOf es).flatMap record).length)
        ∨ (¬ Ordered es ∧ (k.files i).length < (es.flatMap record).length))

/-- A record of `errs` is appended, and the offset of `outs` stays behind. -/
theorem Clobbered.push_errs {record : Entry → Bytes} {fd₁ fd₂ : Fd} (hfd : fd₁ ≠ fd₂) {i : Ino}
    {k : Kernel} {es : List Entry} (h : Clobbered record fd₁ fd₂ i k es) {e : Entry}
    (he : e.call.level.toOuts = false) (n : Nat) :
    Clobbered record fd₁ fd₂ i ((k.push fd₂ (record e)).tock n) (es ++ [e]) := by
  obtain ⟨happ, f, hf, hi, hmode, hoff, hcases⟩ := h
  have hfile : (k.push fd₂ (record e)).files i = k.files i ++ record e := by
    rw [happ.atEnd.push_files, Function.update_self]
  have hflat : (es ++ [e]).flatMap record = es.flatMap record ++ record e := by simp
  refine ⟨happ.push _ _, f, ?_, hi, hmode, ?_, ?_⟩
  · rw [Kernel.tock_fds, k.push_fds_ne hfd, hf]
  · rw [Kernel.tock_files, hfile, List.length_append]
    omega
  · -- the file and the records to be in it grow by the same bytes
    rw [Kernel.tock_files, hfile, hflat, outsOf_snoc_errs he, ordered_append_errs he]
    rcases hcases with ⟨hord, hcontent, hlen⟩ | ⟨hord, hshort⟩
    · exact .inl ⟨hord, by rw [hcontent], hlen⟩
    · refine .inr ⟨hord, ?_⟩
      rw [List.length_append, List.length_append]
      omega

/-- With an entry for `errs` among them, the records take more room than those of `outs`. -/
theorem length_outs_lt {record : Entry → Bytes} (hne : ∀ e, record e ≠ []) {es : List Entry}
    (h : errsOf es ≠ []) :
    ((outsOf es).flatMap record).length < (es.flatMap record).length := by
  obtain ⟨a, as, has⟩ := List.exists_cons_of_ne_nil h
  have ha : 0 < (record a).length := List.length_pos_iff.mpr (hne a)
  rw [length_flatMap_split record es, has, List.flatMap_cons, List.length_append]
  omega

/-- A record of `outs` goes to its own offset. While there is no record of `errs` that is the end;
the first time there is one the file loses bytes for good. -/
theorem Clobbered.push_outs {record : Entry → Bytes} (hne : ∀ e, record e ≠ [])
    {fd₁ fd₂ : Fd} {i : Ino} {k : Kernel} {es : List Entry}
    (h : Clobbered record fd₁ fd₂ i k es) {e : Entry} (he : e.call.level.toOuts = true)
    (n : Nat) : Clobbered record fd₁ fd₂ i ((k.push fd₁ (record e)).tock n) (es ++ [e]) := by
  obtain ⟨happ, f, hf, hi, hmode, hoff, hcases⟩ := h
  have hpos : 0 < (record e).length := List.length_pos_iff.mpr (hne e)
  have hpush := Kernel.push_open hf (hne e)
  simp only [hmode, Bool.false_eq_true, if_false, hi] at hpush
  -- not in append mode: the offset decides
  have hfile : (k.push fd₁ (record e)).files i = overwrite (k.files i) f.off (record e) := by
    rw [hpush]
    exact Function.update_self _ _ _
  have hlen := length_overwrite hoff (record e)
  have hflat : (es ++ [e]).flatMap record = es.flatMap record ++ record e := by simp
  refine ⟨happ.push _ _, { f with off := f.off + (record e).length }, ?_, hi, hmode, ?_, ?_⟩
  · rw [Kernel.tock_fds, hpush]
    simp [hi, hmode]
  · rw [Kernel.tock_files, hfile, hlen]
    exact le_max_right _ _
  · rw [Kernel.tock_files, hfile, hflat, outsOf_snoc_outs he, ordered_append_outs he]
    rcases hcases with ⟨hord, hcontent, hcount⟩ | ⟨hord, hshort⟩
    · by_cases herrs : errsOf es = []
      · -- nothing was appended behind the back of `outs`: its offset is the end of the file
        have hend : f.off = (k.files i).length := by
          rw [hcount, hcontent, outsOf_of_errsOf_nil herrs]
        refine .inl ⟨⟨hord, herrs⟩, ?_, ?_⟩
        · rw [hend, overwrite_length, hcontent]
        · rw [List.flatMap_append, List.length_append, ← hcount]
          simp
      · -- the first record of `outs` behind one of `errs` overwrites that one
        have hlt := length_outs_lt hne herrs
        refine .inr ⟨fun h => herrs h.2, ?_⟩
        rw [hlen, hcontent, List.length_append, hcount]
        omega
    · -- a file that is too short already does not grow by more than the record
      refine .inr ⟨fun h => hord h.1, ?_⟩
      rw [hlen, List.length_append]
      omega

/-- **When a file that both streams write to holds the records of a run.** -/
theorem exec_one_file_iff (R : Recorder) {p : PathName} {m : OpenMode} (hm : m.app = !m.trunc)
    {k : Kernel} (hk : k.Faultless)
    (hopen : (construct p m p ⟨true, false⟩ k).1.err = .HEALTHY) {ops : List Op}
    (hops : ∀ op ∈ ops, op ≠ .close) :
    (Run.exec R.step ops (construct p m p ⟨true, false⟩ k)).2.2.files (k.ino p)
        = (if m.trunc then [] else k.files (k.ino p)) ++ (passed ops).flatMap R.record
      ↔ m.trunc = false ∨ Ordered (passed ops) := by
  obtain ⟨fd₁, fd₂, hne, hrunning, hlevel, hfd₁, hfd₂, hfiles⟩ := construct_running hk hopen
  have happ₂ : (construct p m p ⟨true, false⟩ k).2.Appending fd₂ (k.ino p) :=
    ⟨_, hfd₂, rfl, rfl⟩
  cases htrunc : m.trunc with
  | false =>
    have happ₁ : (construct p m p ⟨true, false⟩ k).2.Appending fd₁ (k.ino p) :=
      ⟨_, hfd₁, rfl, by simp [hm, htrunc]⟩
    -- not truncated: both streams append from the start
    have hstart : OneFile R.record fd₁ fd₂ (k.ino p) (k.files (k.ino p))
        (construct p m p ⟨true, false⟩ k).2 [] :=
      ⟨happ₁, happ₂, by simp [hfiles, htrunc]⟩
    obtain ⟨_, _, _, _, hfile⟩ := exec_running hrunning hlevel R hops
      (fun _ _ e n h => h.push e n) hstart
    simpa using hfile
  | true =>
    have hbase : (construct p m p ⟨true, false⟩ k).2.files (k.ino p) = [] := by
      simp [hfiles, htrunc]
    have hstart : Clobbered R.record fd₁ fd₂ (k.ino p)
        (construct p m p ⟨true, false⟩ k).2 [] :=
      ⟨happ₂, _, hfd₁, rfl, by simp [hm, htrunc], by simp,
        .inl ⟨.nil, by simp [hbase], by simp [outsOf]⟩⟩
    obtain ⟨_, _, _, f, _, _, _, _, hcases⟩ := exec_running hrunning hlevel R hops
      (X := Clobbered R.record fd₁ fd₂ (k.ino p)) (fun _ _ e n h => by
        unfold fdFor
        cases he : e.call.level.toOuts with
        | true => exact h.push_outs R.ne_nil he n
        | false => exact h.push_errs hne he n) hstart
    simp only [if_true, List.nil_append, Bool.true_eq_false, false_or]
    -- ordered, and everything is there; or not ordered, and the file is too short for everything
    rcases hcases with ⟨hord, hcontent, _⟩ | ⟨hord, hshort⟩
    · exact iff_of_true hcontent hord
    · refine iff_of_false (fun heq => ?_) hord
      rw [heq] at hshort
      exact lt_irrefl _ hshort

/-! ## The two classes -/

/-- The file holds what it held before, unless it was truncated, and then the records. -/
def HoldsRecords (record : Entry → Bytes) (logfile : PathName) (truncate : Bool) (k k' : Kernel)
    (es : List Entry) : Prop :=
  k'.files (k.ino logfile)
    = (if truncate then [] else k.files (k.ino logfile)) ++ es.flatMap record

/-- **Two-file loggers are durable.** Whenever a call has returned or has exited the process,
each file holds its old contents, or nothing if truncated, and then exactly the records of the
calls for it that passed the threshold, in order. -/
theorem two_file_loggers (host : Host) (logfile errfile : PathName) (truncate : Bool) {k : Kernel}
    (hk : k.Faultless) (hdiff : k.ino logfile ≠ k.ino errfile) {ops : List Op}
    (hops : ∀ op ∈ ops, op ≠ .close) :
    ((FileLogger.new₂ logfile errfile truncate k).1.err = .HEALTHY →
        let k' := (Run.exec (fileLogger host).step ops
          (FileLogger.new₂ logfile errfile truncate k)).2.2
        HoldsRecords (textOf host) logfile truncate k k' (outsOf (passed ops))
          ∧ HoldsRecords (textOf host) errfile truncate k k' (errsOf (passed ops)))
      ∧ ((BinLogger.new₂ logfile errfile truncate k).1.err = .HEALTHY →
        let k' := (Run.exec (binLogger host).step ops
          (BinLogger.new₂ logfile errfile truncate k)).2.2
        HoldsRecords (BinLogger.tlvOf host) logfile truncate k k' (outsOf (passed ops))
          ∧ HoldsRecords (BinLogger.tlvOf host) errfile truncate k k' (errsOf (passed ops))) := by
  refine ⟨fun hopen => ?_, fun hopen => ?_⟩
  · rw [fileLogger_step, ← record_textRecorder]
    cases truncate <;> exact (exec_two_files (textRecorder host) rfl hk hdiff hopen hops).2
  · rw [binLogger_step, ← BinLogger.record_recorder]
    cases truncate <;> exact (exec_two_files (BinLogger.recorder host) rfl hk hdiff hopen hops).2

/-- A process with its standard descriptors open, on a system that lets everything pass. -/
def calm : Kernel where
  ino p := p.length
  files _ := []
  fds fd := if fd = 1 ∨ fd = 2 then some ⟨100 + fd, true, 0⟩ else none
  sent _ := []
  tick := 0
  oracle n := .ok (n + 3)

theorem faultless_calm : calm.Faultless := fun n _ => ⟨n + 3, rfl⟩

/-- Thirty-six minutes and eleven seconds past noon on March 18, 2016, in UTC. -/
def noon : Time := 1458304571

/-- A little-endian machine at that moment, in UTC. -/
def utc : Host := ⟨.little, fun _ => ⟨2016, 2, 18, 12, 36, 11, 0⟩⟩

/-- A warning, and then a message. -/
def warnInfo : List Op :=
  [.log (.warnPlain (ascii "main") (ascii "depleted")) noon,
    .log (.infoPlain (ascii "main") (ascii "starts")) noon]

theorem two_file_loggers_warnInfo :
    let k := (Run.exec (fileLogger utc).step warnInfo
      (FileLogger.new₂ [0x61] [0x62, 0x62] true calm)).2.2
    let k' := (Run.exec (binLogger utc).step warnInfo
      (BinLogger.new₂ [0x61] [0x62, 0x62] true calm)).2.2
    (HoldsRecords (textOf utc) [0x61] true calm k (outsOf (passed warnInfo))
        ∧ HoldsRecords (textOf utc) [0x62, 0x62] true calm k (errsOf (passed warnInfo)))
      ∧ (HoldsRecords (BinLogger.tlvOf utc) [0x61] true calm k' (outsOf (passed warnInfo))
        ∧ HoldsRecords (BinLogger.tlvOf utc) [0x62, 0x62] true calm k'
            (errsOf (passed warnInfo))) :=
  have h := two_file_loggers utc [0x61] [0x62, 0x62] true faultless_calm (by decide)
    (show ∀ op ∈ warnInfo, op ≠ .close by decide)
  ⟨h.1 rfl, h.2 rfl⟩

/-- **One-file loggers**: the file holds exactly the records, in the order of the calls, if and
only if it was not truncated or no record of `outs` came after one of `errs`. -/
theorem one_file_loggers_iff (host : Host) (logfile : PathName) (truncate : Bool) {k : Kernel}
    (hk : k.Faultless) {ops : List Op} (hops : ∀ op ∈ ops, op ≠ .close) :
    ((FileLogger.new logfile truncate k).1.err = .HEALTHY →
        (HoldsRecords (textOf host) logfile truncate k
            (Run.exec (fileLogger host).step ops (FileLogger.new logfile truncate k)).2.2
            (passed ops)
          ↔ truncate = false ∨ Ordered (passed ops)))
      ∧ ((BinLogger.new logfile truncate k).1.err = .HEALTHY →
        (HoldsRecords (BinLogger.tlvOf host) logfile truncate k
            (Run.exec (binLogger host).step ops (BinLogger.new logfile truncate k)).2.2
            (passed ops)
          ↔ truncate = false ∨ Ordered (passed ops))) := by
  refine ⟨fun hopen => ?_, fun hopen => ?_⟩
  · rw [fileLogger_step, ← record_textRecorder]
    cases truncate <;> exact exec_one_file_iff (textRecorder host) rfl hk hopen hops
  · rw [binLogger_step, ← BinLogger.record_recorder]
    cases truncate <;> exact exec_one_file_iff (BinLogger.recorder host) rfl hk hopen hops

/-- Here the message comes after the warning, and the file was emptied: the right side is false. -/
theorem one_file_loggers_warnInfo :
    (HoldsRecords (textOf utc) [0x61] true calm
        (Run.exec (fileLogger utc).step warnInfo (FileLogger.new [0x61] true calm)).2.2
        (passed warnInfo)
      ↔ true = false ∨ Ordered (passed warnInfo))
    ∧ (HoldsRecords (BinLogger.tlvOf utc) [0x61] true calm
        (Run.exec (binLogger utc).step warnInfo (BinLogger.new [0x61] true calm)).2.2
        (passed warnInfo)
      ↔ true = false ∨ Ordered (passed warnInfo)) :=
  have h := one_file_loggers_iff utc [0x61] true faultless_calm
    (show ∀ op ∈ warnInfo, op ≠ .close by decide)
  ⟨h.1 rfl, h.2 rfl⟩

/-- Nothing failed and both calls passed the threshold, but of the warning only a few bytes
are left behind the message that was written over it. -/
theorem warnInfo_clobbers :
    let k := (Run.exec (fileLogger utc).step warnInfo (FileLogger.new [0x61] true calm)).2.2
    k.files 1 = ascii "[2016-03-18T12:36:11+0000] [INFO] [actor:main event:starts]\nted]\n"
      ∧ (passed warnInfo).flatMap (textOf utc)
        = ascii "[2016-03-18T12:36:11+0000] [WARNING] [actor:main event:depleted]\n"
          ++ ascii "[2016-03-18T12:36:11+0000] [INFO] [actor:main event:starts]\n"
      ∧ ¬ HoldsRecords (textOf utc) [0x61] true calm k (passed warnInfo) := by
  unfold HoldsRecords
  decide +kernel

end Klog
