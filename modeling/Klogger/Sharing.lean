import Klogger.Process
import Klogger.Torn

/-!
# Loggers that share files

Any number of loggers in one process, any of their streams on the same file, in any order of
calls and under any faults. Beside the process runs `Journals`, which knows thresholds and entries
and no files. Each entry has a share in the file its stream is on: a beginning of its record. The
files hold their old contents and then the shares, in the order of the calls over all loggers
(`Process.shared_files`), so no logger overwrites, moves or loses what another has written, and no
fault of one stream damages a record of another. What this takes is that every descriptor appends,
or is alone on its file (`Kernel.Orderly`).
-/

namespace Klog

open TwoStream

/-- The stream for DEBUG and INFO messages, or the other one. -/
def TwoStream.stream (t : TwoStream) (b : Bool) : Ofstream := if b then t.outs else t.errs

namespace Recorder

variable (R : Recorder) (e : Entry) (s : World)

/-- What a record does to the system, it does through the stream its level selects. -/
theorem send_kernel : (R.send e s).2
    = (Ofstream.ref.send (R.chunks e) (s.1.stream e.call.level.toOuts, s.2)).2 := by
  cases hout : e.call.level.toOuts with
  | true =>
    rw [R.send_outs hout]
    rfl
  | false =>
    rw [R.send_errs hout]
    rfl

theorem send_stream : (R.send e s).1.stream e.call.level.toOuts
    = (Ofstream.ref.send (R.chunks e) (s.1.stream e.call.level.toOuts, s.2)).1 := by
  cases hout : e.call.level.toOuts with
  | true =>
    rw [R.send_outs hout]
    rfl
  | false =>
    rw [R.send_errs hout]
    rfl

theorem send_stream_ne {b : Bool} (hb : b ≠ e.call.level.toOuts) :
    (R.send e s).1.stream b = s.1.stream b := by
  cases hout : e.call.level.toOuts with
  | true =>
    obtain rfl : b = false := by simpa [hout] using hb
    rw [R.send_outs hout]
    rfl
  | false =>
    obtain rfl : b = true := by simpa [hout] using hb
    rw [R.send_errs hout]
    rfl

theorem send_ilevel : (R.send e s).1.ilevel = s.1.ilevel := by
  cases hout : e.call.level.toOuts with
  | true =>
    rw [R.send_outs hout]
    rfl
  | false =>
    rw [R.send_errs hout]
    rfl

end Recorder

/-- `close()` does not touch the streams: they keep their descriptor numbers. -/
theorem close_stream (s : World) (b : Bool) :
    (TwoStream.close s).2.1.stream b = s.1.stream b := by
  obtain ⟨e, hobj⟩ := close_withErr s
  rw [hobj]
  rfl

theorem close_ilevel (s : World) : (TwoStream.close s).2.1.ilevel = s.1.ilevel := by
  obtain ⟨e, hobj⟩ := close_withErr s
  rw [hobj]
  rfl

theorem close_orderly {s : World} (h : s.2.Orderly) : (TwoStream.close s).2.2.Orderly := by
  rcases close_kernel s with hk | hk <;> rw [hk]
  · exact h.close _
  · exact (h.close _).close _

/-- After `close()` a descriptor is on its file, or on none. -/
theorem close_target (s : World) (g : Option Fd) :
    (TwoStream.close s).2.2.target g = s.2.target g
      ∨ (TwoStream.close s).2.2.target g = none := by
  cases g with
  | none => exact .inl rfl
  | some g =>
    rcases close_fds s g with hsame | hnone
    · exact .inl (congrArg (Option.map OpenFile.ino) hsame)
    · exact .inr (congrArg (Option.map OpenFile.ino) hnone)

/-! ## The purpose of the loggers of a process -/

/-- Who a message comes from. -/
inductive Source (ι : Type) where
  | fileBacked (i : ι)
  | console
  deriving DecidableEq

/-- The object that an operation names. -/
def ProcessOp.source {ι : Type} : ProcessOp ι → Source ι
  | .fileBacked i _ => .fileBacked i
  | .console _ => .console

def ProcessOp.op {ι : Type} : ProcessOp ι → Op
  | .fileBacked _ op => op
  | .console op => op

/-- The abstract machine: the threshold of each logger, and the calls that passed theirs, in
order. -/
structure Journals (ι : Type) where
  threshold : Source ι → Level
  entries : List (Source ι × Entry)

/-- The abstract machine keeps an entry that passes the threshold of its source. `close()` is
nothing to it. -/
def Journals.step {ι : Type} [DecidableEq ι] (o : ProcessOp ι) (j : Journals ι) :
    ControlFlow × Journals ι :=
  match o.op with
  | .log c now =>
    if j.threshold o.source ≤ c.level then
      (c.flow, { j with entries := j.entries ++ [(o.source, ⟨c, now⟩)] })
    else (.returned, j)
  | .level l => (.returned, { j with threshold := Function.update j.threshold o.source l })
  | .close => (.returned, j)

/-- What the call of an entry has added to a file. -/
structure Share (ι : Type) where
  source : Source ι
  entry : Entry
  added : Bytes

/-- The stream a share went through. -/
def Share.port {ι : Type} (s : Share ι) : Source ι × Bool := (s.source, s.entry.call.level.toOuts)

namespace Process

variable {ι : Type}

def object (p : Process ι) : Source ι → TwoStream
  | .fileBacked i => (p.loggers i).2
  | .console => p.console

/-- How a source turns an entry into bytes: the loggers by their class, the console as text. -/
def recorder (host : Host) (p : Process ι) : Source ι → Recorder
  | .fileBacked i => (p.loggers i).1.recorder host
  | .console => textRecorder host

def stream (p : Process ι) (a : Source ι × Bool) : Ofstream := (p.object a.1).stream a.2

/-- The file a stream is on. -/
def fileOf (p : Process ι) (a : Source ι × Bool) : Option Ino := p.k.target (p.stream a).fd

/-- The record of the entry of a share, whether it has arrived or not. -/
def record (host : Host) (p : Process ι) (s : Share ι) : Bytes :=
  (p.recorder host s.source).record s.entry

/-- The abstract machine that runs beside `p`: the thresholds of now, and no entries yet. -/
def journals (p : Process ι) : Journals ι := ⟨fun a => (p.object a).ilevel, []⟩

/-- From `p` to `q` each file has been given the shares of the streams that were on it. A stream
that is still good has given all of its records; one that has torn a record gives nothing
after it. -/
structure Shared (host : Host) (p q : Process ι) (shares : List (Share ι)) : Prop where
  files : ∀ i, q.k.files i
    = p.k.files i ++ (shares.filter fun s => p.fileOf s.port = some i).flatMap Share.added
  beginning : ∀ s ∈ shares, s.added <+: p.record host s
  whole : ∀ s ∈ shares, (q.stream s.port).good = true → s.added = p.record host s
  stops : shares.Pairwise fun s t => s.port = t.port → s.added ≠ p.record host s → t.added = []

/-- The process beside the abstract machine. -/
structure Sharing (host : Host) (p q : Process ι) (j : Journals ι) (shares : List (Share ι)) : Prop
    extends Shared host p q shares where
  threshold : ∀ a, (q.object a).ilevel = j.threshold a
  entries : shares.map (fun s => (s.source, s.entry)) = j.entries
  recorders : ∀ a, q.recorder host a = p.recorder host a
  fd : ∀ a, (q.stream a).fd = (p.stream a).fd
  target : ∀ g, q.k.target g = p.k.target g ∨ q.k.target g = none
  orderly : q.k.Orderly
  drained : ∀ a, Ofstream.Drained (q.stream a)

/-- One more share: it comes at the end of the file its stream is on, if it is not empty. -/
theorem files_snoc (p : Process ι) (files : Ino → Bytes) (shares : List (Share ι)) {s : Share ι}
    {t : Option Ino} (ht : t = p.fileOf s.port ∨ s.added = []) (i : Ino) {base : Bytes}
    (h : files i = base ++ (shares.filter fun s => p.fileOf s.port = some i).flatMap Share.added) :
    Kernel.added files t s.added i
      = base ++ ((shares ++ [s]).filter fun s => p.fileOf s.port = some i).flatMap Share.added := by
  have hlast : Kernel.added files t s.added i
      = files i ++ ([s].filter fun s => p.fileOf s.port = some i).flatMap Share.added := by
    rcases ht with rfl | hnil
    · -- either the stream is on file `i` and the bytes come at its end, or file `i` stays
      by_cases hi : p.fileOf s.port = some i
      · simp [hi, Kernel.added]
      · rw [List.filter_cons_of_neg (by simpa using hi), List.filter_nil, List.flatMap_nil,
          List.append_nil]
        cases hf : p.fileOf s.port with
        | none => rfl
        | some i' =>
          rw [hf] at hi
          exact Function.update_of_ne (fun hii => hi (congrArg some hii.symm)) _ _
    · rw [hnil, Kernel.added_nil]
      have hadds : ∀ u ∈ [s].filter fun s => p.fileOf s.port = some i, u.added = [] := by
        intro u hu
        rw [List.mem_singleton.mp (List.mem_of_mem_filter hu), hnil]
      rw [List.flatMap_eq_nil_iff.mpr hadds, List.append_nil]
  rw [hlast, h, List.filter_append, List.flatMap_append, List.append_assoc]

section Step

variable [DecidableEq ι] (host : Host)

/-- Every operation is one of a recorder on the object it names; the other objects stay. -/
theorem step_eq (o : ProcessOp ι) (p : Process ι) :
    let r := (p.recorder host o.source).step o.op (p.object o.source, p.k)
    (step host o p).1 = r.1 ∧ (step host o p).2.k = r.2.2
      ∧ (step host o p).2.object o.source = r.2.1
      ∧ (∀ a, a ≠ o.source → (step host o p).2.object a = p.object a)
      ∧ ∀ a, (step host o p).2.recorder host a = p.recorder host a := by
  cases o with
  | fileBacked i op =>
    -- a method of either class is a step of its recorder
    have hstep : ((p.loggers i).1.vtable host).step = ((p.loggers i).1.recorder host).step :=
      vtable_step host _
    show (((p.loggers i).1.vtable host).step op _).1 = _ ∧ _
    rw [hstep]
    refine ⟨rfl, ?_, ?_, ?_, ?_⟩
    · show (((p.loggers i).1.vtable host).step op (p.world i)).2.2 = _
      rw [hstep]
      rfl
    · show (Function.update p.loggers i _ i).2 = _
      rw [Function.update_self, hstep]
      rfl
    · intro a ha
      cases a with
      | console => rfl
      | fileBacked j =>
        show (Function.update p.loggers i _ j).2 = _
        rw [Function.update_of_ne fun hji => ha (congrArg Source.fileBacked hji)]
        rfl
    · intro a
      cases a with
      | console => rfl
      | fileBacked j =>
        show (Function.update p.loggers i _ j).1.recorder host = _
        by_cases hji : j = i
        · rw [hji, Function.update_self]
          rfl
        · rw [Function.update_of_ne hji]
          rfl
  | console op =>
    show ((consoleLogger host).step op _).1 = _ ∧ ((consoleLogger host).step op _).2.2 = _
      ∧ ((consoleLogger host).step op _).2.1 = _ ∧ _
    rw [consoleLogger_step]
    refine ⟨rfl, rfl, rfl, fun a ha => ?_, fun a => ?_⟩
    · cases a with
      | console => exact absurd rfl ha
      | fileBacked j => rfl
    · cases a <;> rfl

/-- A call that passes the threshold sends its record through one stream; the other streams, and
the thresholds, stay. -/
theorem step_send {o : ProcessOp ι} {q : Process ι} {c : LogCall} {now : Time}
    (hop : o.op = .log c now) (hpass : (q.object o.source).ilevel ≤ c.level) :
    let port := (o.source, c.level.toOuts)
    let y := Ofstream.ref.send ((q.recorder host o.source).chunks ⟨c, now⟩) (q.stream port, q.k)
    let q' := (step host o q).2
    (step host o q).1 = c.flow ∧ q'.k = y.2 ∧ q'.stream port = y.1
      ∧ (∀ a, a ≠ port → q'.stream a = q.stream a)
      ∧ ∀ a, (q'.object a).ilevel = (q.object a).ilevel := by
  obtain ⟨hflow, hk, hobj, hothers, _⟩ := step_eq host o q
  rw [hop, Recorder.step_passed _ hpass] at hflow hk hobj
  set R := q.recorder host o.source
  have hself (b : Bool) : (step host o q).2.stream (o.source, b)
      = (R.send ⟨c, now⟩ (q.object o.source, q.k)).1.stream b := by
    show ((step host o q).2.object o.source).stream b = _
    rw [hobj]
    rfl
  refine ⟨hflow, hk.trans (R.send_kernel ⟨c, now⟩ _), (hself _).trans (R.send_stream ⟨c, now⟩ _),
    fun a ha => ?_, fun a => ?_⟩
  · obtain ⟨src, b⟩ := a
    -- a stream of the same object is the other one of its two
    by_cases hsrc : src = o.source
    · subst hsrc
      have hb : b ≠ c.level.toOuts := fun hb => ha (congrArg (Prod.mk _) hb)
      exact (hself b).trans (R.send_stream_ne ⟨c, now⟩ _ hb)
    · show ((step host o q).2.object src).stream b = _
      rw [hothers src hsrc]
      rfl
  · by_cases ha : a = o.source
    · rw [ha, hobj]
      exact R.send_ilevel ⟨c, now⟩ _
    · rw [hothers a ha]

/-! ### One operation -/

variable {host} {p q : Process ι} {j : Journals ι} {shares : List (Share ι)}

omit [DecidableEq ι] in
/-- An operation that writes nothing and opens nothing gives no shares. -/
theorem Sharing.keep (h : Sharing host p q j shares) {q' : Process ι} {j' : Journals ι}
    (hstream : ∀ a, q'.stream a = q.stream a) (hfiles : q'.k.files = q.k.files)
    (horderly : q'.k.Orderly)
    (htarget : ∀ g, q'.k.target g = q.k.target g ∨ q'.k.target g = none)
    (hrec : ∀ a, q'.recorder host a = q.recorder host a)
    (hlevel : ∀ a, (q'.object a).ilevel = j'.threshold a) (hentries : j'.entries = j.entries) :
    Sharing host p q' j' shares where
  files := by
    rw [hfiles]
    exact h.files
  beginning := h.beginning
  whole s hs hgood := h.whole s hs (hstream s.port ▸ hgood)
  stops := h.stops
  threshold := hlevel
  entries := h.entries.trans hentries.symm
  recorders a := (hrec a).trans (h.recorders a)
  fd a := by
    rw [hstream]
    exact h.fd a
  target g := by
    rcases htarget g with hsame | hnone
    · rw [hsame]
      exact h.target g
    · exact .inr hnone
  orderly := horderly
  drained a := by
    rw [hstream]
    exact h.drained a

/-- A call that passes the threshold gives its entry a share. -/
theorem Sharing.send (h : Sharing host p q j shares) {o : ProcessOp ι} {c : LogCall} {now : Time}
    (hop : o.op = .log c now) (hpass : j.threshold o.source ≤ c.level) :
    ∃ added, Sharing host p (step host o q).2
      { j with entries := j.entries ++ [(o.source, ⟨c, now⟩)] }
      (shares ++ [⟨o.source, ⟨c, now⟩, added⟩]) := by
  rw [← h.threshold] at hpass
  obtain ⟨_, hk, hself, hother, hlevel⟩ := step_send host hop hpass
  obtain ⟨_, _, _, _, hrec⟩ := step_eq host o q
  set R := q.recorder host o.source
  set x : Ofstream × Kernel := (q.stream (o.source, c.level.toOuts), q.k)
  have hmoved := Ofstream.send_moved (R.chunks ⟨c, now⟩) x
  obtain ⟨added, hfiles, hbegin, hall, hclosed, hdead⟩ :=
    Ofstream.send_added (x := x) (h.drained _) h.orderly (R.ne_nil ⟨c, now⟩)
  have hrecord : p.record host ⟨o.source, ⟨c, now⟩, added⟩ = R.record ⟨c, now⟩ :=
    congrArg (fun r : Recorder => r.record ⟨c, now⟩) (h.recorders o.source).symm
  -- the stream is still on its file, or nothing arrives
  have hplace : x.2.target x.1.fd = p.fileOf (o.source, c.level.toOuts) ∨ added = [] := by
    rcases h.target x.1.fd with hsame | hnone
    · left
      rw [show x.2.target x.1.fd = p.k.target x.1.fd from hsame, h.fd]
      rfl
    · exact .inr (hclosed hnone)
  refine ⟨added, ?_⟩
  exact {
    files := fun i => by
      rw [hk, hfiles]
      exact files_snoc p q.k.files shares (s := ⟨o.source, ⟨c, now⟩, added⟩) hplace i (h.files i)
    beginning := fun s hs => by
      rcases List.mem_append.mp hs with hs | hs
      · exact h.beginning s hs
      · obtain rfl := List.mem_singleton.mp hs
        rw [hrecord]
        exact hbegin
    whole := fun s hs hgood => by
      rcases List.mem_append.mp hs with hs | hs
      · refine h.whole s hs ?_
        by_cases hport : s.port = (o.source, c.level.toOuts)
        · rw [hport] at hgood ⊢
          rw [hself] at hgood
          exact hmoved.good_of_good hgood
        · rwa [hother _ hport] at hgood
      · obtain rfl := List.mem_singleton.mp hs
        rw [hrecord]
        exact hall (hself ▸ hgood)
    stops := by
      refine List.pairwise_append.mpr ⟨h.stops, List.pairwise_singleton _ _, ?_⟩
      intro s hs t ht hport htorn
      obtain rfl := List.mem_singleton.mp ht
      -- a stream that has torn a record is not good any more
      refine hdead (Bool.eq_false_iff.mpr fun hgood => htorn (h.whole s hs ?_))
      rw [hport]
      exact hgood
    threshold := fun a => (hlevel a).trans (h.threshold a)
    entries := by
      rw [List.map_append, h.entries]
      rfl
    recorders := fun a => (hrec a).trans (h.recorders a)
    fd := fun a => by
      by_cases ha : a = (o.source, c.level.toOuts)
      · rw [ha, hself, hmoved.fd]
        exact h.fd _
      · rw [hother a ha]
        exact h.fd a
    target := fun g => by
      rw [hk, Ofstream.send_target]
      exact h.target g
    orderly := by
      rw [hk]
      exact Ofstream.send_orderly h.orderly _
    drained := fun a => by
      by_cases ha : a = (o.source, c.level.toOuts)
      · rw [ha, hself]
        exact Ofstream.drained_send (h.drained _) _
      · rw [hother a ha]
        exact h.drained a }

/-- Only the object an operation names may change, so it is enough to look at that one. -/
theorem step_object {β : Type} (f : TwoStream → β) {o : ProcessOp ι}
    (h : f ((Process.step host o q).2.object o.source) = f (q.object o.source)) (a : Source ι) :
    f ((Process.step host o q).2.object a) = f (q.object a) := by
  obtain ⟨_, _, _, hothers, _⟩ := step_eq host o q
  by_cases ha : a = o.source
  · rw [ha, h]
  · rw [hothers a ha]

/-- One operation, beside the abstract machine: a message that passes gives a share, and nothing
else does. -/
theorem Sharing.step (h : Sharing host p q j shares) (o : ProcessOp ι) :
    (Process.step host o q).1 = (Journals.step o j).1
      ∧ ∃ shares', Sharing host p (Process.step host o q).2 (Journals.step o j).2 shares' := by
  obtain ⟨hflow, hk, hobj, hothers, hrec⟩ := step_eq host o q
  cases hop : o.op with
  | log c now =>
    by_cases hpass : j.threshold o.source ≤ c.level
    · obtain ⟨added, hsend⟩ := h.send hop hpass
      have hpass' : (q.object o.source).ilevel ≤ c.level := by
        rw [h.threshold]
        exact hpass
      simp only [Journals.step, hop, if_pos hpass]
      exact ⟨(step_send host hop hpass').1, _, hsend⟩
    · have hpass' : ¬ (q.object o.source).ilevel ≤ c.level := by
        rw [h.threshold]
        exact hpass
      rw [hop, Recorder.step_suppressed _ hpass'] at hflow hk hobj
      have hsame : ∀ a, (Process.step host o q).2.object a = q.object a := step_object id hobj
      simp only [Journals.step, hop, if_neg hpass]
      refine ⟨hflow, shares, h.keep (fun a => ?_) (congrArg Kernel.files hk) ?_ (fun g => .inl ?_)
        hrec (fun a => ?_) rfl⟩
      · exact congrArg (fun t => TwoStream.stream t a.2) (hsame a.1)
      · rw [hk]
        exact h.orderly
      · rw [hk]
      · rw [← h.threshold]
        exact congrArg TwoStream.ilevel (hsame a)
  | level l =>
    rw [hop] at hflow hk hobj
    simp only [Journals.step, hop]
    refine ⟨hflow, shares, h.keep (fun a => ?_) (congrArg Kernel.files hk) ?_ (fun g => .inl ?_)
      hrec (fun a => ?_) rfl⟩
    · refine step_object (fun t => t.stream a.2) ?_ a.1
      rw [hobj]
      rfl
    · rw [hk]
      exact h.orderly
    · rw [hk]
      rfl
    · show _ = Function.update j.threshold o.source l a
      by_cases ha : a = o.source
      · rw [ha, hobj, Function.update_self]
        rfl
      · rw [hothers a ha, Function.update_of_ne ha, h.threshold]
  | close =>
    rw [hop] at hflow hk hobj
    simp only [Journals.step, hop]
    refine ⟨hflow, shares, h.keep (fun a => ?_) ?_ ?_ (fun g => ?_) hrec (fun a => ?_) rfl⟩
    · refine step_object (fun t => t.stream a.2) ?_ a.1
      rw [hobj]
      exact close_stream _ _
    · rw [hk]
      exact close_files _
    · rw [hk]
      exact close_orderly h.orderly
    · rw [hk]
      exact close_target _ g
    · rw [← h.threshold]
      refine step_object TwoStream.ilevel ?_ a
      rw [hobj]
      exact close_ilevel _

end Step

/-! ## Runs -/

variable [DecidableEq ι] (host : Host) {p : Process ι} (ops : List (ProcessOp ι))

theorem exec_shared (horderly : p.k.Orderly) (hdrained : ∀ a, Ofstream.Drained (p.stream a)) :
    let r := Run.exec (step host) ops p
    let j := Run.exec Journals.step ops p.journals
    r.1 = j.1 ∧ ∃ shares, Sharing host p r.2 j.2 shares := by
  have hstart : Sharing host p p p.journals [] := {
    files := fun i => by simp
    beginning := fun s hs => (nomatch hs)
    whole := fun s hs => (nomatch hs)
    stops := .nil
    threshold := fun _ => rfl
    entries := rfl
    recorders := fun _ => rfl
    fd := fun _ => rfl
    target := fun _ => .inl rfl
    orderly := horderly
    drained := hdrained }
  have hstep (o : ProcessOp ι) (q : Process ι) (j : Journals ι) (_ : True)
      (h : ∃ shares, Sharing host p q j shares) :
      (step host o q).1 = (Journals.step o j).1
        ∧ ∃ shares, Sharing host p (step host o q).2 (Journals.step o j).2 shares := by
    obtain ⟨shares, h⟩ := h
    exact h.step o
  exact Run.exec_sim hstep (fun _ _ => trivial) ⟨[], hstart⟩

/-- **Loggers that share files.** Every descriptor appends or is alone on its file, and no stream
has anything pending. Then whatever the loggers are made to do, in whatever order, and whatever
fails: the process stops where the abstract machine does, and each entry has a share in the file
its stream was on. The files hold their old contents and the shares in the order of the calls. -/
theorem shared_files (horderly : p.k.Orderly) (hdrained : ∀ a, Ofstream.Drained (p.stream a)) :
    let r := Run.exec (step host) ops p
    let j := Run.exec Journals.step ops p.journals
    r.1 = j.1 ∧ ∃ shares, shares.map (fun s => (s.source, s.entry)) = j.2.entries
      ∧ Shared host p r.2 shares := by
  obtain ⟨hflow, shares, h⟩ := exec_shared host ops horderly hdrained
  exact ⟨hflow, shares, h.entries, h.toShared⟩

/-- Every descriptor appends. -/
def AllAppend (fds : Fd → Option OpenFile) : Prop := ∀ fd f, fds fd = some f → f.append = true

theorem AllAppend.update {fds : Fd → Option OpenFile} (h : AllAppend fds) (g : Fd) (i : Ino)
    (off : Nat) : AllAppend (Function.update fds g (some ⟨i, true, off⟩)) := by
  intro fd f hf
  by_cases hfd : fd = g
  · rw [hfd, Function.update_self] at hf
    rw [← Option.some.inj hf]
  · rw [Function.update_of_ne hfd] at hf
    exact h fd f hf

theorem AllAppend.orderly {k : Kernel} (h : AllAppend k.fds) : k.Orderly :=
  fun fd f hf => .inl (h fd f hf)

theorem allAppend_calm : AllAppend calm.fds := by
  intro fd f hf
  simp only [calm] at hf
  split at hf
  · rw [← Option.some.inj hf]
  · cases hf

/-- Two loggers on one file. -/
def twoOnOne : Process Bool :=
  let f := FileLogger.new [0x61] false flaky
  let b := BinLogger.new [0x61] false f.2
  { loggers := fun i => if i then (.bin, b.1) else (.file, f.1)
    console := (ConsoleLogger.new (.attached STDOUT_FILENO) (.attached STDERR_FILENO) b.2).1
    k := b.2 }

/-- A message for the one is torn, and the message for the other comes after what is left of it. -/
def infoBoth : List (ProcessOp Bool) :=
  [.fileBacked false (.log (.infoPlain (ascii "main") (ascii "starts")) noon),
    .fileBacked true (.log (.infoPlain (ascii "main") (ascii "starts")) noon)]

theorem shared_files_twoOnOne :
    let r := Run.exec (step utc) infoBoth twoOnOne
    (∃ shares : List (Share Bool), shares.map (fun s => (s.source, s.entry))
        = (Run.exec Journals.step infoBoth twoOnOne.journals).2.entries
      ∧ Shared utc twoOnOne r.2 shares)
      ∧ r.2.k.files 1 = ascii "[2016-03-18T12"
        ++ BinLogger.tlvOf utc ⟨.infoPlain (ascii "main") (ascii "starts"), noon⟩ := by
  have happend : AllAppend twoOnOne.k.fds :=
    (((allAppend_calm.update 3 1 0).update 4 1 0).update 5 1 0).update 6 1 0
  have hdrained (a : Source Bool × Bool) : Ofstream.Drained (twoOnOne.stream a) := by
    obtain ⟨(_ | _) | _, _ | _⟩ := a <;> exact fun _ => rfl
  obtain ⟨_, hshares⟩ := shared_files utc infoBoth happend.orderly hdrained
  exact ⟨hshares, by decide +kernel⟩

/-! ## Runs without faults -/

/-- Every stream is good, with nothing pending, on an open descriptor, and nothing fails from here
on. -/
structure Sound (p : Process ι) : Prop where
  good : ∀ a, (p.stream a).good = true
  buf : ∀ a, (p.stream a).buf = []
  isOpen : ∀ a, p.k.isOpen (p.stream a).fd
  faultless : p.k.Faultless

/-- An operation other than `close()` keeps everything in order. -/
theorem Sound.step {q : Process ι} (h : Sound q) {o : ProcessOp ι} (ho : o.op ≠ .close) :
    Sound (Process.step host o q).2 := by
  obtain ⟨_, hk, hobj, _, _⟩ := step_eq host o q
  -- an operation that leaves the object's streams and the descriptors
  have hquiet (hsame : ∀ b, ((Process.step host o q).2.object o.source).stream b
      = (q.object o.source).stream b) (hk : (Process.step host o q).2.k = q.k) :
      Sound (Process.step host o q).2 := by
    have hstream (a : Source ι × Bool) : (Process.step host o q).2.stream a = q.stream a :=
      step_object (fun t => t.stream a.2) (hsame a.2) a.1
    exact ⟨fun a => by rw [hstream]; exact h.good a, fun a => by rw [hstream]; exact h.buf a,
      fun a => by rw [hstream, hk]; exact h.isOpen a, hk ▸ h.faultless⟩
  cases hop : o.op with
  | log c now =>
    by_cases hpass : (q.object o.source).ilevel ≤ c.level
    · obtain ⟨_, hkernel, hself, hother, _⟩ := step_send host hop hpass
      set a₀ : Source ι × Bool := (o.source, c.level.toOuts)
      -- nothing fails on the way, so the buffer is empty again and the stream good
      have hclear := Ofstream.clear_of_faultless (x := (q.stream a₀, q.k)) (h.good a₀)
        (h.isOpen a₀) h.faultless (((q.recorder host o.source).chunks ⟨c, now⟩).length + 1)
      rw [Ofstream.send_of_clear hclear (h.buf a₀)] at hkernel hself
      have hstream (a : Source ι × Bool) : (Process.step host o q).2.stream a = q.stream a := by
        by_cases ha : a = a₀
        · rw [ha, hself]
        · exact hother a ha
      refine ⟨fun a => ?_, fun a => ?_, fun a => ?_, ?_⟩
      · rw [hstream]
        exact h.good a
      · rw [hstream]
        exact h.buf a
      · rw [hstream, hkernel, Kernel.isOpen_tock, Kernel.isOpen_pushTo]
        exact h.isOpen a
      · rw [hkernel]
        exact (h.faultless.pushTo _ _).tock _
    · rw [hop, Recorder.step_suppressed _ hpass] at hk hobj
      exact hquiet (fun b => by rw [hobj]) hk
  | level l =>
    rw [hop] at hk hobj
    exact hquiet (fun b => by rw [hobj]; rfl) hk
  | close => exact absurd hop ho

/-- The records of entries whose streams are on a file. -/
def recordsOn (host : Host) (p : Process ι) (i : Ino) (es : List (Source ι × Entry)) : Bytes :=
  (es.filter fun x => p.fileOf (x.1, x.2.call.level.toOuts) = some i).flatMap fun x =>
    (p.recorder host x.1).record x.2

/-- Without faults and `close()` every share is a whole record: the files hold the records of the
journal. -/
theorem exec_sound (horderly : p.k.Orderly) (hsound : Sound p) (hops : ∀ o ∈ ops, o.op ≠ .close) :
    let r := Run.exec (step host) ops p
    let j := Run.exec Journals.step ops p.journals
    r.1 = j.1 ∧ ∀ i, r.2.k.files i = p.k.files i ++ recordsOn host p i j.2.entries := by
  obtain ⟨hflow, shares, h⟩ := exec_shared host ops horderly fun a _ => hsound.buf a
  have hend : Sound (Run.exec (step host) ops p).2 :=
    Run.exec_invariant (fun o q ho hq => hq.step host ho) hops hsound
  refine ⟨hflow, fun i => ?_⟩
  rw [h.files i, recordsOn, ← h.entries, List.filter_map, List.flatMap_map]
  -- every share is a whole record
  refine congrArg (p.k.files i ++ ·) (List.flatMap_congr fun s hs => ?_)
  exact h.whole s (List.mem_of_mem_filter hs) (hend.good s.port)

end Process

end Klog
