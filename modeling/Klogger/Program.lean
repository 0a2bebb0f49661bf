import Klogger.Ledger

/-!
# What programs write

A program in which nothing fails writes what its ledger says (`Program.refines_ledger`), as long as
it does not call `close()`, and a file that is emptied on opening has no other logger on it, and
stays so. Such a program has no more descriptors open than its loggers need, and closes none of
somebody else's (`Program.no_descriptor_leaks`).
-/

namespace Klog

open TwoStream

namespace Program

variable {ι : Type}

/-- The stream that `x` names, if its logger is there. -/
def stream (s : Program ι) (x : ι × Bool) : Option Ofstream :=
  (s.objects x.1).map fun o => o.2.stream x.2

/-- The program has written what the ledger says, and its loggers can go on. -/
structure Refines (k₀ : Kernel) (s : Program ι) (a : Ledger ι) : Prop where
  ino : s.k.ino = k₀.ino
  contents : s.k.files = a.contents
  orderly : s.k.Orderly
  faultless : s.k.Faultless
  none_iff : ∀ i, s.objects i = none ↔ a.handles i = none
  ready : ∀ i o h, s.objects i = some o → a.handles i = some h → Ready s.k o h
  distinct : ∀ x y o o', s.stream x = some o → s.stream y = some o' → o.fd = o'.fd → x = y
  owned : ∀ fd f, s.k.fds fd = some f →
    k₀.fds fd = some f ∨ ∃ x o, s.stream x = some o ∧ o.fd = some fd
  kept : ∀ fd f, k₀.fds fd = some f →
    s.k.fds fd = some f ∧ ∀ x o, s.stream x = some o → o.fd ≠ some fd

variable [DecidableEq ι] {host : Host} {k₀ : Kernel} {s : Program ι} {a : Ledger ι}

theorem stream_of_ne {i : ι} {v : Option (FileBacked × TwoStream)} {k : Kernel} {x : ι × Bool}
    (hx : x.1 ≠ i) :
    (⟨Function.update s.objects i v, k⟩ : Program ι).stream x = s.stream x := by
  show (Function.update s.objects i v x.1).map _ = _
  rw [Function.update_of_ne hx]
  rfl

theorem stream_of_eq {i : ι} {v : Option (FileBacked × TwoStream)} {k : Kernel} {x : ι × Bool}
    (hx : x.1 = i) :
    (⟨Function.update s.objects i v, k⟩ : Program ι).stream x
      = v.map fun o => o.2.stream x.2 := by
  show (Function.update s.objects i v x.1).map _ = _
  rw [hx, Function.update_self]

/-- A stream is one of the logger that has changed, or it was there before. -/
theorem stream_cases {i : ι} {v : Option (FileBacked × TwoStream)} {k : Kernel} {x : ι × Bool}
    {p : Ofstream} (hx : (⟨Function.update s.objects i v, k⟩ : Program ι).stream x = some p) :
    (x.1 = i ∧ ∃ o, v = some o ∧ o.2.stream x.2 = p) ∨ (x.1 ≠ i ∧ s.stream x = some p) := by
  by_cases hxi : x.1 = i
  · rw [stream_of_eq hxi] at hx
    exact .inl ⟨hxi, Option.map_eq_some_iff.mp hx⟩
  · rw [stream_of_ne hxi] at hx
    exact .inr ⟨hxi, hx⟩

/-- Program and ledger still have the same loggers when both change the same entry. -/
theorem Refines.none_iff_update (h : Refines k₀ s a) {i : ι} {v : Option (FileBacked × TwoStream)}
    {w : Option Handle} (hvw : v = none ↔ w = none) (j : ι) :
    Function.update s.objects i v j = none ↔ Function.update a.handles i w j = none := by
  by_cases hj : j = i
  · rw [hj, Function.update_self, Function.update_self]
    exact hvw
  · rw [Function.update_of_ne hj, Function.update_of_ne hj]
    exact h.none_iff j

/-- When one logger changes, the others are ready as before if their descriptors stay on their
files. -/
theorem Refines.ready_update (h : Refines k₀ s a) {i : ι} {v : Option (FileBacked × TwoStream)}
    {w : Option Handle} {k' : Kernel}
    (hnew : ∀ o hd, v = some o → w = some hd → Ready k' o hd)
    (hframe : ∀ x p fd, x.1 ≠ i → s.stream x = some p → p.fd = some fd →
      (k'.fds fd).map (fun f => (f.ino, f.append)) = (s.k.fds fd).map fun f => (f.ino, f.append))
    (j : ι) (o : FileBacked × TwoStream) (hd : Handle)
    (ho : Function.update s.objects i v j = some o)
    (hhd : Function.update a.handles i w j = some hd) : Ready k' o hd := by
  by_cases hj : j = i
  · rw [hj, Function.update_self] at ho hhd
    exact hnew o hd ho hhd
  · -- an old logger is ready as long as its descriptors are on the same files in the same mode
    rw [Function.update_of_ne hj] at ho hhd
    refine (h.ready j o hd ho hhd).frame fun b fd hfd => hframe (j, b) (o.2.stream b) fd hj ?_ hfd
    rw [stream, ho]
    rfl

/-- A call changes one logger, but not its streams, and leaves the descriptors on their files. -/
theorem Refines.call (h : Refines k₀ s a) {i : ι} {o : FileBacked × TwoStream}
    (hi : s.objects i = some o) (o' : FileBacked × TwoStream) (k' : Kernel) (hd : Handle)
    (hsame : ∀ b, o'.2.stream b = o.2.stream b) (hino : k'.ino = s.k.ino)
    (hfds : ∀ g, (k'.fds g).map (fun f => (f.ino, f.append))
      = (s.k.fds g).map fun f => (f.ino, f.append))
    (hothers : ∀ g, (∀ b, (o.2.stream b).fd ≠ some g) → k'.fds g = s.k.fds g)
    (horderly : k'.Orderly) (hfaultless : k'.Faultless) (hready : Ready s.k o' hd) :
    Refines k₀ ⟨Function.update s.objects i (some o'), k'⟩
      ⟨k'.files, Function.update a.handles i (some hd)⟩ := by
  have hstream (x : ι × Bool) :
      (⟨Function.update s.objects i (some o'), k'⟩ : Program ι).stream x = s.stream x := by
    by_cases hx : x.1 = i
    · rw [stream_of_eq hx, stream, hx, hi]
      exact congrArg some (hsame x.2)
    · exact stream_of_ne hx
  -- what was open in the beginning belongs to no logger, so it stays as it is
  have hkept (fd : Fd) (f : OpenFile) (hf : k₀.fds fd = some f) : k'.fds fd = some f := by
    obtain ⟨hold, hnot⟩ := h.kept fd f hf
    rw [hothers fd fun b => hnot (i, b) _ (by rw [stream, hi]; rfl), hold]
  -- contents hold by definition; what is left is who owns which descriptor
  refine ⟨hino.trans h.ino, rfl, horderly, hfaultless, h.none_iff_update (by simp),
    h.ready_update (fun p q hp hq => ?_) (fun _ _ fd _ _ _ => hfds fd), ?_, ?_,
    fun fd f hf => ⟨hkept fd f hf, fun x p hx =>
      (h.kept fd f hf).2 x p (by rw [← hstream]; exact hx)⟩⟩
  · obtain rfl := Option.some.inj hp
    obtain rfl := Option.some.inj hq
    exact hready.frame fun _ fd _ => hfds fd
  · intro x y p q hx hy
    rw [hstream] at hx hy
    exact h.distinct x y p q hx hy
  · intro fd f hf
    have hold := hfds fd
    rw [show k'.fds fd = some f from hf, Option.map_some, eq_comm, Option.map_eq_some_iff] at hold
    obtain ⟨f₀, hf₀, heq⟩ := hold
    rcases h.owned fd f₀ hf₀ with hforeign | ⟨x, p, hx, hp⟩
    · exact .inl (hforeign.trans ((hkept fd f₀ hforeign).symm.trans hf))
    · exact .inr ⟨x, p, by rw [hstream]; exact hx, hp⟩

/-- A call: a message that passes adds its record to the file of its stream, one that does not pass
changes nothing, and `level()` changes the threshold. -/
theorem Refines.step_call (h : Refines k₀ s a) {i : ι} {op : Op}
    (hd : Ledger.Disciplined k₀ (.call i op) a) :
    (step host (.call i op) s).1 = (Ledger.step host k₀.ino (.call i op) a).1
      ∧ Refines k₀ (step host (.call i op) s).2
          (Ledger.step host k₀.ino (.call i op) a).2 := by
  obtain ⟨hlive, hop⟩ := hd
  obtain ⟨hdl, hhandle⟩ := Option.ne_none_iff_exists'.mp hlive
  obtain ⟨o, hobj⟩ := Option.ne_none_iff_exists'.mp (mt (h.none_iff i).mp hlive)
  have hready := h.ready i o hdl hobj hhandle
  have hstep : (o.1.vtable host).step = (o.1.recorder host).step := Process.vtable_step host o.1
  simp only [step, Ledger.step, hobj, hhandle, hstep]
  have hkeep : Function.update a.handles i (some hdl) = a.handles := by
    rw [← hhandle, Function.update_eq_self]
  have hcontents : (⟨s.k.files, a.handles⟩ : Ledger ι) = a := by rw [h.contents]
  cases op with
  | log c now =>
    dsimp only
    by_cases hpass : hdl.threshold ≤ c.level
    · -- one push brings the whole record to the end of its file
      obtain ⟨fd, n, hfd, hsend, hfiles⟩ := hready.send h.faultless h.orderly host ⟨c, now⟩
      rw [Recorder.step_passed _ (hready.threshold ▸ hpass), if_pos hpass, hsend]
      refine ⟨rfl, ?_⟩
      have hnew := h.call hobj (o.1, o.2.withErr ((o.1.recorder host).settle o.2))
        ((s.k.push fd (hdl.backend.record host ⟨c, now⟩)).tock n) hdl (fun _ => rfl)
        (s.k.pushTo_ino (some fd) _) (fun g => s.k.push_fds fd _ g)
        (fun g hg => s.k.push_fds_ne (fun heq => hg _ (heq ▸ hfd)) _) (h.orderly.push fd _)
        ((h.faultless.pushTo (some fd) _).tock n)
        ⟨hready.1, hready.2, hready.settle host, hready.4, hready.5, hready.6⟩
      rw [hkeep, Kernel.tock_files, hfiles, h.contents] at hnew
      exact hnew
    · rw [Recorder.step_suppressed _ (hready.threshold ▸ hpass), if_neg hpass]
      refine ⟨rfl, ?_⟩
      rw [← hobj, Function.update_eq_self]
      exact h
  | level l =>
    refine ⟨rfl, ?_⟩
    have hnew := h.call hobj (o.1, o.2.withLevel l) s.k { hdl with threshold := l }
      (fun _ => rfl) rfl (fun _ => rfl) (fun _ _ => rfl) h.orderly h.faultless
      ⟨hready.1, rfl, hready.3, hready.4, hready.5, hready.6⟩
    rw [h.contents] at hnew
    exact hnew
  | close => exact absurd rfl hop

omit [DecidableEq ι] in
/-- A stream of the program is open on the file that its handle names. -/
theorem Refines.of_stream (h : Refines k₀ s a) {x : ι × Bool} {o : Ofstream}
    (hx : s.stream x = some o) :
    ∃ fd f p hd, o.fd = some fd ∧ s.k.fds fd = some f ∧ s.objects x.1 = some p
      ∧ a.handles x.1 = some hd ∧ p.2.stream x.2 = o ∧ f.ino = hd.file x.2
      ∧ f.append = !hd.truncated := by
  obtain ⟨p, hp, rfl⟩ := Option.map_eq_some_iff.mp hx
  have hlive : a.handles x.1 ≠ none := mt (h.none_iff x.1).mpr (by simp [hp])
  obtain ⟨hd, hhd⟩ := Option.ne_none_iff_exists'.mp hlive
  obtain ⟨fd, f, hfd, hf, hino, happ⟩ := (h.ready x.1 p hd hp hhd).place x.2
  exact ⟨fd, f, p, hd, hfd, hf, hp, hhd, rfl, hino, happ⟩

omit [DecidableEq ι] in
/-- Destroying a logger closes its two descriptors, and that is all. -/
theorem Refines.destroy (h : Refines k₀ s a) {i : ι} {o : FileBacked × TwoStream}
    (hi : s.objects i = some o) :
    let k := o.2.destroy s.k
    k.Orderly ∧ k.Faultless ∧ k.ino = s.k.ino ∧ k.files = s.k.files
      ∧ (∀ b fd, (o.2.stream b).fd = some fd → k.fds fd = none)
      ∧ ∀ fd, (∀ b, (o.2.stream b).fd ≠ some fd) → k.fds fd = s.k.fds fd := by
  have hstream (b : Bool) : s.stream (i, b) = some (o.2.stream b) := by rw [stream, hi]; rfl
  obtain ⟨fd₁, f₁, _, hd, hfd₁, hf₁, hp, hhd, -⟩ := h.of_stream (hstream true)
  obtain ⟨fd₂, f₂, _, _, hfd₂, hf₂, -⟩ := h.of_stream (hstream false)
  have hready := h.ready i o hd hi hhd
  -- the two streams of a logger never share a descriptor
  have hne : fd₁ ≠ fd₂ := by
    rintro rfl
    have hsame := h.distinct _ _ _ _ (hstream true) (hstream false) (hfd₁.trans hfd₂.symm)
    cases hsame
  -- `errs` goes first; with nothing in the buffer, destruction is a `close(2)`
  have hfirst : Ofstream.destroy (o.2.errs, s.k) = (s.k.close fd₂).2 :=
    Ofstream.destroy_of_empty hfd₂ (hready.buf false)
  have hdestroy : o.2.destroy s.k = ((s.k.close fd₂).2.close fd₁).2 := by
    rw [TwoStream.destroy, hfirst]
    exact Ofstream.destroy_of_empty hfd₁ (hready.buf true)
  have hopen₂ : s.k.fds fd₂ ≠ none := by simp [hf₂]
  have hopen₁ : (s.k.close fd₂).2.fds fd₁ ≠ none := by
    rw [Kernel.close_fds_ne hne, hf₁]
    simp
  have hfaultless : (s.k.close fd₂).2.Faultless := h.faultless.close fd₂
  -- neither of the two calls can fail, so the descriptors are free now
  rw [hdestroy]
  refine ⟨(h.orderly.close fd₂).close fd₁, hfaultless.close fd₁, ?_⟩
  rw [Kernel.close_of_faultless hfaultless hopen₁, Kernel.close_of_faultless h.faultless hopen₂]
  refine ⟨rfl, rfl, fun b fd hfd => ?_, fun fd hfd => ?_⟩
  · cases b with
    | true =>
      obtain rfl := Option.some.inj (hfd₁.symm.trans hfd)
      exact Function.update_self _ _ _
    | false =>
      obtain rfl := Option.some.inj (hfd₂.symm.trans hfd)
      exact (Function.update_of_ne hne.symm _ _).trans (Function.update_self _ _ _)
  · have hne₁ : fd ≠ fd₁ := fun heq => hfd true (heq ▸ hfd₁)
    have hne₂ : fd ≠ fd₂ := fun heq => hfd false (heq ▸ hfd₂)
    exact (Function.update_of_ne hne₁ _ _).trans (Function.update_of_ne hne₂ _ _)

/-- Nothing of this concerns the other loggers: they are on other descriptors. -/
theorem Refines.delete (h : Refines k₀ s a) {i : ι} {o : FileBacked × TwoStream}
    (hi : s.objects i = some o) :
    Refines k₀ ⟨Function.update s.objects i none, o.2.destroy s.k⟩
      { a with handles := Function.update a.handles i none } := by
  obtain ⟨horderly, hfaultless, hino, hfiles, hgone, hsame⟩ := h.destroy hi
  have hstream (b : Bool) : s.stream (i, b) = some (o.2.stream b) := by rw [stream, hi]; rfl
  -- the streams that are left are those of the other loggers
  have hleft {x : ι × Bool} {p : Ofstream}
      (hx : (⟨Function.update s.objects i none, o.2.destroy s.k⟩ : Program ι).stream x = some p) :
      x.1 ≠ i ∧ s.stream x = some p :=
    (stream_cases hx).resolve_left fun ⟨_, _, ho, _⟩ => by cases ho
  refine ⟨hino.trans h.ino, hfiles.trans h.contents, horderly, hfaultless,
    h.none_iff_update (by simp), h.ready_update (fun _ _ hp _ => by cases hp)
      (fun x p fd hxi hx hp => ?_),
    fun x y p q hx hy => h.distinct x y p q (hleft hx).2 (hleft hy).2, fun fd f hf => ?_,
    fun fd f hf => ⟨?_, fun x p hx => (h.kept fd f hf).2 x p (hleft hx).2⟩⟩
  · rw [hsame fd fun b hb =>
      hxi (congrArg Prod.fst (h.distinct _ _ _ _ hx (hstream b) (hp.trans hb.symm)))]
  · -- what is still open was not a descriptor of the deleted logger
    have hopen (b : Bool) : (o.2.stream b).fd ≠ some fd := fun hb => by
      have hnone := hgone b fd hb
      rw [show (o.2.destroy s.k).fds fd = some f from hf] at hnone
      cases hnone
    have hold : s.k.fds fd = some f := (hsame fd hopen).symm.trans hf
    refine (h.owned fd f hold).imp_right fun ⟨x, p, hx, hp⟩ => ?_
    have hxi : x.1 ≠ i := by
      rintro rfl
      rw [hstream x.2] at hx
      obtain rfl := Option.some.inj hx
      exact hopen x.2 hp
    exact ⟨x, p, (stream_of_ne hxi).trans hx, hp⟩
  · obtain ⟨hold, hnot⟩ := h.kept fd f hf
    exact (hsame fd fun b => hnot (i, b) _ (hstream b)).trans hold

theorem Refines.step_delete (h : Refines k₀ s a) {i : ι}
    (hd : Ledger.Disciplined k₀ (.delete i) a) :
    (step host (.delete i) s).1 = (Ledger.step host k₀.ino (.delete i) a).1
      ∧ Refines k₀ (step host (.delete i) s).2
          (Ledger.step host k₀.ino (.delete i) a).2 := by
  obtain ⟨o, hobj⟩ := Option.ne_none_iff_exists'.mp (mt (h.none_iff i).mp hd)
  simp only [step, Ledger.step, hobj]
  exact ⟨trivial, h.delete hobj⟩

omit [DecidableEq ι] in
/-- Whoever has a file of the new logger open appends to it. -/
theorem Refines.admits (h : Refines k₀ s a) {i : ι} {c : FileBacked} {l : LogFiles}
    {truncate : Bool} (hd : Ledger.Disciplined k₀ (.create i c l truncate) a)
    {path : PathName} (hpath : path = l.outs ∨ path = l.errs) :
    Ofstream.Admits (s.k.ino path) ⟨!truncate, truncate⟩ s.k := by
  obtain ⟨_, hforeign, _, hfree⟩ := hd
  rw [h.ino]
  intro fd f hf hi
  -- an open descriptor is one of the beginning or one of a logger
  rcases h.owned fd f hf with hold | ⟨x, o, hx, ho⟩
  · obtain ⟨houts, herrs⟩ := hforeign fd f hold
    rcases hpath with rfl | rfl
    · exact absurd hi houts
    · exact absurd hi herrs
  · obtain ⟨fd', f', _, hdl, hfd', hf', _, hhd, _, hino, happ⟩ := h.of_stream hx
    obtain rfl : fd' = fd := Option.some.inj (hfd'.symm.trans ho)
    obtain rfl : f' = f := Option.some.inj (hf'.symm.trans hf)
    have hsame : hdl.file x.2 = k₀.ino path := hino.symm.trans hi
    -- a logger on the file has not emptied it, and the new one does not either
    have hnot : ¬ (truncate = true ∨ hdl.truncated = true) := fun hor => by
      obtain ⟨hno, hne⟩ := hfree x.1 hdl hhd hor x.2
      rcases hpath with rfl | rfl
      · exact hno hsame
      · exact hne hsame
    obtain ⟨htrunc, hdtrunc⟩ := not_or.mp hnot
    rw [Bool.not_eq_true] at htrunc hdtrunc
    refine ⟨?_, by simp [htrunc], by simp [htrunc]⟩
    rw [happ, hdtrunc]
    rfl

/-- A new logger, on two descriptors that were free. -/
theorem Refines.create (h : Refines k₀ s a) {i : ι} (hi : s.objects i = none)
    {o : FileBacked × TwoStream} {hd : Handle} {fd₁ fd₂ : Fd} (hne : fd₁ ≠ fd₂)
    (hfree₁ : s.k.fds fd₁ = none) (hfree₂ : s.k.fds fd₂ = none)
    (hfd₁ : (o.2.stream true).fd = some fd₁) (hfd₂ : (o.2.stream false).fd = some fd₂)
    {k' : Kernel} (hino : k'.ino = s.k.ino) (horderly : k'.Orderly) (hfaultless : k'.Faultless)
    {f₁ f₂ : OpenFile}
    (hfds : k'.fds = Function.update (Function.update s.k.fds fd₁ (some f₁)) fd₂ (some f₂))
    (hready : Ready k' o hd) :
    Refines k₀ ⟨Function.update s.objects i (some o), k'⟩
      ⟨k'.files, Function.update a.handles i (some hd)⟩ := by
  have hself (b : Bool) : (o.2.stream b).fd = some (if b then fd₁ else fd₂) := by
    cases b
    · exact hfd₂
    · exact hfd₁
  have hcases {x : ι × Bool} {p : Ofstream}
      (hx : (⟨Function.update s.objects i (some o), k'⟩ : Program ι).stream x = some p) :
      (x.1 = i ∧ o.2.stream x.2 = p) ∨ (x.1 ≠ i ∧ s.stream x = some p) :=
    (stream_cases hx).imp_left fun ⟨hxi, _, ho, hp⟩ => ⟨hxi, Option.some.inj ho ▸ hp⟩
  -- the streams of the loggers there were are on other descriptors
  have hother {x : ι × Bool} {p : Ofstream} (hx : s.stream x = some p) (b : Bool) :
      p.fd ≠ (o.2.stream b).fd := by
    obtain ⟨fd, f, _, _, hfd, hf, -⟩ := h.of_stream hx
    rw [hfd, hself]
    rintro heq
    obtain rfl := Option.some.inj heq
    cases b with
    | true => exact absurd hf (by simp [hfree₁])
    | false => exact absurd hf (by simp [hfree₂])
  have hold {fd : Fd} (h₁ : fd ≠ fd₁) (h₂ : fd ≠ fd₂) : k'.fds fd = s.k.fds fd := by
    rw [hfds, Function.update_of_ne h₂, Function.update_of_ne h₁]
  have hfree {fd : Fd} {f : OpenFile} (hf : s.k.fds fd = some f) : fd ≠ fd₁ ∧ fd ≠ fd₂ := by
    refine ⟨?_, ?_⟩ <;> rintro rfl
    · rw [hfree₁] at hf
      cases hf
    · rw [hfree₂] at hf
      cases hf
  refine ⟨hino.trans h.ino, rfl, horderly, hfaultless, h.none_iff_update (by simp),
    h.ready_update (fun p q hp hq => ?_) (fun x p fd _ hx hfd => ?_),
    fun x y p q hx hy hpq => ?_, fun fd f hf => ?_, fun fd f hf => ?_⟩
  · obtain rfl := Option.some.inj hp
    obtain rfl := Option.some.inj hq
    exact hready
  · rw [hold]
    · exact fun h₁ => hother hx true (by rw [hfd, hfd₁, h₁])
    · exact fun h₂ => hother hx false (by rw [hfd, hfd₂, h₂])
  · rcases hcases hx with ⟨hxi, rfl⟩ | ⟨hxi, hx⟩ <;> rcases hcases hy with ⟨hyi, rfl⟩ | ⟨hyi, hy⟩
    · -- both are streams of the new logger
      rw [hself, hself] at hpq
      have hfd : (if x.2 then fd₁ else fd₂) = if y.2 then fd₁ else fd₂ := Option.some.inj hpq
      refine Prod.ext (hxi.trans hyi.symm) ?_
      cases hx : x.2 <;> cases hy : y.2 <;> simp [hx, hy, hne, hne.symm] at hfd ⊢
    · exact absurd hpq.symm (hother hy x.2)
    · exact absurd hpq (hother hx y.2)
    · exact h.distinct x y p q hx hy hpq
  · change k'.fds fd = some f at hf
    by_cases h₁ : fd = fd₁
    · exact .inr ⟨(i, true), _, stream_of_eq rfl, by rw [h₁]; exact hfd₁⟩
    · by_cases h₂ : fd = fd₂
      · exact .inr ⟨(i, false), _, stream_of_eq rfl, by rw [h₂]; exact hfd₂⟩
      · rw [hold h₁ h₂] at hf
        refine (h.owned fd f hf).imp_right fun ⟨x, p, hx, hp⟩ => ⟨x, p, ?_, hp⟩
        have hxi : x.1 ≠ i := by
          rintro rfl
          rw [stream, hi] at hx
          cases hx
        exact (stream_of_ne hxi).trans hx
  · obtain ⟨hf', hnot⟩ := h.kept fd f hf
    obtain ⟨h₁, h₂⟩ := hfree hf'
    refine ⟨(hold h₁ h₂).trans hf', fun x p hx hp => ?_⟩
    rcases hcases hx with ⟨_, rfl⟩ | ⟨_, hx⟩
    · rw [hself] at hp
      cases hb : x.2 with
      | true => exact h₁ (by simpa [hb] using hp.symm)
      | false => exact h₂ (by simpa [hb] using hp.symm)
    · exact hnot x p hx hp

/-- Opening a logger: both files may be emptied, two free descriptors are taken, and the handle is
new. -/
theorem Refines.step_create (h : Refines k₀ s a) {i : ι} {c : FileBacked} {l : LogFiles}
    {truncate : Bool} (hopened : Opened (.create i c l truncate) s)
    (hd : Ledger.Disciplined k₀ (.create i c l truncate) a) :
    (step host (.create i c l truncate) s).1
        = (Ledger.step host k₀.ino (.create i c l truncate) a).1
      ∧ Refines k₀ (step host (.create i c l truncate) s).2
          (Ledger.step host k₀.ino (.create i c l truncate) a).2 := by
  have hne : truncate = true → k₀.ino l.outs ≠ k₀.ino l.errs := hd.2.2.1
  have hopen := openFiles_eq c fun ht => mt (congrArg k₀.ino) (hne ht)
  have hhealthy := hopened i c l truncate rfl
  have horderly := construct_orderly (m := ⟨!truncate, truncate⟩) rfl h.orderly
    (h.admits hd (.inl rfl)) (h.admits hd (.inr rfl)) (fun hsame => by
      rw [h.ino] at hsame
      exact Bool.eq_false_iff.mpr fun ht => hne ht hsame)
  refine ⟨rfl, ?_⟩
  simp only [step, Ledger.step]
  rw [hopen] at hhealthy ⊢
  set w := construct l.outs ⟨!truncate, truncate⟩ l.errs ⟨!truncate, truncate⟩ s.k
  obtain ⟨fd₁, fd₂, hfd, hfree₁, hfree₂, heq⟩ := construct_free hhealthy
  have hobj : w.1 = ⟨.attached fd₁, .attached fd₂, DEFAULT_LEVEL, .HEALTHY⟩ := congrArg Prod.fst heq
  have hk := congrArg Prod.snd heq
  have hino : w.2.ino = s.k.ino := (congrArg Kernel.ino hk).trans rfl
  have hfiles : w.2.files = if truncate then Function.update (Function.update a.contents
      (k₀.ino l.outs) []) (k₀.ino l.errs) [] else a.contents := by
    rw [← h.contents, ← h.ino]
    refine (congrArg Kernel.files hk).trans ?_
    cases truncate <;> rfl
  have hfds := congrArg Kernel.fds hk
  -- the object is as the constructor has left it, on its two files
  have hready : Ready w.2 (c, w.1) ⟨c, DEFAULT_LEVEL, k₀.ino l.outs, k₀.ino l.errs, truncate⟩ := by
    refine ⟨rfl, by rw [hobj], by rw [hobj], fun b => ?_, fun b => ?_, fun b => ?_⟩
    · rw [hobj]
      cases b <;> rfl
    · rw [hobj]
      cases b <;> rfl
    · rw [hobj, ← h.ino, show w.2.fds = _ from hfds]
      cases b with
      | true => exact ⟨fd₁, _, rfl, (Function.update_of_ne hfd _ _).trans
          (Function.update_self _ _ _), rfl, rfl⟩
      | false => exact ⟨fd₂, _, rfl, Function.update_self _ _ _, rfl, rfl⟩
  rw [← hfiles]
  refine h.create ((h.none_iff i).mpr hd.1) hfd hfree₁ hfree₂ (by rw [hobj]; rfl)
    (by rw [hobj]; rfl) hino horderly ?_ hfds hready
  rw [show w.2 = _ from hk]
  intro n hn
  exact h.faultless n (Nat.le_trans (Nat.le_add_right _ 2) hn)

/-! ## Runs -/

/-- A program that has opened no logger yet. -/
def initial (ι : Type) (k : Kernel) : Program ι := ⟨fun _ => none, k⟩

end Program

/-- The ledger of such a program. -/
def Ledger.initial (ι : Type) (k : Kernel) : Ledger ι := ⟨k.files, fun _ => none⟩

namespace Program

variable {ι : Type} [DecidableEq ι] (host : Host) {k₀ : Kernel} (ops : List (ProgramOp ι))

theorem exec_refines (hk : k₀.Faultless) (horderly : k₀.Orderly)
    (hopened : Run.Along (step host) Opened ops (initial ι k₀))
    (hdisc : Run.Along (Ledger.step host k₀.ino) (Ledger.Disciplined k₀) ops
      (Ledger.initial ι k₀)) :
    let r := Run.exec (step host) ops (initial ι k₀)
    let a := Run.exec (Ledger.step host k₀.ino) ops (Ledger.initial ι k₀)
    r.1 = a.1 ∧ Refines k₀ r.2 a.2 := by
  have hstart : Refines k₀ (initial ι k₀) (Ledger.initial ι k₀) := {
    ino := rfl
    contents := rfl
    orderly := horderly
    faultless := hk
    none_iff := fun _ => iff_of_true rfl rfl
    ready := fun _ _ _ ho => nomatch ho
    distinct := fun _ _ _ _ ho => nomatch ho
    owned := fun fd f hf => .inl hf
    kept := fun fd f hf => ⟨hf, fun _ _ ho => nomatch ho⟩ }
  have hstep (o : ProgramOp ι) (s : Program ι) (a : Ledger ι) (hopened : Opened o s)
      (hd : Ledger.Disciplined k₀ o a) (h : Refines k₀ s a) :
      (step host o s).1 = (Ledger.step host k₀.ino o a).1
        ∧ Refines k₀ (step host o s).2 (Ledger.step host k₀.ino o a).2 := by
    cases o with
    | create i c l truncate => exact h.step_create hopened hd
    | delete i => exact h.step_delete hd
    | call i op => exact h.step_call hd
  exact Run.exec_sim_along hstep hopened hdisc hstart

/-- **A program writes what its ledger says.** Nothing fails: the system is faultless, its
descriptors are in order in the beginning, and every logger that is opened is healthy. The program
opens, uses and deletes loggers of either class in any order, and keeps to the discipline
(`Ledger.Disciplined`), which excludes `close()`. Then it stops where the ledger does, and every
file has the contents the ledger has for it, whichever descriptors were given to whom; the loggers
that are left are healthy. -/
theorem refines_ledger (hk : k₀.Faultless) (horderly : k₀.Orderly)
    (hopened : Run.Along (step host) Opened ops (initial ι k₀))
    (hdisc : Run.Along (Ledger.step host k₀.ino) (Ledger.Disciplined k₀) ops
      (Ledger.initial ι k₀)) :
    let r := Run.exec (step host) ops (initial ι k₀)
    let a := Run.exec (Ledger.step host k₀.ino) ops (Ledger.initial ι k₀)
    r.1 = a.1 ∧ r.2.k.files = a.2.contents
      ∧ ∀ i, (r.2.objects i).map (fun o => (o.1, o.2.ilevel, o.2.err))
          = (a.2.handles i).map fun h => (h.backend, h.threshold, LogError.HEALTHY) := by
  obtain ⟨hflow, h⟩ := exec_refines host ops hk horderly hopened hdisc
  refine ⟨hflow, h.contents, fun i => ?_⟩
  cases hobj : (Run.exec (step host) ops (initial ι k₀)).2.objects i with
  | none => rw [(h.none_iff i).mp hobj]; rfl
  | some o =>
    obtain ⟨hd, hhd⟩ := Option.ne_none_iff_exists'.mp (mt (h.none_iff i).mpr (by simp [hobj]))
    have hready := h.ready i o hd hobj hhd
    rw [hhd, Option.map_some, Option.map_some, hready.backend, hready.threshold, hready.healthy]

/-- A text log, deleted, and then replaced by an empty binary one under the same name. -/
def replaceLog : List (ProgramOp Bool) :=
  [.create false .file (.one [0x61]) false,
    .call false (.log (.infoPlain (ascii "main") (ascii "starts")) noon),
    .delete false,
    .create true .bin (.two [0x61] [0x62, 0x62]) true,
    .call true (.log (.infoPlain (ascii "main") (ascii "starts")) noon)]

theorem opened_replaceLog : Run.Along (step utc) Opened replaceLog (initial Bool calm) := by
  refine .cons ?_ (.cons ?_ (.cons ?_ (.cons ?_ (.cons ?_ Run.along_nil)))) <;>
    rintro i c l truncate ⟨⟩
  · decide
  · decide +kernel

/-- The second logger empties the file that the first one has left. -/
theorem disciplined_replaceLog :
    Run.Along (Ledger.step utc calm.ino) (Ledger.Disciplined calm) replaceLog
      (Ledger.initial Bool calm) := by
  -- the three files that are open in the beginning have other numbers than short names
  have hcalm (path : PathName) (hp : path.length < 100) (fd : Fd) (f : OpenFile)
      (hf : calm.fds fd = some f) : f.ino ≠ calm.ino path := by
    simp only [calm] at hf
    split at hf
    · obtain rfl := Option.some.inj hf
      have hne : ¬ (100 + fd : Nat) = path.length := by omega
      exact hne
    · cases hf
  have hforeign (l : LogFiles) (hl : l.outs.length < 100 ∧ l.errs.length < 100) (fd : Fd)
      (f : OpenFile) (hf : calm.fds fd = some f) :
      f.ino ≠ calm.ino l.outs ∧ f.ino ≠ calm.ino l.errs :=
    ⟨hcalm _ hl.1 fd f hf, hcalm _ hl.2 fd f hf⟩
  refine .cons ⟨rfl, hforeign _ (by decide), by decide, fun j h hj => ?_⟩
    (.cons ⟨by decide, by decide⟩ (.cons ?_
    (.cons ⟨rfl, hforeign _ (by decide), by decide, fun j h hj => ?_⟩
    (.cons ⟨by decide, by decide⟩ Run.along_nil))))
  · cases hj
  · show _ ≠ none
    decide
  · -- the first logger is gone
    have hgone : (Run.exec (Ledger.step utc calm.ino) (replaceLog.take 3)
        (Ledger.initial Bool calm)).2.handles j = none := by
      cases j <;> rfl
    cases hgone.symm.trans hj

/-- The run of `replaceLog`: the text log is gone, and the binary one has its record. -/
theorem refines_ledger_replaceLog :
    let r := Run.exec (step utc) replaceLog (initial Bool calm)
    r.1 = .returned ∧ r.2.k.files 1 = BinLogger.tlvOf utc
      ⟨.infoPlain (ascii "main") (ascii "starts"), noon⟩ := by
  obtain ⟨hflow, hfiles, _⟩ := refines_ledger utc replaceLog faultless_calm
    Process.allAppend_calm.orderly opened_replaceLog disciplined_replaceLog
  refine ⟨hflow.trans (by decide), ?_⟩
  rw [hfiles]
  rfl

/-- **No descriptor leaks, and none is closed that belongs to somebody else.** At the end of such a
program, in which nothing fails and which never calls `close()`, the descriptors of the beginning
are open on what they were open on, each logger that is left has two more to itself, and no other
descriptor is open. -/
theorem no_descriptor_leaks (hk : k₀.Faultless) (horderly : k₀.Orderly)
    (hopened : Run.Along (step host) Opened ops (initial ι k₀))
    (hdisc : Run.Along (Ledger.step host k₀.ino) (Ledger.Disciplined k₀) ops
      (Ledger.initial ι k₀)) :
    let s := (Run.exec (step host) ops (initial ι k₀)).2
    (∀ fd f, k₀.fds fd = some f → s.k.fds fd = some f)
      ∧ (∀ x o, s.stream x = some o → ∃ fd, o.fd = some fd ∧ k₀.fds fd = none ∧ s.k.fds fd ≠ none
        ∧ ∀ y o', s.stream y = some o' → o'.fd = some fd → y = x)
      ∧ ∀ fd, k₀.fds fd = none → s.k.fds fd ≠ none →
        ∃ x o, s.stream x = some o ∧ o.fd = some fd := by
  obtain ⟨_, h⟩ := exec_refines host ops hk horderly hopened hdisc
  refine ⟨fun fd f hf => (h.kept fd f hf).1, fun x o hx => ?_, fun fd hnone hopen => ?_⟩
  · obtain ⟨fd, f, _, _, hfd, hf, -⟩ := h.of_stream hx
    refine ⟨fd, hfd, ?_, by simp [hf], fun y o' hy ho' =>
      h.distinct y x o' o hy hx (ho'.trans hfd.symm)⟩
    -- a descriptor of the beginning belongs to no stream
    by_contra hold
    obtain ⟨f₀, hf₀⟩ := Option.ne_none_iff_exists'.mp hold
    exact (h.kept fd f₀ hf₀).2 x o hx hfd
  · obtain ⟨f, hf⟩ := Option.ne_none_iff_exists'.mp hopen
    rcases h.owned fd f hf with hold | hstream
    · rw [hnone] at hold
      cases hold
    · exact hstream

/-- In the run of `replaceLog` the terminal stays open where it was. -/
theorem no_descriptor_leaks_replaceLog :
    (Run.exec (step utc) replaceLog (initial Bool calm)).2.k.fds 1 = some ⟨101, true, 0⟩ := by
  obtain ⟨hkept, _⟩ := no_descriptor_leaks utc replaceLog faultless_calm
    Process.allAppend_calm.orderly opened_replaceLog disciplined_replaceLog
  exact hkept 1 _ rfl

end Program

end Klog
