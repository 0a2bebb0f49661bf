import Mathlib.Data.List.Induction

/-!
# Runs of a machine that may exit

A machine takes operations one after another; an operation returns, or it exits the process
with a code, and then nothing after it is executed. `exec` is the run. Two rules carry what
one operation does to what a run does: `exec_invariant` for a property of the states, and
`exec_sim` for a relation between two machines that take the same operations.

Three properties of a run are named: what holds of every operation it executes (`Along`), of
every state from a certain operation on (`OnceThen`), and of every operation after a certain
one (`OnceAlong`).
-/

/-- Whether an operation returned to its caller or ended the process. -/
inductive ControlFlow where
  | returned
  | exited (code : Int)
  deriving DecidableEq, Repr

namespace Run

variable {ω σ τ : Type*}

/-- Execute the operations in order, up to and including the first one that exits. -/
def exec (step : ω → σ → ControlFlow × σ) : List ω → σ → ControlFlow × σ
  | [], s => (.returned, s)
  | op :: ops, s =>
    match (step op s).1 with
    | .returned => exec step ops (step op s).2
    | .exited c => (.exited c, (step op s).2)

variable {step : ω → σ → ControlFlow × σ}

@[simp] theorem exec_nil (s : σ) : exec step [] s = (.returned, s) := rfl

theorem exec_cons_returned {op : ω} {s : σ} (h : (step op s).1 = .returned) (ops : List ω) :
    exec step (op :: ops) s = exec step ops (step op s).2 := by
  rw [exec, h]

theorem exec_cons_exited {op : ω} {s : σ} {c : Int} (h : (step op s).1 = .exited c)
    (ops : List ω) : exec step (op :: ops) s = step op s := by
  rw [exec, h]
  exact Prod.ext h.symm rfl

/-- A run can be cut anywhere: what comes behind starts in the state that the first part leaves, if
the process still lives. Induction on the first part. -/
theorem exec_append {as : List ω} {s : σ} (h : (exec step as s).1 = .returned) (bs : List ω) :
    exec step (as ++ bs) s = exec step bs (exec step as s).2 := by
  induction as generalizing s with
  | nil => rfl
  | cons op as ih =>
    -- the first part did not return after all
    cases hop : (step op s).1 with
    | returned =>
      rw [exec_cons_returned hop] at h ⊢
      rw [List.cons_append, exec_cons_returned hop, ih h]
    | exited c =>
      rw [exec_cons_exited hop, hop] at h
      cases h

/-- Nothing is executed after an exit. -/
theorem exec_append_exited {as : List ω} {s : σ} {c : Int}
    (h : (exec step as s).1 = .exited c) (bs : List ω) :
    exec step (as ++ bs) s = exec step as s := by
  induction as generalizing s with
  | nil => cases h
  | cons op as ih =>
    cases hop : (step op s).1 with
    | returned =>
      rw [exec_cons_returned hop] at h
      rw [List.cons_append, exec_cons_returned hop, exec_cons_returned hop, ih h]
    | exited c =>
      rw [List.cons_append, exec_cons_exited hop, exec_cons_exited hop]

/-- The last operation of a run, by itself. Invariants of runs are shown from the end with this. -/
theorem exec_snoc {as : List ω} {s : σ} (h : (exec step as s).1 = .returned) (op : ω) :
    exec step (as ++ [op]) s = step op (exec step as s).2 := by
  rw [exec_append h]
  cases hop : (step op (exec step as s).2).1 with
  | returned =>
    rw [exec_cons_returned hop, exec_nil]
    exact Prod.ext hop.symm rfl
  | exited c => rw [exec_cons_exited hop]

/-- What every operation preserves, every run preserves. -/
theorem exec_invariant {I : σ → Prop} {P : ω → Prop}
    (hstep : ∀ op s, P op → I s → I (step op s).2) {ops : List ω} (hops : ∀ op ∈ ops, P op)
    {s : σ} (hs : I s) : I (exec step ops s).2 := by
  induction ops generalizing s with
  | nil => exact hs
  | cons op ops ih =>
    have hnext : I (step op s).2 := hstep op s (hops op (by simp)) hs
    cases hop : (step op s).1 with
    | returned =>
      rw [exec_cons_returned hop]
      exact ih (fun o ho => hops o (by simp [ho])) hnext
    | exited c =>
      rw [exec_cons_exited hop]
      -- the operation exits, but its state has the property like any other
      exact hnext

/-- Two machines that answer every operation alike and stay related run alike. -/
theorem exec_sim {step' : ω → τ → ControlFlow × τ} {R : σ → τ → Prop} {P : ω → Prop}
    (hstep : ∀ op s t, P op → R s t →
      (step op s).1 = (step' op t).1 ∧ R (step op s).2 (step' op t).2)
    {ops : List ω} (hops : ∀ op ∈ ops, P op) {s : σ} {t : τ} (hst : R s t) :
    (exec step ops s).1 = (exec step' ops t).1
      ∧ R (exec step ops s).2 (exec step' ops t).2 := by
  induction ops generalizing s t with
  | nil => exact ⟨rfl, hst⟩
  | cons op ops ih =>
    obtain ⟨hflow, hnext⟩ := hstep op s t (hops op (by simp)) hst
    cases hop : (step op s).1 with
    | returned =>
      rw [exec_cons_returned hop, exec_cons_returned (hflow ▸ hop)]
      exact ih (fun o ho => hops o (by simp [ho])) hnext
    | exited c =>
      rw [exec_cons_exited hop, exec_cons_exited (hflow ▸ hop)]
      exact ⟨hflow, hnext⟩

/-- Relabelling the operations and the states of a machine relabels its runs. -/
theorem exec_map {ω' : Type*} {step' : ω' → τ → ControlFlow × τ} {f : ω → ω'} {g : σ → τ}
    (hstep : ∀ op s, step' (f op) (g s) = ((step op s).1, g (step op s).2)) (ops : List ω) (s : σ) :
    exec step' (ops.map f) (g s) = ((exec step ops s).1, g (exec step ops s).2) := by
  induction ops generalizing s with
  | nil => rfl
  | cons op ops ih =>
    have hflow : (step' (f op) (g s)).1 = (step op s).1 := by rw [hstep]
    cases hop : (step op s).1 with
    | returned =>
      rw [exec_cons_returned hop, List.map_cons, exec_cons_returned (hflow.trans hop), hstep, ih]
    | exited c =>
      rw [exec_cons_exited hop, List.map_cons, exec_cons_exited (hflow.trans hop), hstep]

/-- Cutting a run behind an operation in the middle that returned. -/
theorem exec_append_cons {as : List ω} {s : σ} (h : (exec step as s).1 = .returned) {op : ω}
    (hop : (step op (exec step as s).2).1 = .returned) (bs : List ω) :
    exec step (as ++ op :: bs) s = exec step bs (step op (exec step as s).2).2 := by
  rw [exec_append h, exec_cons_returned hop]

/-! ## Properties of a run -/

variable (step)

/-- Every operation that is executed, with the state it meets. -/
def Along (P : ω → σ → Prop) (ops : List ω) (s : σ) : Prop :=
  ∀ pre op post, ops = pre ++ op :: post → (exec step pre s).1 = .returned →
    P op (exec step pre s).2

/-- Every state of the run. -/
def Always (B : σ → Prop) (ops : List ω) (s : σ) : Prop :=
  ∀ pre post, ops = pre ++ post → B (exec step pre s).2

/-- Every state from an operation of the kind `A` on. -/
def OnceThen (A : ω → σ → Prop) (B : σ → Prop) (ops : List ω) (s : σ) : Prop :=
  ∀ pre op mid post, ops = pre ++ op :: (mid ++ post) → (exec step pre s).1 = .returned →
    A op (exec step pre s).2 → B (exec step (pre ++ op :: mid) s).2

/-- Every operation that is executed after one of the kind `A`, with the state it meets. -/
def OnceAlong (A P : ω → σ → Prop) (ops : List ω) (s : σ) : Prop :=
  ∀ pre op mid op' post, ops = pre ++ op :: (mid ++ op' :: post) →
    (exec step pre s).1 = .returned → A op (exec step pre s).2 →
    (exec step (pre ++ op :: mid) s).1 = .returned → P op' (exec step (pre ++ op :: mid) s).2

variable {step}

/-- If an operation preserves `B` exactly when it satisfies `P`, then `B` holds throughout
exactly when only such operations are executed. Induction on the run from its end. -/
theorem always_iff_along {P : ω → σ → Prop} {B I : σ → Prop}
    (hI : ∀ op s, I s → I (step op s).2)
    (hB : ∀ op s, I s → B s → (B (step op s).2 ↔ P op s)) {ops : List ω} {s : σ} (hs : I s)
    (hb : B s) : Always step B ops s ↔ Along step P ops s := by
  have hIexec (as : List ω) : I (exec step as s).2 :=
    exec_invariant (P := fun _ => True) (fun o t _ => hI o t) (by simp) hs
  constructor
  · intro h pre op post hops hpre
    -- look at the state before the operation and the one after it
    have hafter := h (pre ++ [op]) post (by simp [hops])
    rw [exec_snoc hpre] at hafter
    exact (hB op _ (hIexec pre) (h pre (op :: post) hops)).mp hafter
  · intro h pre
    -- from the end: the last operation preserves `B` if the others have
    induction pre using List.reverseRecOn with
    | nil => exact fun _ _ => hb
    | append_singleton pre op ih =>
      intro post hops
      have hbefore := ih (op :: post) (by simpa using hops)
      cases hpre : (exec step pre s).1 with
      | exited c =>
        -- nothing is executed any more
        rw [exec_append_exited hpre]
        exact hbefore
      | returned =>
        rw [exec_snoc hpre]
        exact (hB op _ (hIexec pre) hbefore).mpr (h pre op post (by simpa using hops) hpre)

/-- The same from an operation on that establishes `B`. -/
theorem onceThen_iff_onceAlong {A P : ω → σ → Prop} {B I : σ → Prop}
    (hI : ∀ op s, I s → I (step op s).2) (hA : ∀ op s, I s → A op s → B (step op s).2)
    (hB : ∀ op s, I s → B s → (B (step op s).2 ↔ P op s)) (ops : List ω) {s : σ} (hs : I s) :
    OnceThen step A B ops s ↔ OnceAlong step A P ops s := by
  have hIexec (as : List ω) : I (exec step as s).2 :=
    exec_invariant (P := fun _ => True) (fun o t _ => hI o t) (by simp) hs
  -- behind the operation, this is the statement about a run from the state it leaves
  have htail (pre : List ω) (op : ω) (ha : A op (exec step pre s).2) (rest : List ω) :
      Always step B rest (step op (exec step pre s).2).2
        ↔ Along step P rest (step op (exec step pre s).2).2 :=
    always_iff_along hI hB (hI _ _ (hIexec pre)) (hA _ _ (hIexec pre) ha)
  constructor
  · intro h pre op mid op' post hops hpre ha hmid
    cases hop : (step op (exec step pre s).2).1 with
    | exited c =>
      rw [exec_append hpre, exec_cons_exited hop, hop] at hmid
      cases hmid
    | returned =>
      -- behind `op` the run is one of its own, and `B` holds throughout it
      rw [exec_append_cons hpre hop] at hmid ⊢
      refine (htail pre op ha (mid ++ op' :: post)).mp ?_ mid op' post rfl hmid
      intro mid' post' hsplit
      have hb := h pre op mid' post' (by rw [hops, hsplit]) hpre ha
      rwa [exec_append_cons hpre hop] at hb
  · intro h pre op mid post hops hpre ha
    cases hop : (step op (exec step pre s).2).1 with
    | exited c =>
      -- `op` is the last operation that is executed
      rw [exec_append hpre, exec_cons_exited hop]
      exact hA _ _ (hIexec pre) ha
    | returned =>
      rw [exec_append_cons hpre hop]
      refine (htail pre op ha (mid ++ post)).mpr ?_ mid post rfl
      intro mid' op' post' hsplit hmid
      have hp := h pre op mid' op' post' (by rw [hops, hsplit]) hpre ha
      rw [exec_append_cons hpre hop] at hp
      exact hp hmid

/-- If `A` establishes `B` and every operation preserves it, `B` holds from then on. -/
theorem onceThen_of_preserved {A : ω → σ → Prop} {B I : σ → Prop}
    (hI : ∀ op s, I s → I (step op s).2) (hA : ∀ op s, I s → A op s → B (step op s).2)
    (hB : ∀ op s, I s → B s → B (step op s).2) (ops : List ω) {s : σ} (hs : I s) :
    OnceThen step A B ops s :=
  (onceThen_iff_onceAlong (P := fun _ _ => True) hI hA
    (fun op s hi hb => iff_of_true (hB op s hi hb) trivial) ops hs).mpr
    -- nothing is asked of the later operations
    (fun _ _ _ _ _ _ _ _ _ => trivial)

/-- What holds from then on anyway can be left out of the property. -/
theorem OnceThen.and_iff {A : ω → σ → Prop} {B D : σ → Prop} {ops : List ω} {s : σ}
    (hD : OnceThen step A D ops s) :
    OnceThen step A (fun t => B t ∧ D t) ops s ↔ OnceThen step A B ops s :=
  ⟨fun h pre op mid post hops hpre ha => (h pre op mid post hops hpre ha).1,
    fun h pre op mid post hops hpre ha =>
      ⟨h pre op mid post hops hpre ha, hD pre op mid post hops hpre ha⟩⟩

theorem along_nil {P : ω → σ → Prop} {s : σ} : Along step P [] s := by
  intro pre op post hops
  simp at hops

/-- The first operation meets the start; the others are those of the run behind it. -/
theorem Along.cons {P : ω → σ → Prop} {op : ω} {ops : List ω} {s : σ} (h : P op s)
    (hrest : Along step P ops (step op s).2) : Along step P (op :: ops) s := by
  intro pre o post hops hpre
  cases pre with
  | nil =>
    obtain ⟨rfl, rfl⟩ := List.cons.inj hops
    exact h
  | cons o' pre =>
    obtain ⟨rfl, rfl⟩ := List.cons.inj hops
    cases hop : (step op s).1 with
    | exited c =>
      rw [exec_cons_exited hop, hop] at hpre
      cases hpre
    | returned =>
      rw [exec_cons_returned hop] at hpre ⊢
      exact hrest pre o post rfl hpre

theorem Along.tail {P : ω → σ → Prop} {op : ω} {ops : List ω} {s : σ}
    (h : Along step P (op :: ops) s) (hop : (step op s).1 = .returned) :
    Along step P ops (step op s).2 := by
  intro pre o post hops hpre
  have hexec : exec step (op :: pre) s = exec step pre (step op s).2 := exec_cons_returned hop pre
  have hhere := h (op :: pre) o post (by rw [hops, List.cons_append]) (by rw [hexec, hpre])
  rwa [hexec] at hhere

/-- The same where the two machines take operations that are related one by one. -/
theorem exec_sim₂ {ω' : Type*} {step' : ω' → τ → ControlFlow × τ} {Q : ω → ω' → Prop}
    {R : σ → τ → Prop}
    (hstep : ∀ op op' s t, Q op op' → R s t →
      (step op s).1 = (step' op' t).1 ∧ R (step op s).2 (step' op' t).2)
    {ops : List ω} {ops' : List ω'} (hops : List.Forall₂ Q ops ops') {s : σ} {t : τ}
    (hst : R s t) :
    (exec step ops s).1 = (exec step' ops' t).1
      ∧ R (exec step ops s).2 (exec step' ops' t).2 := by
  induction hops generalizing s t with
  | nil => exact ⟨rfl, hst⟩
  | cons hop _ ih =>
    obtain ⟨hflow, hnext⟩ := hstep _ _ s t hop hst
    cases hreturn : (step _ s).1 with
    | returned =>
      rw [exec_cons_returned hreturn, exec_cons_returned (hflow ▸ hreturn)]
      exact ih hnext
    | exited c =>
      rw [exec_cons_exited hreturn, exec_cons_exited (hflow ▸ hreturn)]
      exact ⟨hflow, hnext⟩

/-- Two machines that answer alike and stay related where the one meets `P` and the other `Q` run
alike where they do so along the run. -/
theorem exec_sim_along {step' : ω → τ → ControlFlow × τ} {R : σ → τ → Prop} {P : ω → σ → Prop}
    {Q : ω → τ → Prop}
    (hstep : ∀ op s t, P op s → Q op t → R s t →
      (step op s).1 = (step' op t).1 ∧ R (step op s).2 (step' op t).2)
    {ops : List ω} {s : σ} {t : τ} (hP : Along step P ops s) (hQ : Along step' Q ops t)
    (hst : R s t) :
    (exec step ops s).1 = (exec step' ops t).1
      ∧ R (exec step ops s).2 (exec step' ops t).2 := by
  induction ops generalizing s t with
  | nil => exact ⟨rfl, hst⟩
  | cons op ops ih =>
    obtain ⟨hflow, hnext⟩ := hstep op s t (hP [] op ops rfl rfl) (hQ [] op ops rfl rfl) hst
    cases hop : (step op s).1 with
    | returned =>
      have hop' : (step' op t).1 = .returned := hflow ▸ hop
      rw [exec_cons_returned hop, exec_cons_returned hop']
      exact ih (hP.tail hop) (hQ.tail hop') hnext
    | exited c =>
      rw [exec_cons_exited hop, exec_cons_exited (hflow ▸ hop)]
      exact ⟨hflow, hnext⟩

end Run
