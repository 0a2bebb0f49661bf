import Klogger.Agreement
import Klogger.Ledger

/-!
# Raising the threshold

Two programs that make the same calls, the second with a threshold that is nowhere lower
(`Quieter`). The second records some of what the first records, in the same order, and they stop
at the same call with the same exit code: a call that the higher threshold holds back is not at
the level FATAL, and no other call exits.
-/

namespace Klog

open TwoStream

/-- The same operation, or `level()` with a level that is not lower. -/
inductive Quieter : Op → Op → Prop where
  | same (op : Op) : Quieter op op
  | level {l l' : Level} (h : l ≤ l') : Quieter (.level l) (.level l')

theorem Level.le_trans {a b c : Level} (hab : a ≤ b) (hbc : b ≤ c) : a ≤ c :=
  Nat.le_trans (m := b.value) hab hbc

/-- No threshold is above FATAL, so a call that is held back returns. -/
theorem LogCall.flow_of_suppressed {c : LogCall} {l : Level} (h : ¬ l ≤ c.level) :
    c.flow = .returned := by
  -- the methods that exit are at the highest level, which every threshold lets pass
  have hfatal : l ≤ .FATAL := by cases l <;> decide
  cases c with
  | fatal | fatalPlain | fatalCode | fatalCodePlain => exact absurd hfatal h
  | _ => rfl

/-- The second journal has some of the entries of the first. -/
def Journal.Covers (j j' : Journal) : Prop :=
  j.threshold ≤ j'.threshold ∧ j'.entries.Sublist j.entries

/-- One operation each. A call is recorded by both, by the first one only, or by neither. -/
theorem Journal.Covers.step {op op' : Op} {j j' : Journal} (hop : Quieter op op')
    (h : Journal.Covers j j') :
    (Journal.step op j).1 = (Journal.step op' j').1
      ∧ Journal.Covers (Journal.step op j).2 (Journal.step op' j').2 := by
  obtain ⟨hle, hsub⟩ := h
  cases hop with
  | level hl => exact ⟨rfl, hl, hsub⟩
  | same =>
    cases op with
    | log c now =>
      simp only [Journal.step]
      by_cases hpass' : j'.threshold ≤ c.level
      · rw [if_pos hpass', if_pos (Level.le_trans hle hpass')]
        -- what passes the higher threshold passes the lower one
        exact ⟨rfl, hle, hsub.append_right _⟩
      · rw [if_neg hpass']
        by_cases hpass : j.threshold ≤ c.level
        · -- only the first journal has the entry
          rw [if_pos hpass]
          exact ⟨LogCall.flow_of_suppressed hpass', hle,
            hsub.trans (List.sublist_append_left _ _)⟩
        · rw [if_neg hpass]
          exact ⟨rfl, hle, hsub⟩
    | level l => exact ⟨rfl, Nat.le_refl _, hsub⟩
    | close => exact ⟨rfl, hle, hsub⟩

/-- The same for whole programs. The two run operation by operation, also where the operations
differ (`Run.exec_sim₂`). -/
theorem passed_quieter {ops ops' : List Op} (h : List.Forall₂ Quieter ops ops') :
    outcome ops' = outcome ops ∧ (passed ops').Sublist (passed ops) := by
  have hstart : Journal.Covers Journal.init Journal.init := ⟨Nat.le_refl _, List.Sublist.refl _⟩
  obtain ⟨hflow, _, hsub⟩ := Run.exec_sim₂ (fun _ _ _ _ hop hj => hj.step hop) h hstart
  exact ⟨hflow.symm, hsub⟩

theorem Quieter.ne_close {op op' : Op} (h : Quieter op op') (hop : op ≠ .close) :
    op' ≠ .close := by
  cases h with
  | same => exact hop
  | level => exact Op.noConfusion

theorem ne_close_of_quieter {ops ops' : List Op} (h : List.Forall₂ Quieter ops ops')
    (hops : ∀ op ∈ ops, op ≠ .close) : ∀ op' ∈ ops', op' ≠ .close := by
  induction h with
  | nil => exact hops
  | cons hq _ ih =>
    rw [List.forall_mem_cons] at hops ⊢
    exact ⟨hq.ne_close hops.1, ih hops.2⟩

/-- What `open_logfile` and `open_binlogfile` on two empty files, and calls after them, leave
behind. -/
theorem exec_openFiles (host : Host) (c : FileBacked) {k : Kernel} {logfile errfile : PathName}
    {truncate : Bool} (h : EmptyFiles k logfile errfile)
    (hopen : (c.openFiles (.two logfile errfile) truncate k).1.err = .HEALTHY) {ops : List Op}
    (hops : ∀ op ∈ ops, op ≠ .close) :
    let r := Run.exec (c.vtable host).step ops (c.openFiles (.two logfile errfile) truncate k)
    r.1 = outcome ops
      ∧ Recorded (c.record host) (r.2.2.files (k.ino logfile)) (r.2.2.files (k.ino errfile))
          (passed ops) := by
  cases c with
  | file => exact fileLogger_empty_files host h hops hopen
  | bin => exact binLogger_empty_files host h hops hopen

/-- **Raising the threshold only leaves records out.** Two programs make the same calls, the second
with levels that are nowhere lower, and neither calls `close()`. On a logger of either class with
two empty files, if nothing fails, and on a `Syslogger` they stop at the same call with the same
exit code, and what the second one has recorded is a part of what the first one has, in the same
order. -/
theorem raising_threshold (host : Host) {ops ops' : List Op}
    (h : List.Forall₂ Quieter ops ops') (hops : ∀ op ∈ ops, op ≠ .close) :
    (∀ (c : FileBacked) (k : Kernel) (logfile errfile : PathName) (truncate : Bool),
        EmptyFiles k logfile errfile →
        (c.openFiles (.two logfile errfile) truncate k).1.err = .HEALTHY →
        let s := c.openFiles (.two logfile errfile) truncate k
        let r := Run.exec (c.vtable host).step ops s
        let r' := Run.exec (c.vtable host).step ops' s
        r'.1 = r.1 ∧ (passed ops').Sublist (passed ops)
          ∧ Recorded (c.record host) (r.2.2.files (k.ino logfile)) (r.2.2.files (k.ino errfile))
              (passed ops)
          ∧ Recorded (c.record host) (r'.2.2.files (k.ino logfile))
              (r'.2.2.files (k.ino errfile)) (passed ops'))
      ∧ ∀ (name : Bytes) (facility : Nat) (options : List Nat) (d : Syslogd),
          let s := Syslogger.new name facility options d
          let r := Run.exec sysLogger.step ops s
          let r' := Run.exec sysLogger.step ops' s
          r'.1 = r.1 ∧ r'.2.d.calls.Sublist r.2.d.calls := by
  have hops' := ne_close_of_quieter h hops
  obtain ⟨hflow, hsub⟩ := passed_quieter h
  refine ⟨fun c k logfile errfile truncate hempty hopen => ?_, fun name facility options d => ?_⟩
  · obtain ⟨hend, hall⟩ := exec_openFiles host c hempty hopen hops
    obtain ⟨hend', hkept⟩ := exec_openFiles host c hempty hopen hops'
    exact ⟨hend'.trans (hflow.trans hend.symm), hsub, hall, hkept⟩
  · obtain ⟨hend, hcalls⟩ := exec_syslog (Syslogger.new name facility options d) rfl hops
    obtain ⟨hend', hcalls'⟩ := exec_syslog (Syslogger.new name facility options d) rfl hops'
    refine ⟨hend'.trans (hflow.trans hend.symm), ?_⟩
    show List.Sublist (Run.exec sysLogger.step ops' _).2.d.calls _
    rw [hcalls, hcalls']
    exact (hsub.map _).append_left _

/-- The run of `warnInfo` with a level that lets no INFO through. -/
theorem raising_threshold_warnInfo :
    let s := FileBacked.file.openFiles (.two [0x61] [0x62, 0x62]) false calm
    let r := Run.exec (FileBacked.file.vtable utc).step (.level .INFO :: warnInfo) s
    let r' := Run.exec (FileBacked.file.vtable utc).step (.level .WARN :: warnInfo) s
    r'.1 = r.1 ∧ (passed (.level .WARN :: warnInfo)).Sublist (passed (.level .INFO :: warnInfo))
      ∧ Recorded (FileBacked.file.record utc) (r.2.2.files (calm.ino [0x61]))
          (r.2.2.files (calm.ino [0x62, 0x62])) (passed (.level .INFO :: warnInfo))
      ∧ Recorded (FileBacked.file.record utc) (r'.2.2.files (calm.ino [0x61]))
          (r'.2.2.files (calm.ino [0x62, 0x62])) (passed (.level .WARN :: warnInfo)) :=
  have hquieter : List.Forall₂ Quieter (.level .INFO :: warnInfo) (.level .WARN :: warnInfo) :=
    .cons (.level (by decide)) (List.forall₂_same.mpr fun op _ => .same op)
  (raising_threshold utc hquieter (by decide)).1 .file calm [0x61] [0x62, 0x62] false
    emptyFiles_calm rfl

end Klog
