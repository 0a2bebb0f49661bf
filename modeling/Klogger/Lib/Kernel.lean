import Mathlib.Logic.Function.Basic
import Klogger.Lib.OStream

/-!
# Files and descriptors

The part of a POSIX system that a program writing files can tell apart.

* **`Kernel`** — file contents, the descriptor table with each open file's mode and private
  offset, and the environment: `oracle n` decides the outcome of the `n`-th operation.
  `sent fd` is a history variable: the bytes `write(2)` has taken from `fd`.
* **`Kernel.push`** — one `write(2)`: at the end of the file in append mode, else at the
  private offset. Two pushes in a row are one push of the concatenation (`push_push`), so how
  a buffer is cut into system calls cannot be seen afterwards.
* **`Kernel.close`** — one `close(2)`.

A descriptor whose next write goes to the end of its file (`AtEnd`) appends; in append mode it
does so whatever happens elsewhere (`Appending.push`), else only as long as nobody else writes
to the file (`AtEnd.push_ne`).
-/

abbrev Fd := Nat
abbrev Ino := Nat
abbrev PathName := Bytes

/-- An entry of the descriptor table: the file, the mode, and the private offset. In append mode the
offset is kept up to date but decides nothing. -/
structure OpenFile where
  ino : Ino
  append : Bool
  off : Nat

/-- What the environment makes of one operation. `ok k`: it succeeds, a write passing `k` of
the pending bytes on at once, an open returning descriptor `k`. `fail k`: it fails, after `k`
bytes were passed on. -/
inductive Outcome where
  | ok (k : Nat)
  | fail (k : Nat)

/-- `ino` is what the path names stand for; no path is renamed or unlinked. `tick` counts the
operations so far, so `oracle tick` is the outcome of the next one. -/
structure Kernel where
  ino : PathName → Ino
  files : Ino → Bytes
  fds : Fd → Option OpenFile
  sent : Fd → Bytes
  tick : Nat
  oracle : Nat → Outcome

/-- The contents `c` after writing `d` at offset `off`; a gap is filled with zeros. -/
def overwrite (c : Bytes) (off : Nat) (d : Bytes) : Bytes :=
  c.take off ++ List.replicate (off - c.length) 0 ++ d ++ c.drop (off + d.length)

/-! ## Overwriting -/

/-- At the end there is nothing to overwrite and no gap: the write appends. -/
theorem overwrite_length (c d : Bytes) : overwrite c c.length d = c ++ d := by
  simp [overwrite]

/-- Two writes in a row are one write of the concatenation. -/
theorem overwrite_overwrite (c a b : Bytes) (off : Nat) :
    overwrite (overwrite c off a) (off + a.length) b = overwrite c off (a ++ b) := by
  set pre := c.take off ++ List.replicate (off - c.length) 0 with hpre
  have hlen : pre.length = off := by
    simp only [hpre, List.length_append, List.length_take, List.length_replicate]
    omega
  have hfst : overwrite c off a = (pre ++ a) ++ c.drop (off + a.length) := rfl
  have hcut : off + a.length = (pre ++ a).length := by simp [hlen]
  -- the second write starts right behind `pre ++ a`: no gap is left to fill
  have htake : (overwrite c off a).take (off + a.length) = pre ++ a := by
    rw [hfst, hcut, List.take_left]
  have hgap : off + a.length - (overwrite c off a).length = 0 := by
    rw [hfst, List.length_append, ← hcut]
    omega
  have hdrop : (overwrite c off a).drop (off + a.length + b.length)
      = c.drop (off + (a ++ b).length) := by
    rw [hfst, ← List.drop_drop, hcut, List.drop_left, List.drop_drop, ← hcut,
      List.length_append, Nat.add_assoc]
  rw [overwrite, htake, hgap, hdrop, overwrite, ← hpre]
  simp [List.append_assoc]

/-- A write inside the file, or adjoining it, makes it no longer than what it covers. -/
theorem length_overwrite {c : Bytes} {off : Nat} (h : off ≤ c.length) (d : Bytes) :
    (overwrite c off d).length = max c.length (off + d.length) := by
  simp only [overwrite, List.length_append, List.length_take, List.length_replicate,
    List.length_drop]
  omega

namespace Kernel

/-! ## Descriptors -/

/-- The descriptor of a stream, if it has one, is in the table. -/
def isOpen (k : Kernel) (fd : Option Fd) : Prop := ∃ f, fd.bind k.fds = some f

/-- The operating system after `n` more operations that left nothing behind. -/
def tock (k : Kernel) (n : Nat) : Kernel := { k with tick := k.tick + n }

/-- One `write(2)` of `d` on descriptor `fd`; nothing happens if `fd` is not open. -/
def push (k : Kernel) (fd : Fd) (d : Bytes) : Kernel :=
  match k.fds fd with
  | none => k
  | some f =>
    if d = [] then k else
      let c := k.files f.ino
      let pos := if f.append then c.length else f.off
      { k with
        files := Function.update k.files f.ino (overwrite c pos d)
        fds := Function.update k.fds fd (some { f with off := pos + d.length })
        sent := Function.update k.sent fd (k.sent fd ++ d) }

/-- The same for a stream that may have no descriptor; nothing happens then either. -/
def pushTo (k : Kernel) (fd : Option Fd) (d : Bytes) : Kernel :=
  match fd with
  | none => k
  | some fd => k.push fd d

@[simp] theorem tock_zero (k : Kernel) : k.tock 0 = k := rfl

theorem tock_tock (k : Kernel) (m n : Nat) : (k.tock m).tock n = k.tock (m + n) := by
  simp [tock, Nat.add_assoc]

@[simp] theorem tock_fds (k : Kernel) (n : Nat) : (k.tock n).fds = k.fds := rfl
@[simp] theorem tock_files (k : Kernel) (n : Nat) : (k.tock n).files = k.files := rfl
@[simp] theorem tock_sent (k : Kernel) (n : Nat) : (k.tock n).sent = k.sent := rfl
@[simp] theorem tock_oracle (k : Kernel) (n : Nat) : (k.tock n).oracle = k.oracle := rfl
@[simp] theorem tock_tick (k : Kernel) (n : Nat) : (k.tock n).tick = k.tick + n := rfl

/-- A write to a closed descriptor fails with `EBADF` and changes nothing. -/
theorem push_closed {k : Kernel} {fd : Fd} (h : k.fds fd = none) (d : Bytes) :
    k.push fd d = k := by
  simp [push, h]

@[simp] theorem push_nil (k : Kernel) (fd : Fd) : k.push fd [] = k := by
  unfold push
  split <;> simp

@[simp] theorem pushTo_nil (k : Kernel) (fd : Option Fd) : k.pushTo fd [] = k := by
  cases fd with
  | none => rfl
  | some fd => exact k.push_nil fd

/-- The state after a push on an open descriptor, in one piece. -/
theorem push_open {k : Kernel} {fd : Fd} {f : OpenFile} (h : k.fds fd = some f) {d : Bytes}
    (hd : d ≠ []) :
    k.push fd d =
      let pos := if f.append then (k.files f.ino).length else f.off
      { k with
        files := Function.update k.files f.ino (overwrite (k.files f.ino) pos d)
        fds := Function.update k.fds fd (some { f with off := pos + d.length })
        sent := Function.update k.sent fd (k.sent fd ++ d) } := by
  simp [push, h, hd]

/-- How a run of bytes is cut into `write(2)` calls leaves no trace. -/
theorem push_push (k : Kernel) (fd : Fd) (a b : Bytes) :
    (k.push fd a).push fd b = k.push fd (a ++ b) := by
  cases hf : k.fds fd with
  | none => simp [push_closed hf]
  | some f =>
    -- an empty write is none, so there is one write at most
    by_cases ha : a = []
    · simp [ha]
    by_cases hb : b = []
    · simp [hb]
    have hab : a ++ b ≠ [] := by simp [ha]
    rw [push_open hf ha, push_open hf hab]
    cases happ : f.append with
    | true =>
      -- the second write meets a file that the first one has made longer
      rw [push_open (f := { f with off := (k.files f.ino).length + a.length }) (by simp [happ]) hb]
      have hend : overwrite (k.files f.ino ++ a) ((k.files f.ino).length + a.length) b
          = k.files f.ino ++ (a ++ b) := by
        rw [← List.length_append, overwrite_length, List.append_assoc]
      simp [happ, overwrite_length, hend, Nat.add_assoc]
    | false =>
      -- the second write starts at the offset where the first one stopped
      rw [push_open (f := { f with off := f.off + a.length }) (by simp [happ]) hb]
      simp [happ, overwrite_overwrite, List.append_assoc, Nat.add_assoc]

theorem pushTo_pushTo (k : Kernel) (fd : Option Fd) (a b : Bytes) :
    (k.pushTo fd a).pushTo fd b = k.pushTo fd (a ++ b) := by
  cases fd with
  | none => rfl
  | some fd => exact k.push_push fd a b

/-- A write does not see the clock of the environment, so the two can be counted apart. -/
theorem tock_pushTo (k : Kernel) (n : Nat) (fd : Option Fd) (d : Bytes) :
    (k.tock n).pushTo fd d = (k.pushTo fd d).tock n := by
  cases fd with
  | none => rfl
  | some fd =>
    show (k.tock n).push fd d = (k.push fd d).tock n
    unfold push
    simp only [tock_fds]
    cases k.fds fd with
    | none => rfl
    | some f =>
      by_cases hd : d = []
      · simp [hd]
      · simp [hd, tock]

/-- A push touches the files, the descriptors and the histories, and nothing else. -/
theorem pushTo_frame (k : Kernel) (fd : Option Fd) (d : Bytes) :
    ∃ files fds sent, k.pushTo fd d = { k with files := files, fds := fds, sent := sent } := by
  cases fd with
  | none => exact ⟨k.files, k.fds, k.sent, rfl⟩
  | some fd =>
    show ∃ files fds sent, k.push fd d = { k with files := files, fds := fds, sent := sent }
    cases hf : k.fds fd with
    | none => exact ⟨k.files, k.fds, k.sent, push_closed hf d⟩
    | some f =>
      by_cases hd : d = []
      · exact ⟨k.files, k.fds, k.sent, by rw [hd, push_nil]⟩
      · exact ⟨_, _, _, push_open hf hd⟩

@[simp] theorem pushTo_tick (k : Kernel) (fd : Option Fd) (d : Bytes) :
    (k.pushTo fd d).tick = k.tick := by
  obtain ⟨_, _, _, h⟩ := k.pushTo_frame fd d
  rw [h]

@[simp] theorem pushTo_oracle (k : Kernel) (fd : Option Fd) (d : Bytes) :
    (k.pushTo fd d).oracle = k.oracle := by
  obtain ⟨_, _, _, h⟩ := k.pushTo_frame fd d
  rw [h]

/-- A push opens and closes nothing, and leaves each descriptor on its file in its mode. -/
theorem push_fds (k : Kernel) (fd : Fd) (d : Bytes) (g : Fd) :
    ((k.push fd d).fds g).map (fun f => (f.ino, f.append))
      = (k.fds g).map (fun f => (f.ino, f.append)) := by
  cases hf : k.fds fd with
  | none => rw [push_closed hf]
  | some f =>
    by_cases hd : d = []
    · simp [hd]
    rw [push_open hf hd]
    by_cases hg : g = fd
    · subst hg
      simp [hf]
    · simp [Function.update_of_ne hg]

/-- Other descriptors keep their entry, also those on the same file: an offset that is not at the
end any more is how two writers overwrite each other. -/
theorem push_ne (k : Kernel) {fd g : Fd} (hg : g ≠ fd) (d : Bytes) :
    (k.push fd d).fds g = k.fds g ∧ (k.push fd d).sent g = k.sent g := by
  cases hf : k.fds fd with
  | none =>
    rw [push_closed hf]
    exact ⟨rfl, rfl⟩
  | some f =>
    by_cases hd : d = []
    · simp [hd]
    · rw [push_open hf hd]
      exact ⟨Function.update_of_ne hg _ _, Function.update_of_ne hg _ _⟩

theorem push_fds_ne (k : Kernel) {fd g : Fd} (hg : g ≠ fd) (d : Bytes) :
    (k.push fd d).fds g = k.fds g := (k.push_ne hg d).1

theorem push_sent_ne (k : Kernel) {fd g : Fd} (hg : g ≠ fd) (d : Bytes) :
    (k.push fd d).sent g = k.sent g := (k.push_ne hg d).2

/-- A write opens nothing and closes nothing. -/
theorem pushTo_fds_eq_none (k : Kernel) (fd : Option Fd) (d : Bytes) (g : Fd) :
    (k.pushTo fd d).fds g = none ↔ k.fds g = none := by
  cases fd with
  | none => rfl
  | some fd =>
    show (k.push fd d).fds g = none ↔ k.fds g = none
    -- `push_fds` compares what a descriptor is open on, so it compares whether it is open
    have h := k.push_fds fd d g
    cases h₁ : k.fds g with
    | none => simpa [h₁] using h
    | some f =>
      rw [h₁] at h
      refine iff_of_false (fun h₂ => ?_) (by simp)
      rw [h₂] at h
      simp at h

theorem isOpen_some {k : Kernel} {fd : Fd} : k.isOpen (some fd) ↔ k.fds fd ≠ none := by
  unfold isOpen
  cases h : k.fds fd <;> simp [h]

theorem not_isOpen_none (k : Kernel) : ¬ k.isOpen none := by
  rintro ⟨f, hf⟩
  simp at hf

/-- The streams that have lost their descriptor write into the void. -/
theorem pushTo_closed {k : Kernel} {fd : Option Fd} (h : ¬ k.isOpen fd) (d : Bytes) :
    k.pushTo fd d = k := by
  cases fd with
  | none => rfl
  | some fd => exact push_closed (not_not.mp (mt isOpen_some.mpr h)) d

@[simp] theorem isOpen_tock {k : Kernel} {n : Nat} {fd : Option Fd} :
    (k.tock n).isOpen fd ↔ k.isOpen fd := Iff.rfl

@[simp] theorem isOpen_pushTo {k : Kernel} {fd : Option Fd} {d : Bytes} {g : Option Fd} :
    (k.pushTo fd d).isOpen g ↔ k.isOpen g := by
  cases g with
  | none => exact iff_of_false (not_isOpen_none _) (not_isOpen_none _)
  | some g => rw [isOpen_some, isOpen_some, ne_eq, ne_eq, pushTo_fds_eq_none]

/-- The history of an open descriptor gets every byte, in any mode. -/
theorem push_sent {k : Kernel} {fd : Fd} (h : k.fds fd ≠ none) (d : Bytes) :
    (k.push fd d).sent fd = k.sent fd ++ d := by
  obtain ⟨f, hf⟩ := Option.ne_none_iff_exists'.mp h
  by_cases hd : d = []
  · simp [hd]
  · rw [push_open hf hd]
    simp

/-! ## Writing at the end -/

/-- The descriptor is open on the file `i`, and its next write goes to the end of it. -/
def AtEnd (k : Kernel) (fd : Fd) (i : Ino) : Prop :=
  ∃ f, k.fds fd = some f ∧ f.ino = i ∧ (f.append = true ∨ f.off = (k.files i).length)

@[simp] theorem atEnd_tock {k : Kernel} {n : Nat} {fd : Fd} {i : Ino} :
    (k.tock n).AtEnd fd i ↔ k.AtEnd fd i := Iff.rfl

/-- A push at the end appends, to that file only. -/
theorem AtEnd.push_files {k : Kernel} {fd : Fd} {i : Ino} (h : k.AtEnd fd i) (d : Bytes) :
    (k.push fd d).files = Function.update k.files i (k.files i ++ d) := by
  obtain ⟨f, hf, rfl, hend⟩ := h
  by_cases hd : d = []
  · simp [hd]
  have hpos : (if f.append then (k.files f.ino).length else f.off) = (k.files f.ino).length := by
    rcases hend with happ | hoff
    · rw [if_pos happ]
    · split
      · rfl
      · exact hoff
  rw [push_open hf hd]
  simp only [hpos, overwrite_length]

/-- A descriptor at the end of its file is there again after its own write. -/
theorem AtEnd.push {k : Kernel} {fd : Fd} {i : Ino} (h : k.AtEnd fd i) (d : Bytes) :
    (k.push fd d).AtEnd fd i := by
  have hfiles := h.push_files d
  obtain ⟨f, hf, hi, hend⟩ := h
  by_cases hd : d = []
  · rw [hd, push_nil]
    exact ⟨f, hf, hi, hend⟩
  refine ⟨{ f with off := (if f.append then (k.files f.ino).length else f.off) + d.length },
    ?_, hi, ?_⟩
  · rw [push_open hf hd]
    simp
  · -- the offset moved by as much as the file grew
    rcases hend with happ | hoff
    · exact .inl happ
    · right
      rw [hfiles]
      subst hi
      simp [hoff]

/-- The descriptor is open on the file `i` in append mode. -/
def Appending (k : Kernel) (fd : Fd) (i : Ino) : Prop :=
  ∃ f, k.fds fd = some f ∧ f.ino = i ∧ f.append = true

/-- In append mode the next write goes to the end, wherever that is by then. -/
theorem Appending.atEnd {k : Kernel} {fd : Fd} {i : Ino} (h : k.Appending fd i) :
    k.AtEnd fd i := by
  obtain ⟨f, hf, hi, happ⟩ := h
  exact ⟨f, hf, hi, .inl happ⟩

/-- Append mode survives every push. -/
theorem Appending.push {k : Kernel} {g : Fd} {i : Ino} (h : k.Appending g i) (fd : Fd)
    (d : Bytes) : (k.push fd d).Appending g i := by
  obtain ⟨f, hf, hi, happ⟩ := h
  have hmap := k.push_fds fd d g
  rw [hf] at hmap
  obtain ⟨f', hf', heq⟩ := Option.map_eq_some_iff.mp hmap
  simp only [Prod.mk.injEq] at heq
  exact ⟨f', hf', heq.1.trans hi, heq.2.trans happ⟩

/-- A push elsewhere leaves the descriptor at the end of its file. -/
theorem AtEnd.push_ne {k : Kernel} {fd g : Fd} {i j : Ino} (hg : k.AtEnd g j)
    (h : k.AtEnd fd i) (hfd : g ≠ fd) (hij : j ≠ i) (d : Bytes) : (k.push fd d).AtEnd g j := by
  obtain ⟨f, hf, hj, hend⟩ := hg
  -- neither the entry of `g` nor the length of its file changes
  refine ⟨f, by rw [push_fds_ne k hfd, hf], hj, ?_⟩
  rw [h.push_files, Function.update_of_ne hij]
  exact hend

/-! ## Faults -/

/-- No operation fails from here on. -/
def Faultless (k : Kernel) : Prop := ∀ n, k.tick ≤ n → ∃ m, k.oracle n = .ok m

theorem Faultless.tock {k : Kernel} (h : k.Faultless) (n : Nat) : (k.tock n).Faultless := by
  intro i hi
  rw [tock_tick] at hi
  exact h i (by omega)

theorem Faultless.pushTo {k : Kernel} (h : k.Faultless) (fd : Option Fd) (d : Bytes) :
    (k.pushTo fd d).Faultless := by
  intro i hi
  rw [pushTo_tick] at hi
  rw [pushTo_oracle]
  exact h i hi

/-- `close(2)`. Closing a descriptor that is not open fails; closing an open one may fail,
with the descriptor released (`fail` of a positive number) or kept. -/
def close (fd : Fd) (k : Kernel) : Int × Kernel :=
  let released := { k with fds := Function.update k.fds fd none }
  match k.fds fd, k.oracle k.tick with
  | none, _ => (-1, k.tock 1)
  | some _, .ok _ => (0, released.tock 1)
  | some _, .fail 0 => (-1, k.tock 1)
  | some _, .fail (_ + 1) => (-1, released.tock 1)

/-- `close(2)` returns 0 exactly on an open descriptor that the system lets go. -/
theorem close_eq_zero_iff {k : Kernel} {fd : Fd} :
    (k.close fd).1 = 0 ↔ k.fds fd ≠ none ∧ ∃ m, k.oracle k.tick = .ok m := by
  unfold close
  cases hf : k.fds fd with
  | none => simp
  | some f =>
    cases ho : k.oracle k.tick with
    | ok m => simp
    | fail m => cases m <;> simp

/-- A `close(2)` that returns 0 has released the descriptor, and that is all. -/
theorem close_of_eq_zero {k : Kernel} {fd : Fd} (h : (k.close fd).1 = 0) :
    (k.close fd).2 = { k with fds := Function.update k.fds fd none }.tock 1 := by
  obtain ⟨hopen, m, ho⟩ := close_eq_zero_iff.mp h
  obtain ⟨f, hf⟩ := Option.ne_none_iff_exists'.mp hopen
  unfold close
  rw [hf, ho]

/-- Where nothing fails every open descriptor can be closed. -/
theorem close_of_faultless {k : Kernel} (hk : k.Faultless) {fd : Fd} (h : k.fds fd ≠ none) :
    (k.close fd).2 = { k with fds := Function.update k.fds fd none }.tock 1 :=
  close_of_eq_zero (close_eq_zero_iff.mpr ⟨h, hk k.tick (Nat.le_refl _)⟩)

/-- Closing, too, takes one operation of the environment and leaves the others. -/
theorem Faultless.close {k : Kernel} (h : k.Faultless) (fd : Fd) : (k.close fd).2.Faultless := by
  -- whatever the case, the next outcome is that of a later operation
  have hnext : ∀ n, k.tick + 1 ≤ n → ∃ m, k.oracle n = .ok m := fun n hn =>
    h n (Nat.le_trans (Nat.le_add_right _ 1) hn)
  unfold Kernel.close
  cases k.fds fd with
  | none => exact hnext
  | some f =>
    cases k.oracle k.tick with
    | ok m => exact hnext
    | fail m => cases m <;> exact hnext

theorem close_fst (k : Kernel) (fd : Fd) : (k.close fd).1 = 0 ∨ (k.close fd).1 = -1 := by
  unfold close
  cases k.fds fd with
  | none => exact .inr rfl
  | some f =>
    cases k.oracle k.tick with
    | ok m => exact .inl rfl
    | fail m => cases m <;> exact .inr rfl

/-- A caller may compare with -1 or with 0; it learns the same. -/
theorem close_ne_neg_one_iff {k : Kernel} {fd : Fd} :
    -1 ≠ (k.close fd).1 ↔ (k.close fd).1 = 0 := by
  rcases k.close_fst fd with h | h <;> simp [h]

/-- Closing one descriptor leaves the others open. -/
theorem close_fds_ne {k : Kernel} {fd g : Fd} (hg : g ≠ fd) :
    (k.close fd).2.fds g = k.fds g := by
  unfold close
  cases k.fds fd with
  | none => rfl
  | some f =>
    cases k.oracle k.tick with
    | ok m => simp [Function.update_of_ne hg]
    | fail m => cases m <;> simp [Function.update_of_ne hg]

theorem close_files (k : Kernel) (fd : Fd) : (k.close fd).2.files = k.files := by
  unfold close
  cases k.fds fd with
  | none => rfl
  | some f =>
    cases k.oracle k.tick with
    | ok m => rfl
    | fail m => cases m <;> rfl

theorem close_fds_none {k : Kernel} {fd g : Fd} (h : k.fds g = none) :
    (k.close fd).2.fds g = none := by
  by_cases hg : g = fd
  · subst hg
    unfold close
    rw [h]
    exact h
  · rw [close_fds_ne hg, h]

/-! ## Appending only

A push at the end of a file keeps what the file holds. It does so on every descriptor as long
as each of them appends, or is alone on its file and at the end of it (`Orderly`); pushes and
closes leave that as it is, so whatever is done the files only grow. -/

/-- The file a descriptor is open on. -/
def target (k : Kernel) (fd : Option Fd) : Option Ino := (fd.bind k.fds).map OpenFile.ino

/-- The files after `d` has been added to one of them, if to any. -/
def added (files : Ino → Bytes) (i : Option Ino) (d : Bytes) : Ino → Bytes :=
  match i with
  | none => files
  | some i => Function.update files i (files i ++ d)

/-- Every descriptor appends, or is at the end of a file that nobody else has open. -/
def Orderly (k : Kernel) : Prop :=
  ∀ fd f, k.fds fd = some f → f.append = true
    ∨ (f.off = (k.files f.ino).length
        ∧ ∀ fd' f', k.fds fd' = some f' → f'.ino = f.ino → fd' = fd)

@[simp] theorem target_tock (k : Kernel) (n : Nat) (fd : Option Fd) :
    (k.tock n).target fd = k.target fd := rfl

/-- The target is the file of an open descriptor. -/
theorem target_eq_some {k : Kernel} {fd : Option Fd} {i : Ino} :
    k.target fd = some i ↔ ∃ g f, fd = some g ∧ k.fds g = some f ∧ f.ino = i := by
  cases fd <;> simp [target]

theorem target_eq_none {k : Kernel} {fd : Option Fd} :
    k.target fd = none ↔ ¬ k.isOpen fd := by
  rw [target, Option.map_eq_none_iff, isOpen]
  cases fd.bind k.fds <;> simp

@[simp] theorem pushTo_ino (k : Kernel) (fd : Option Fd) (d : Bytes) :
    (k.pushTo fd d).ino = k.ino := by
  obtain ⟨_, _, _, h⟩ := k.pushTo_frame fd d
  rw [h]

/-- A push leaves every descriptor on its file. -/
@[simp] theorem target_pushTo (k : Kernel) (fd : Option Fd) (d : Bytes) (g : Option Fd) :
    (k.pushTo fd d).target g = k.target g := by
  cases fd with
  | none => rfl
  | some fd =>
    cases g with
    | none => rfl
    | some g =>
      -- `push_fds` says it of the file and the mode together
      have h := congrArg (Option.map Prod.fst) (k.push_fds fd d g)
      rw [Option.map_map, Option.map_map] at h
      exact h

/-- A descriptor that is open after a push was open before it, on the same file in the same
mode. -/
theorem fds_of_push {k : Kernel} {fd g : Fd} {d : Bytes} {f : OpenFile}
    (h : (k.push fd d).fds g = some f) :
    ∃ f₀, k.fds g = some f₀ ∧ f₀.ino = f.ino ∧ f₀.append = f.append := by
  have hsame := k.push_fds fd d g
  rw [h, Option.map_some, eq_comm, Option.map_eq_some_iff] at hsame
  obtain ⟨f₀, hg₀, heq⟩ := hsame
  obtain ⟨hino, happ⟩ := Prod.mk.inj heq
  exact ⟨f₀, hg₀, hino, happ⟩

/-- What `close(2)` leaves open was open before. -/
theorem fds_of_close {k : Kernel} {fd g : Fd} {f : OpenFile}
    (h : (k.close fd).2.fds g = some f) : k.fds g = some f := by
  by_cases hg : g = fd
  · subst hg
    unfold close at h
    cases hf : k.fds g with
    | none =>
      rw [hf] at h
      rwa [tock_fds, hf] at h
    | some f₀ =>
      rw [hf] at h
      cases ho : k.oracle k.tick with
      | ok m => simp [ho] at h
      | fail m =>
        cases m with
        | zero => simpa [ho, hf] using h
        | succ m => simp [ho] at h
  · rwa [close_fds_ne hg] at h

theorem added_nil (files : Ino → Bytes) (i : Option Ino) : added files i [] = files := by
  cases i <;> simp [added]

namespace Orderly

variable {k : Kernel} (h : k.Orderly)

include h

/-- Each open descriptor is at the end of its file, in either of the two ways. -/
theorem atEnd {fd : Fd} {f : OpenFile} (hf : k.fds fd = some f) : k.AtEnd fd f.ino :=
  ⟨f, hf, rfl, (h fd f hf).imp_right And.left⟩

theorem tock (n : Nat) : (k.tock n).Orderly := h

/-- In order, a write is an addition to the file of its descriptor; nothing is overwritten. -/
theorem pushTo_files (fd : Option Fd) (d : Bytes) :
    (k.pushTo fd d).files = added k.files (k.target fd) d := by
  cases fd with
  | none => rfl
  | some fd =>
    show (k.push fd d).files = _
    cases hf : k.fds fd with
    | none =>
      rw [push_closed hf]
      simp [target, added, hf]
    | some f =>
      rw [(h.atEnd hf).push_files]
      simp [target, added, hf]

/-- A write keeps the order. The cases: the descriptor written to, one in append mode, and one that
is alone on another file. -/
theorem push (fd : Fd) (d : Bytes) : (k.push fd d).Orderly := by
  cases hf : k.fds fd with
  | none =>
    rw [push_closed hf]
    exact h
  | some f =>
    intro g f' hg'
    -- before the push `g` was open on the same file in the same mode
    obtain ⟨f₀, hg₀, hino, happ⟩ := fds_of_push hg'
    -- nobody has joined a descriptor that was alone
    have halone (hne : f₀.append ≠ true) (g' : Fd) (f'' : OpenFile)
        (hg'' : (k.push fd d).fds g' = some f'') (hi : f''.ino = f'.ino) : g' = g := by
      obtain ⟨f₁, hg₁, hino₁, _⟩ := fds_of_push hg''
      exact ((h g f₀ hg₀).resolve_left hne).2 g' f₁ hg₁ (hino₁.trans (hi.trans hino.symm))
    have hend : (k.push fd d).AtEnd g f'.ino := by
      rw [← hino]
      by_cases hfd : g = fd
      · rw [hfd]
        exact (h.atEnd (hfd ▸ hg₀)).push d
      · by_cases hmode : f₀.append = true
        · exact (Appending.push ⟨f₀, hg₀, rfl, hmode⟩ fd d).atEnd
        · -- `g` is alone on its file, so the file written to is another one
          have hother : f₀.ino ≠ f.ino := fun heq =>
            hfd (((h g f₀ hg₀).resolve_left hmode).2 fd f hf heq.symm).symm
          exact (h.atEnd hg₀).push_ne (h.atEnd hf) hfd hother d
    obtain ⟨f₂, hg₂, _, hcase⟩ := hend
    rw [hg'] at hg₂
    obtain rfl := Option.some.inj hg₂
    by_cases hmode : f₀.append = true
    · exact .inl (happ ▸ hmode)
    · exact hcase.imp_right fun hoff => ⟨hoff, halone hmode⟩

/-- The same for a stream that may have no descriptor. -/
theorem pushTo (fd : Option Fd) (d : Bytes) : (k.pushTo fd d).Orderly := by
  cases fd with
  | none => exact h
  | some fd => exact h.push fd d

/-- Closing keeps the order: there are fewer descriptors, and no file changes. -/
theorem close (fd : Fd) : (k.close fd).2.Orderly := by
  intro g f hg
  rw [close_files]
  exact (h g f (fds_of_close hg)).imp_right fun hoff =>
    ⟨hoff.1, fun g' f' hg' => hoff.2 g' f' (fds_of_close hg')⟩

end Orderly

end Kernel
