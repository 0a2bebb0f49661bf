import Klogger.TlvReader

/-!
# Binary logs

What the readers of `Klogger.TlvReader` make of a whole log, written entry after entry by
`write_tlv_log` to a stream on which no write fails.

* By the tags every log decodes to its entries (`decodeAll_writeAll`).
* A log that was cut off inside an entry is no log of whole entries (`torn_not_whole`).
* By the outer lengths a log can be walked exactly when none of its strings is longer than
  127 bytes (`walk_iff`); `longActor` is the shortest kind of entry that breaks it.

On a stream whose writes may fail, an entry ends with the first write that does
(`write_reports_failure`).
-/

namespace Klog.Tlv

/-- Entry after entry on one stream; nobody looks at the answers. -/
def writeAll (e : Endian) : List LogEntry → Sink → Sink
  | [], s => s
  | x :: xs, s => writeAll e xs (x.write e s).2

/-- How much the stream holds when each of the entries begins. -/
def entryStarts (e : Endian) : List LogEntry → Sink → List Nat
  | [], _ => []
  | x :: xs, s => s.accepted.length :: entryStarts e xs (x.write e s).2

/-- What the entries add to the stream. -/
def added (e : Endian) (xs : List LogEntry) (s : Sink) : Bytes :=
  (writeAll e xs s).accepted.drop s.accepted.length

/-- The bytes of an entry, as they come out on a stream of its own. -/
def emitted (e : Endian) (x : LogEntry) : Bytes := (x.write e .empty).2.accepted

/-- The total size of the entry is below 2^64. -/
def LogEntry.Fits (x : LogEntry) : Prop := (emitted .little x).length < 2 ^ 64

theorem emitted_eq_flatten (e : Endian) (x : LogEntry) : emitted e x = (x.chunks e).flatten := by
  rw [emitted, LogEntry.write, writeTlvLog_eq_checked, Sink.reliable_empty.checked]
  rfl

/-- On a little-endian machine they are its encoding. -/
theorem emitted_eq (x : LogEntry) : emitted .little x = x.enc := by
  rw [emitted_eq_flatten, x.flatten_chunks]

/-- The log of some entries is the encodings, one behind the other. Induction on the entries. -/
theorem accepted_writeAll {s : Sink} (h : s.Reliable) (xs : List LogEntry) :
    (writeAll .little xs s).accepted = s.accepted ++ xs.flatMap LogEntry.enc := by
  induction xs generalizing s with
  | nil => simp [writeAll]
  | cons x xs ih =>
    rw [writeAll, x.write_reliable h, ih (h.grow _ _), List.flatMap_cons, ← List.append_assoc]
    rfl

theorem added_eq {s : Sink} (h : s.Reliable) (xs : List LogEntry) :
    added .little xs s = xs.flatMap LogEntry.enc := by
  rw [added, accepted_writeAll h, List.drop_left]

theorem entryStarts_eq {s : Sink} (h : s.Reliable) (xs : List LogEntry) :
    entryStarts .little xs s = Code.offsets LogEntry.enc s.accepted.length xs := by
  induction xs generalizing s with
  | nil => rfl
  | cons x xs ih =>
    rw [entryStarts, x.write_reliable h, ih (h.grow _ _), Code.offsets]
    simp [Sink.grow]

/-! ## By the tags -/

/-- **A binary log is decodable by its tags**: what a sequence of entries adds to a stream
decodes to that sequence, and no other sequence leaves the stream the same. -/
theorem decodeAll_writeAll (xs : List LogEntry) (hxs : ∀ x ∈ xs, x.Sized) {s : Sink}
    (hs : s.Reliable) :
    Code.decodeAll decodeEntry (added .little xs s) = some xs
      ∧ ∀ ys : List LogEntry, (∀ y ∈ ys, y.Sized) →
          (writeAll .little ys s).accepted = (writeAll .little xs s).accepted → ys = xs := by
  refine ⟨?_, fun ys hys heq => ?_⟩
  · rw [added_eq hs]
    exact byTags.decodeAll_flatMap hxs
  · -- the streams agree behind what was there before
    rw [accepted_writeAll hs, accepted_writeAll hs] at heq
    exact byTags.flatMap_injOn hys hxs (List.append_cancel_left heq)

/-- An entry with a NUL, with octets that are tags, and with two attributes. -/
def sample : LogEntry where
  timestamp := 1458304571
  level := 2
  actor := [0x08, 0x00, 0x01]
  event := []
  attrs := ⟨[([], [0x08, 0x08]), ([0x6B], [])], by decide⟩

/-- The tags inside a string do not mislead the reader, as it knows how long the string is. -/
theorem decodeAll_writeAll_sample :
    Code.decodeAll decodeEntry (added .little [sample, sample] .empty) = some [sample, sample]
      ∧ ∀ ys : List LogEntry, (∀ y ∈ ys, y.Sized) →
          (writeAll .little ys .empty).accepted
            = (writeAll .little [sample, sample] .empty).accepted → ys = [sample, sample] :=
  decodeAll_writeAll [sample, sample] (by decide) Sink.reliable_empty

/-! ## Torn entries -/

/-- An entry that fits has an outer length that was computed without overflow, as it is no longer
than what it counts. -/
theorem LogEntry.Fits.measured {x : LogEntry} (h : x.Fits) : x.Measured := by
  have hbody : x.body.length < 2 ^ 64 := by
    rw [Fits, emitted_eq, LogEntry.enc, List.length_cons, List.length_append] at h
    omega
  rw [x.length_body] at hbody
  have hle := sum_recordLength_le x.strings
  constructor
  · intro s hs
    -- each string is shorter than the whole
    have hmem := length_le_sum hs
    omega
  · omega

/-- **A torn entry is never taken for a complete one**: no entry is a proper prefix of
another, and whole entries followed by a part of one are no sequence of whole entries. -/
theorem torn_not_whole (xs ys : List LogEntry) (x y : LogEntry)
    (hfits : ∀ z ∈ x :: y :: (xs ++ ys), z.Fits) :
    (emitted .little x <+: emitted .little y → emitted .little x = emitted .little y)
      ∧ ∀ p, p <+: emitted .little x → p ≠ [] → p ≠ emitted .little x →
          (writeAll .little xs .empty).accepted ++ p
            ≠ (writeAll .little ys .empty).accepted := by
  have hok (z : LogEntry) (hz : z ∈ x :: y :: (xs ++ ys)) : z.Measured :=
    (hfits z hz).measured
  rw [accepted_writeAll Sink.reliable_empty, accepted_writeAll Sink.reliable_empty,
    emitted_eq, emitted_eq]
  refine ⟨?_, fun p hp hne hproper => ?_⟩
  · exact byMeasure.enc_eq_of_prefix (hok x (by simp)) (hok y (by simp))
  · exact byMeasure.flatMap_append_ne (fun z hz => hok z (by simp [hz]))
      (fun z hz => hok z (by simp [hz])) (hok x (by simp)) hp hne hproper

instance : DecidablePred LogEntry.Fits := fun x =>
  inferInstanceAs (Decidable ((emitted .little x).length < 2 ^ 64))

theorem torn_not_whole_sample :
    (writeAll .little [sample] .empty).accepted ++ (emitted .little sample).take 30
      ≠ (writeAll .little [sample, sample] .empty).accepted :=
  (torn_not_whole [sample] [sample, sample] sample sample (by decide +kernel)).2
    ((emitted .little sample).take 30) (List.take_prefix 30 _) (by decide +kernel)
    (by decide +kernel)

/-! ## By the outer length -/

/-- Wherever the entry is written, the length in its header is the number of bytes that the
writers behind the header add. -/
def StatesBodyLength (x : LogEntry) : Prop :=
  ∀ s : Sink, s.Reliable →
    (x.write .little s).2.accepted.length
      = (writeHeader .little Sink.ref TLogEntry x.length s).2.accepted.length + x.length.toNat

/-- The header is right about an entry exactly if none of its strings is long. -/
theorem statesBodyLength_iff (x : LogEntry) : StatesBodyLength x ↔ x.Short := by
  -- wherever it is written, the entry brings its body behind the header
  have hrun (s : Sink) (hs : s.Reliable) :
      (x.write .little s).2.accepted.length
        = (writeHeader .little Sink.ref TLogEntry x.length s).2.accepted.length
          + x.body.length := by
    rw [x.write_reliable hs, writeHeader_eq_checked, hs.checked, x.flatten_headerChunks]
    simp only [Sink.grow, LogEntry.enc, List.length_append, List.length_cons]
    omega
  rw [← x.toNat_length_eq_iff]
  refine ⟨fun h => ?_, fun h s hs => ?_⟩
  · -- one stream is enough to see the difference
    have hempty := h .empty Sink.reliable_empty
    rw [hrun .empty Sink.reliable_empty] at hempty
    omega
  · rw [hrun s hs, h]

/-- **Walking a log by the outer lengths.** Every header states the length of its body, and
the walk from header to header visits exactly the starts of the entries and stops at the end
of the log, if and only if no entry has a string longer than 127 bytes (nor a body that does
not fit a `size_t`). -/
theorem walk_iff (xs : List LogEntry) {s : Sink} (hs : s.Reliable) :
    ((∀ x ∈ xs, StatesBodyLength x)
      ∧ Code.starts skipEntry xs.length s.accepted.length (added .little xs s)
          = some (entryStarts .little xs s))
      ↔ ∀ x ∈ xs, x.Short := by
  refine ⟨fun h x hx => ?_, fun hshort => ?_⟩
  · -- the walk is not needed for this direction
    exact (statesBodyLength_iff x).mp (h.1 x hx)
  · refine ⟨fun x hx => (statesBodyLength_iff x).mpr (hshort x hx), ?_⟩
    rw [added_eq hs, entryStarts_eq hs]
    exact byOuterLength.starts_flatMap hshort xs.length _ le_rfl

theorem walk_iff_sample :
    ((∀ x ∈ [sample, sample], StatesBodyLength x)
      ∧ Code.starts skipEntry 2 0 (added .little [sample, sample] .empty)
          = some (entryStarts .little [sample, sample] .empty))
      ↔ ∀ x ∈ [sample, sample], x.Short :=
  walk_iff [sample, sample] Sink.reliable_empty

/-- An entry whose actor takes the first length that needs a count octet. -/
def longActor : LogEntry where
  timestamp := 1458304571
  level := 2
  actor := List.replicate 128 0x61
  event := []
  attrs := .empty

/-- The header of `longActor` states one byte less than its body has, and a reader that
believes it does not find the next entry. -/
theorem longActor_not_walked :
    longActor.length = 145 ∧ longActor.body.length = 146 ∧ ¬ StatesBodyLength longActor
      ∧ Code.starts skipEntry 2 0 (added .little [longActor, sample] .empty) = none := by
  refine ⟨by decide +kernel, by decide +kernel, ?_, by decide +kernel⟩
  intro h
  have hlen := h .empty Sink.reliable_empty
  revert hlen
  decide +kernel

/-! ## Streams that fail -/

theorem LogEntry.write_eq_checked (e : Endian) (x : LogEntry) (s : Sink) :
    x.write e s = Sink.ref.checked (x.chunks e) s :=
  writeTlvLog_eq_checked e Sink.ref _ _ _ _ _ s

theorem LogEntry.chunks_ne_nil (e : Endian) (x : LogEntry) : x.chunks e ≠ [] := by
  simp [LogEntry.chunks, entryChunks, headerChunks]

/-- **`write_tlv_log` is faithful about failure.** It answers `true` exactly when the stream
was good and none of its writes failed, and then the whole entry has been appended. When it
answers `false`, a part of the entry has been appended, and the first write that failed was
the last one. -/
theorem write_reports_failure (e : Endian) (x : LogEntry) (s : Sink) :
    ((x.write e s).1 = true ↔ s.ok = true
        ∧ ∀ n, s.attempts ≤ n → n < (x.write e s).2.attempts → s.fault n = none)
      ∧ ((x.write e s).1 = true → (x.write e s).2.accepted = s.accepted ++ emitted e x)
      ∧ ((x.write e s).1 = false →
          (∃ p, p <+: emitted e x ∧ (x.write e s).2.accepted = s.accepted ++ p)
            ∧ ∃ i, s.FirstFailure i ∧ (x.write e s).2.attempts = i + 1) := by
  rw [emitted_eq_flatten, x.write_eq_checked]
  rcases Sink.checked_cases (x.chunks e) s with ⟨hall, hrun⟩ | ⟨k, p, hfirst, hp, hrun⟩
  · rw [hrun]
    refine ⟨iff_of_true rfl ⟨?_, fun n hle hlt => ?_⟩, fun _ => rfl, (fun h => nomatch h)⟩
    · -- the entry is written in one write at least
      have hpos : 0 < (x.chunks e).length := List.length_pos_iff.mpr (x.chunks_ne_nil e)
      exact (Sink.not_fails_iff.mp (hall s.attempts le_rfl (by omega))).1
    · exact (Sink.not_fails_iff.mp (hall n hle hlt)).2
  · rw [hrun]
    refine ⟨iff_of_false (fun h => nomatch h) ?_, (fun h => nomatch h),
      fun _ => ⟨⟨p, hp, rfl⟩, s.attempts + k, hfirst, rfl⟩⟩
    rintro ⟨hok, hnone⟩
    -- the write that failed was made, and the answer claims that none did
    have hmade : s.attempts + k < (s.broken p (k + 1)).attempts := Nat.lt_succ_self _
    rcases hfirst.fails with hbad | hfault
    · rw [hok] at hbad
      cases hbad
    · exact hfault (hnone _ hfirst.le hmade)

end Klog.Tlv
