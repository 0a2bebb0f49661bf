import Klogger.TlvStream

/-!
# Binary records and the byte order of the host

The writers of `Klogger.Tlv` reverse the memory of an integer whatever the byte order of the
machine is, and take the low-order octet of a short length to be the first one in memory. On a
big-endian machine the octets of an integer come out in the other order, and a short length
comes out as its high-order octet, which is zero.

* `write_length` agrees with the little-endian machine on the lengths whose eight octets read
  the same in both directions (`emittedLength_eq_iff`).
* `write_timestamp` and `write_tlv_log` never do: the length of every timestamp is 8 on the one
  machine and 0 on the other (`emittedTimestamp_ne`, `emitted_ne`).
-/

namespace Klog.Tlv

/-- What `write_length` writes. -/
def emittedLength (e : Endian) (length : UInt64) : Bytes :=
  (writeLength e Sink.ref length .empty).2.accepted

/-- What `write_timestamp` writes. -/
def emittedTimestamp (e : Endian) (t : UInt64) : Bytes :=
  (writeTimestamp e Sink.ref t .empty).2.accepted

theorem emittedLength_eq_flatten (e : Endian) (length : UInt64) :
    emittedLength e length = (lengthChunks e length).flatten := by
  rw [emittedLength, writeLength_eq_checked, Sink.reliable_empty.checked]
  rfl

theorem emittedTimestamp_eq_flatten (e : Endian) (t : UInt64) :
    emittedTimestamp e t = (timestampChunks e t).flatten := by
  rw [emittedTimestamp, writeTimestamp_eq_checked, Sink.reliable_empty.checked]
  rfl

/-- The eight octets of the number read the same in both directions. -/
def Palindromic (n : UInt64) : Prop := (Octets.le 8 n.toNat).reverse = Octets.le 8 n.toNat

instance : DecidablePred Palindromic := fun n =>
  inferInstanceAs (Decidable ((Octets.le 8 n.toNat).reverse = Octets.le 8 n.toNat))

/-! ## Skipping zeros -/

/-- The buffer from its first octet on that is not zero. -/
def stripped (buf : Bytes) : Bytes := buf.drop (firstNonzero buf)

/-- What the scan skips is zero. -/
theorem getElem?_of_lt_firstNonzero {buf : Bytes} {k : Nat} (h : k < firstNonzero buf) :
    buf[k]? = some 0 := by
  unfold firstNonzero at h
  cases hfind : buf.findIdx? fun b => 0 != b &&& 0xFF with
  | none => simp [hfind] at h
  | some i =>
    -- the scan went past it
    obtain ⟨hi, -, hbefore⟩ := List.findIdx?_eq_some_iff_getElem.mp hfind
    have hki : k < i := by simpa [hfind] using h
    have hzero := hbefore k hki
    simp only [and_mask, bne_iff_ne, ne_eq, not_not] at hzero
    rw [List.getElem?_eq_getElem (by omega), ← hzero]

theorem firstNonzero_le_length (buf : Bytes) : firstNonzero buf ≤ buf.length := by
  by_contra hgt
  have hzero := getElem?_of_lt_firstNonzero (Nat.lt_of_not_le hgt)
  simp at hzero

theorem length_stripped (buf : Bytes) :
    (stripped buf).length + firstNonzero buf = buf.length := by
  have hle := firstNonzero_le_length buf
  rw [stripped, List.length_drop]
  omega

/-- What is skipped is zeros, so the buffer is zeros and what is left. -/
theorem replicate_append_stripped (buf : Bytes) :
    List.replicate (firstNonzero buf) 0 ++ stripped buf = buf := by
  have hle := firstNonzero_le_length buf
  have htake : buf.take (firstNonzero buf) = List.replicate (firstNonzero buf) 0 := by
    apply List.ext_getElem?
    intro k
    by_cases hk : k < firstNonzero buf
    · rw [List.getElem?_take_of_lt hk, getElem?_of_lt_firstNonzero hk,
        List.getElem?_replicate_of_lt hk]
    · rw [List.getElem?_eq_none (by rw [List.length_take]; omega),
        List.getElem?_eq_none (by rw [List.length_replicate]; omega)]
  rw [← htake]
  exact List.take_append_drop (firstNonzero buf) buf

/-- Skipping zeros in both directions leaves the same only if there are as many at either end,
and then the buffer reads the same in both directions. -/
theorem stripped_reverse_eq_iff (buf : Bytes) :
    stripped buf.reverse = stripped buf ↔ buf.reverse = buf := by
  refine ⟨fun h => ?_, fun h => congrArg stripped h⟩
  have hoff : firstNonzero buf.reverse = firstNonzero buf := by
    have hlen := congrArg List.length h
    have hrev := length_stripped buf.reverse
    have hbuf := length_stripped buf
    rw [List.length_reverse] at hrev
    omega
  rw [← replicate_append_stripped buf.reverse, hoff, h, replicate_append_stripped]

/-- An octet that is not zero cannot stand behind the shorter of the two stripped buffers: at
its place the longer one has one of the zeros that the shorter one lacks. -/
theorem not_lt_of_append_eq {buf u v : Bytes} {x y : UInt8} (hx : x ≠ 0)
    (h : stripped buf ++ x :: u = stripped buf.reverse ++ y :: v) :
    ¬ firstNonzero buf.reverse < firstNonzero buf := by
  intro hlt
  have hbuf := length_stripped buf
  have hrev := length_stripped buf.reverse
  rw [List.length_reverse] at hrev
  -- the octet behind the shorter one
  have hleft : (stripped buf ++ x :: u)[(stripped buf).length]? = some x := by
    simp
  have hright : (stripped buf.reverse ++ y :: v)[(stripped buf).length]? = some 0 := by
    rw [List.getElem?_append_left (by omega), stripped, List.getElem?_drop,
      List.getElem?_reverse (by omega)]
    exact getElem?_of_lt_firstNonzero (by omega)
  rw [h, hright] at hleft
  exact hx (Option.some.inj hleft).symm

/-- With octets that are not zero behind them, the two stripped buffers begin alike only if they
are of one length. -/
theorem length_eq_of_append_eq {buf u v : Bytes} {x y : UInt8} (hx : x ≠ 0) (hy : y ≠ 0)
    (h : stripped buf ++ x :: u = stripped buf.reverse ++ y :: v) :
    (stripped buf).length = (stripped buf.reverse).length := by
  have hle := not_lt_of_append_eq hx h
  have hsymm : stripped buf.reverse ++ y :: v = stripped buf.reverse.reverse ++ x :: u := by
    rw [List.reverse_reverse, h]
  have hge := not_lt_of_append_eq hy hsymm
  rw [List.reverse_reverse] at hge
  have hbuf := length_stripped buf
  have hrev := length_stripped buf.reverse
  rw [List.length_reverse] at hrev
  omega

/-! ## Length fields -/

/-- The writers reverse the memory, in whichever order it is. -/
theorem swapOctets_memory (e : Endian) (n : UInt64) :
    swapOctets 8 (memory e n) = (memory e n).reverse := by
  apply swapOctets_eight
  cases e <;> simp [memory]

/-- The two machines have the octets in opposite order. -/
theorem memory_big (n : UInt64) : memory .big n = (memory .little n).reverse := rfl

/-- So the memory of a palindromic number is the same on both. -/
theorem palindromic_iff {n : UInt64} :
    Palindromic n ↔ (memory .little n).reverse = memory .little n := Iff.rfl

/-- The memory of a short length: its low-order octet and seven zeros. -/
theorem memory_short {n : UInt64} (h : n ≤ 0x7F) :
    memory .little n = [UInt8.ofNat n.toNat, 0, 0, 0, 0, 0, 0, 0] := by
  have hle : n.toNat ≤ 0x7F := UInt64.le_iff_toNat_le.mp h
  have hdiv : n.toNat / 256 = 0 := by omega
  rw [memory, Octets.le, hdiv]
  rfl

theorem flatten_lengthChunks_short (e : Endian) {n : UInt64} (h : n ≤ 0x7F) :
    (lengthChunks e n).flatten = (memory e n).take 1 := by
  rw [lengthChunks, if_pos h]
  simp

/-- A long one is the count octet, which does not depend on the machine, and the reversed memory
without its leading zeros. -/
theorem flatten_lengthChunks_long (e : Endian) {n : UInt64} (h : ¬ n ≤ 0x7F) :
    (lengthChunks e n).flatten = (0x80 + scanOctets n 63) :: stripped (memory e n).reverse := by
  rw [lengthChunks, if_neg h, swapOctets_memory]
  simp [stripped]

/-- `write_length` writes the same on both machines exactly for the palindromic lengths. -/
theorem emittedLength_eq_iff (n : UInt64) :
    emittedLength .big n = emittedLength .little n ↔ Palindromic n := by
  rw [emittedLength_eq_flatten, emittedLength_eq_flatten]
  by_cases hshort : n ≤ 0x7F
  · -- zero is the only palindrome below 128
    rw [flatten_lengthChunks_short _ hshort, flatten_lengthChunks_short _ hshort, palindromic_iff,
      memory_big, memory_short hshort]
    simp [eq_comm]
  · rw [flatten_lengthChunks_long _ hshort, flatten_lengthChunks_long _ hshort, palindromic_iff,
      memory_big, List.reverse_reverse, List.cons_inj_right, eq_comm, stripped_reverse_eq_iff]

/-! ## Timestamps and entries -/

theorem flatten_timestampChunks (e : Endian) (t : UInt64) :
    (timestampChunks e t).flatten
      = TTimestamp :: ((lengthChunks e 8).flatten ++ (memory e t).reverse) := by
  rw [timestampChunks, swapOctets_memory]
  simp

/-- An entry begins with its tag, its length, and the record of its timestamp. -/
theorem exists_emitted_eq (e : Endian) (x : LogEntry) :
    ∃ rest, emitted e x
      = TLogEntry :: ((lengthChunks e x.length).flatten
          ++ TTimestamp :: ((lengthChunks e 8).flatten ++ rest)) := by
  rw [emitted_eq_flatten, LogEntry.chunks, entryChunks, bodyChunks, headerChunks]
  simp only [List.flatten_append, List.flatten_cons, flatten_timestampChunks, List.append_assoc,
    List.cons_append, List.nil_append]
  exact ⟨_, rfl⟩

theorem eight_big : (lengthChunks .big 8).flatten = [0] := by decide

theorem eight_little : (lengthChunks .little 8).flatten = [8] := by decide

/-- The two machines cannot make up in front of the timestamp for what they write in it. -/
theorem lengthField_append_ne (n : UInt64) (u v : Bytes) :
    (lengthChunks .big n).flatten ++ TTimestamp :: 0 :: u
      ≠ (lengthChunks .little n).flatten ++ TTimestamp :: 8 :: v := by
  intro h
  -- the fields are of one size: both of one octet, or with the tag behind them
  have hlen : (lengthChunks .big n).flatten.length = (lengthChunks .little n).flatten.length := by
    by_cases hshort : n ≤ 0x7F
    · rw [flatten_lengthChunks_short _ hshort, flatten_lengthChunks_short _ hshort]
      simp [memory]
    · have hstamp : TTimestamp ≠ 0 := by decide
      rw [flatten_lengthChunks_long _ hshort, flatten_lengthChunks_long _ hshort, memory_big,
        List.reverse_reverse] at h ⊢
      rw [List.length_cons, List.length_cons,
        length_eq_of_append_eq hstamp hstamp (List.tail_eq_of_cons_eq h)]
  -- behind length fields of one size the lengths of the timestamps meet
  have htail := (List.append_inj h hlen).2
  simp at htail

theorem emittedTimestamp_ne (t : UInt64) :
    emittedTimestamp .big t ≠ emittedTimestamp .little t := by
  rw [emittedTimestamp_eq_flatten, emittedTimestamp_eq_flatten, flatten_timestampChunks,
    flatten_timestampChunks, eight_big, eight_little]
  simp

/-- No entry is written alike on the two machines, since each has a timestamp. -/
theorem emitted_ne (x : LogEntry) : emitted .big x ≠ emitted .little x := by
  obtain ⟨u, hbig⟩ := exists_emitted_eq .big x
  obtain ⟨v, hlittle⟩ := exists_emitted_eq .little x
  rw [hbig, hlittle, eight_big, eight_little]
  intro h
  exact lengthField_append_ne x.length u v (List.tail_eq_of_cons_eq h)

/-- **The binary format depends on the byte order of the host.** No entry and no timestamp is
written alike on a big-endian and on a little-endian machine; a length is exactly when its
eight octets read the same in both directions. -/
theorem byte_order_matters (x : LogEntry) (t n : UInt64) :
    emitted .big x ≠ emitted .little x
      ∧ emittedTimestamp .big t ≠ emittedTimestamp .little t
      ∧ (emittedLength .big n = emittedLength .little n ↔ Palindromic n) :=
  ⟨emitted_ne x, emittedTimestamp_ne t, emittedLength_eq_iff n⟩

/-- The timestamp of `sample`, the lengths 1 and 256, and `sample`, on either machine. -/
theorem byte_order_differs :
    emittedTimestamp .little sample.timestamp = [0x02, 0x08, 0, 0, 0, 0, 0x56, 0xEB, 0xF6, 0x3B]
      ∧ emittedTimestamp .big sample.timestamp = [0x02, 0x00, 0x3B, 0xF6, 0xEB, 0x56, 0, 0, 0, 0]
      ∧ emittedLength .little 1 = [0x01] ∧ emittedLength .big 1 = [0x00]
      ∧ emittedLength .little 256 = [0x82, 0x01, 0x00]
      ∧ emittedLength .big 256 = [0x82, 0x01, 0, 0, 0, 0, 0, 0]
      ∧ emitted .big sample ≠ emitted .little sample := by
  decide +kernel

end Klog.Tlv
