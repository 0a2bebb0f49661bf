import Mathlib.Data.Nat.Bitwise
import Klogger.Tlv

/-!
# Binary records: the layout

What the chunks of `Klogger.Tlv` are on a little-endian machine.

* The scan for the highest set bit, the reversal of the buffer and the scan for the first
  octet that is not zero are three loops over two representations of one number. They meet
  in `Octets.be`: the count octet counts exactly the octets that follow it
  (`flatten_lengthChunks`).
* `length_octets` runs the same scan and does not count the count octet
  (`length_encLength`, `toNat_lengthOctets`).
-/

namespace Klog.Tlv

/-! ## The loops -/

/-- Below `2 ^ (i + 1)` bit `i` is the highest one; it is clear exactly below `2 ^ i`. -/
theorem and_two_pow_eq_zero_iff {n i : Nat} (h : n < 2 ^ (i + 1)) :
    n &&& 2 ^ i = 0 ↔ n < 2 ^ i := by
  rw [Nat.and_two_pow, Nat.testBit_eq_decide_div_mod_eq, Nat.mul_eq_zero]
  have hpow : 0 < 2 ^ i := Nat.two_pow_pos i
  have hdiv : n / 2 ^ i < 2 := by
    rw [Nat.div_lt_iff_lt_mul hpow, ← pow_succ']
    exact h
  have hzero : n / 2 ^ i = 0 ↔ n < 2 ^ i := by
    rw [Nat.div_eq_zero_iff]
    omega
  rw [← hzero]
  -- the quotient is the bit
  rcases Nat.lt_succ_iff_lt_or_eq.mp hdiv with h0 | h1
  · have hq : n / 2 ^ i = 0 := Nat.lt_one_iff.mp h0
    simp [hq]
  · simp [h1]

/-- The scan answers the number of octets up to the highest set bit. Induction on the bit it
looks at; the invariant is that no higher bit is set. -/
theorem scanOctets_eq (length : UInt64) {i : Nat} (hi : i < 64)
    (h : length.toNat < 2 ^ (i + 1)) :
    scanOctets length i = UInt8.ofNat (Nat.log2 length.toNat / 8 + 1) := by
  induction i with
  | zero =>
    have hlog : Nat.log2 length.toNat = 0 := by
      rcases (show length.toNat = 0 ∨ length.toNat = 1 by omega) with h0 | h1
      · rw [h0]; rfl
      · rw [h1]; rfl
    rw [hlog]
    rfl
  | succ i ih =>
    have hbits : ((1 : UInt64) <<< UInt64.ofNat (i + 1)).toNat = 2 ^ (i + 1) := by
      have hlt : 2 ^ (i + 1) < 2 ^ 64 := Nat.pow_lt_pow_right (by decide) hi
      -- the shift takes its distance modulo 64
      have hmod : (i + 1) % 2 ^ 64 % 64 = i + 1 := by omega
      simp only [UInt64.toNat_shiftLeft, UInt64.toNat_ofNat', hmod]
      rw [show (1 : UInt64).toNat = 1 from rfl, Nat.one_shiftLeft, Nat.mod_eq_of_lt hlt]
    -- what the loop asks is whether the number is below the bit
    have hmask : 0 = length &&& (1 : UInt64) <<< UInt64.ofNat (i + 1)
        ↔ length.toNat < 2 ^ (i + 1) := by
      rw [eq_comm, ← UInt64.toNat_inj, UInt64.toNat_and, hbits]
      exact and_two_pow_eq_zero_iff h
    rw [scanOctets]
    by_cases hlow : length.toNat < 2 ^ (i + 1)
    · rw [if_pos (hmask.mpr hlow)]
      exact ih (by omega) hlow
    · -- bit `i + 1` is the highest one
      have hlog : Nat.log2 length.toNat = i + 1 := by
        have hne : length.toNat ≠ 0 := by
          have := Nat.two_pow_pos (i + 1)
          omega
        exact (Nat.log2_eq_iff hne).mpr ⟨by omega, h⟩
      rw [if_neg (fun hz => hlow (hmask.mp hz)), hlog, Nat.shiftRight_eq_div_pow]
      congr 1
      omega

theorem swapOctets_eight {buf : Bytes} (h : buf.length = 8) : swapOctets 8 buf = buf.reverse := by
  match buf, h with
  | [a, b, c, d, e, f, g, i], _ => rfl

/-- The mask of the scan keeps every octet as it is. -/
theorem and_mask (b : UInt8) : b &&& 0xFF = b := by
  apply UInt8.toNat_inj.mp
  rw [UInt8.toNat_and, show (0xFF : UInt8).toNat = 2 ^ 8 - 1 from rfl,
    Nat.and_two_pow_sub_one_eq_mod, Nat.mod_eq_of_lt (UInt8.toNat_lt b)]

/-- Behind zeros, the scan stops at the first octet that is none. -/
theorem firstNonzero_replicate {b : UInt8} (hb : b ≠ 0) (k : Nat) (bs : Bytes) :
    firstNonzero (List.replicate k 0 ++ b :: bs) = k := by
  have hfind : (List.replicate k 0 ++ b :: bs).findIdx? (fun b => 0 != b &&& 0xFF) = some k := by
    induction k with
    | zero =>
      have : (0 != b &&& 0xFF) = true := by
        rw [and_mask]
        simpa using Ne.symm hb
      simp [List.findIdx?_cons, this]
    | succ k ih =>
      rw [List.replicate_succ, List.cons_append, List.findIdx?_cons, ih]
      rfl
  rw [firstNonzero, hfind]
  rfl

/-- Reversed and stripped of its leading zeros, the memory of an integer is its minimal
big-endian form. -/
theorem drop_firstNonzero {n : UInt64} (hn : n ≠ 0) :
    (swapOctets 8 (memory .little n)).drop (firstNonzero (swapOctets 8 (memory .little n)))
      = Octets.be n.toNat := by
  have hlt : n.toNat < 256 ^ 8 := n.toNat_lt
  have hne : n.toNat ≠ 0 := fun h0 => hn (UInt64.toNat_inj.mp h0)
  obtain ⟨b, bs, hbe, hb⟩ := Octets.be_eq_cons hne
  have hswap : swapOctets 8 (memory .little n) = (Octets.le 8 n.toNat).reverse :=
    swapOctets_eight (Octets.length_le 8 n.toNat)
  have hoff : firstNonzero (swapOctets 8 (memory .little n)) = 8 - (Octets.be n.toNat).length := by
    rw [hswap, Octets.reverse_le hlt, hbe]
    exact firstNonzero_replicate hb _ bs
  rw [hoff, hswap, Octets.drop_reverse_le hlt]

/-! ## Length fields -/

/-- A length field: the length itself up to 127, else how many octets it takes and these. -/
def encLength (n : Nat) : Bytes :=
  if n ≤ 0x7F then [UInt8.ofNat n]
  else UInt8.ofNat (0x80 + (Octets.be n).length) :: Octets.be n

/-- `write_length` writes a length field: the count octet, found by scanning bits, counts the
octets found by skipping zeros. -/
theorem flatten_lengthChunks (length : UInt64) :
    (lengthChunks .little length).flatten = encLength length.toNat := by
  unfold lengthChunks encLength
  have hle : length ≤ 0x7F ↔ length.toNat ≤ 0x7F := UInt64.le_iff_toNat_le
  by_cases hshort : length ≤ 0x7F
  · rw [if_pos hshort, if_pos (hle.mp hshort)]
    simp [memory, Octets.le]
  · have hlong : ¬ length.toNat ≤ 0x7F := fun h => hshort (hle.mpr h)
    have hne : length ≠ 0 := by
      rintro rfl
      exact hlong (by decide)
    -- two scans of one number: bits on the left, octets on the right
    have hcount : 0x80 + scanOctets length 63
        = UInt8.ofNat (0x80 + (Octets.be length.toNat).length) := by
      have hne' : length.toNat ≠ 0 := by omega
      rw [scanOctets_eq length (by decide) length.toNat_lt, Octets.length_be hne',
        UInt8.ofNat_add 0x80]
      rfl
    rw [if_neg hshort, if_neg hlong, drop_firstNonzero hne, hcount]
    simp

/-- The octets of a length field behind the count octet; its only octet when it is short. -/
def octetCount (n : Nat) : Nat := if n ≤ 0x7F then 1 else (Octets.be n).length

/-- A long length field has one octet more than `octetCount` says. -/
theorem length_encLength (n : Nat) :
    (encLength n).length = octetCount n + if n ≤ 0x7F then 0 else 1 := by
  unfold encLength octetCount
  split <;> rfl

/-- `length_octets` does not count the count octet. -/
theorem toNat_lengthOctets (length : UInt64) :
    (lengthOctets length).toNat = octetCount length.toNat := by
  unfold lengthOctets octetCount
  have hle : length ≤ 0x7F ↔ length.toNat ≤ 0x7F := UInt64.le_iff_toNat_le
  by_cases hshort : length ≤ 0x7F
  · rw [if_pos hshort, if_pos (hle.mp hshort)]
    rfl
  · have hlong : ¬ length.toNat ≤ 0x7F := fun h => hshort (hle.mpr h)
    have hne : length.toNat ≠ 0 := by omega
    have hbe : (Octets.be length.toNat).length ≤ 8 := Octets.length_be_le length.toNat_lt
    rw [Octets.length_be hne] at hbe
    rw [if_neg hshort, if_neg hlong, scanOctets_eq length (by decide) length.toNat_lt,
      Octets.length_be hne, UInt8.toNat_ofNat_of_lt' (show _ < 256 by omega)]

/-! ## Entries -/

/-- What `write_tlv_log` writes an entry for, with the reading of the clock. -/
structure LogEntry where
  timestamp : UInt64
  level : UInt8
  actor : Bytes
  event : Bytes
  attrs : AttrMap
  deriving DecidableEq

/-- The eight octets of a timestamp, most significant first. -/
def encTimestamp (t : UInt64) : Bytes := TTimestamp :: 8 :: (Octets.le 8 t.toNat).reverse

def encLevel (lvl : UInt8) : Bytes := [TLevel, 1, lvl]

/-- The length field is computed from `size()`, and the string follows as it is. -/
def encString (s : Bytes) : Bytes := TString :: (encLength (size s).toNat ++ s)

/-- The number `string_record_length` stands for, before it is cut to `size_t`. -/
def recordLength (s : Bytes) : Nat := 1 + octetCount (size s).toNat + s.length

theorem toNat_size {s : Bytes} (h : s.length < 2 ^ 64) : (size s).toNat = s.length :=
  UInt64.toNat_ofNat_of_lt' h

/-- A string record is one octet longer than it counts if its length needs a count octet. -/
theorem length_encString (s : Bytes) :
    (encString s).length = recordLength s + if (size s).toNat ≤ 0x7F then 0 else 1 := by
  simp only [encString, recordLength, List.length_cons, List.length_append, length_encLength]
  omega

/-- `string_record_length` in the arithmetic of `size_t`. -/
theorem toNat_stringRecordLength (s : Bytes) :
    (stringRecordLength s).toNat = recordLength s % 2 ^ 64 := by
  have hsize : (size s).toNat = s.length % 2 ^ 64 := UInt64.toNat_ofNat'
  simp only [stringRecordLength, recordLength, UInt64.toNat_add, UInt8.toNat_toUInt64,
    toNat_lengthOctets, hsize]
  rw [show (1 : UInt64).toNat = 1 from rfl]
  omega

namespace LogEntry

/-- The strings of an entry in the order they are written. -/
def strings (x : LogEntry) : List Bytes :=
  x.actor :: x.event :: x.attrs.entries.flatMap fun it => [it.1, it.2]

def length (x : LogEntry) : UInt64 := logLength x.actor x.event x.attrs

def body (x : LogEntry) : Bytes :=
  encTimestamp x.timestamp ++ (encLevel x.level ++ x.strings.flatMap encString)

/-- The encoding: the header and the body. -/
def enc (x : LogEntry) : Bytes := TLogEntry :: (encLength x.length.toNat ++ x.body)

def chunks (e : Endian) (x : LogEntry) : List Bytes :=
  entryChunks e x.timestamp.toInt64 x.level x.actor x.event x.attrs

/-- `write_tlv_log` on a stream that keeps what it takes. -/
def write (e : Endian) (x : LogEntry) (s : Sink) : Bool × Sink :=
  writeTlvLog e Sink.ref x.timestamp.toInt64 x.level x.actor x.event x.attrs s

/-- **The outer length** is the sum of the lengths the records are taken to have, in the
arithmetic of `size_t`. Induction on the attributes. -/
theorem toNat_length (x : LogEntry) :
    x.length.toNat = (13 + (x.strings.map recordLength).sum) % 2 ^ 64 := by
  -- the loop adds modulo 2^64 to whatever it starts from
  have hfold : ∀ (l : List (Bytes × Bytes)) (n : UInt64),
      (l.foldl (fun n it => n + stringRecordLength it.1 + stringRecordLength it.2) n).toNat
        = (n.toNat + ((l.flatMap fun it => [it.1, it.2]).map recordLength).sum) % 2 ^ 64 := by
    intro l
    induction l with
    | nil =>
      intro n
      have hlt := n.toNat_lt
      simp only [List.foldl_nil, List.flatMap_nil, List.map_nil, List.sum_nil]
      omega
    | cons it l ih =>
      intro n
      rw [List.foldl_cons, ih]
      simp only [UInt64.toNat_add, toNat_stringRecordLength, List.flatMap_cons,
        List.map_append, List.map_cons, List.map_nil, List.sum_append, List.sum_cons,
        List.sum_nil]
      omega
  simp only [length, logLength, hfold, strings, UInt64.toNat_add, toNat_stringRecordLength,
    List.map_cons, List.sum_cons]
  rw [show (13 : UInt64).toNat = 13 from rfl]
  omega

theorem length_body (x : LogEntry) :
    x.body.length = 13 + (x.strings.map fun s => (encString s).length).sum := by
  simp only [body, encTimestamp, encLevel, List.length_append, List.length_cons,
    List.length_nil, List.length_reverse, Octets.length_le, List.length_flatMap]
  omega

/-! The chunks are the records. -/

theorem flatten_stringChunks (s : Bytes) : (stringChunks .little s).flatten = encString s := by
  simp [stringChunks, flatten_lengthChunks, encString]

theorem flatten_bodyChunks (x : LogEntry) :
    (bodyChunks .little x.timestamp.toInt64 x.level x.actor x.event x.attrs).flatten
      = x.body := by
  -- the clock reading is cast back before its octets are taken
  have hstamp : (timestampChunks .little x.timestamp.toInt64.toUInt64).flatten
      = encTimestamp x.timestamp := by
    have hswap : swapOctets 8 (memory .little x.timestamp)
        = (Octets.le 8 x.timestamp.toNat).reverse :=
      swapOctets_eight (Octets.length_le 8 x.timestamp.toNat)
    simp only [UInt64.toUInt64_toInt64, timestampChunks, List.flatten_cons,
      List.flatten_append, flatten_lengthChunks, hswap, List.flatten_nil, List.append_nil]
    rfl
  have hlevel : (loglevelChunks .little x.level).flatten = encLevel x.level := by
    simp only [loglevelChunks, List.flatten_cons, List.flatten_append, flatten_lengthChunks,
      List.flatten_nil, List.append_nil]
    rfl
  -- the loop over the attributes writes the strings in their order
  have hattrs : ∀ l : List (Bytes × Bytes), (attrsChunks .little l).flatten
      = (l.flatMap fun it => [it.1, it.2]).flatMap encString := by
    intro l
    induction l with
    | nil => rfl
    | cons it l ih =>
      have hcons : attrsChunks .little (it :: l)
          = stringChunks .little it.1 ++ (stringChunks .little it.2 ++ attrsChunks .little l) := by
        simp [attrsChunks]
      rw [hcons, List.flatten_append, List.flatten_append, ih, flatten_stringChunks,
        flatten_stringChunks]
      simp
  rw [bodyChunks, List.flatten_append, List.flatten_append, List.flatten_append,
    List.flatten_append, hstamp, hlevel, hattrs, flatten_stringChunks, flatten_stringChunks,
    body, strings]
  simp

theorem flatten_headerChunks (x : LogEntry) :
    (headerChunks .little TLogEntry x.length).flatten
      = TLogEntry :: encLength x.length.toNat := by
  simp [headerChunks, flatten_lengthChunks]

/-- The chunks of an entry are its encoding, piece by piece. -/
theorem flatten_chunks (x : LogEntry) : (x.chunks .little).flatten = x.enc := by
  rw [chunks, entryChunks, List.flatten_append, flatten_bodyChunks]
  exact congrArg (· ++ x.body) x.flatten_headerChunks

/-- On a stream that takes everything, `write_tlv_log` answers `true` and has appended the
encoding of the entry. -/
theorem write_reliable (x : LogEntry) {s : Sink} (h : s.Reliable) :
    x.write .little s = (true, s.grow x.enc (x.chunks .little).length) := by
  rw [write, writeTlvLog_eq_checked, h.checked, ← flatten_chunks]
  rfl

end LogEntry

end Klog.Tlv
