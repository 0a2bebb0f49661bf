import Klogger.TlvReader

/-!
# Binary records: length fields are canonical

`write_length` against the definite lengths of BER and DER. The outputs of `write_length` are
exactly the length fields of minimal form (`MinimalLength`): one octet for a length up to 127,
else a count octet and that many big-endian octets without a leading zero. A length field
delimits itself, so reading it back needs nothing of what follows.
-/

namespace Klog.Tlv

/-- A length field of minimal form with at most eight octets behind the count octet. -/
inductive MinimalLength : Bytes → Prop where
  | short (b : UInt8) (h : b ≤ 0x7F) : MinimalLength [b]
  | long (ds : Bytes) (hcount : ds.length ≤ 8) (hhead : ds.head? ≠ some 0)
      (hlong : 0x7F < Octets.ofBE ds) :
      MinimalLength (UInt8.ofNat (0x80 + ds.length) :: ds)

/-- On every stream that takes everything, `write_length` answers `true` and appends `out`. -/
def WritesLength (length : UInt64) (out : Bytes) : Prop :=
  ∀ s : Sink, s.Reliable →
    (writeLength .little Sink.ref length s).1 = true
      ∧ (writeLength .little Sink.ref length s).2.accepted = s.accepted ++ out

/-- What `write_length` appends is the length field of the layout. -/
theorem writesLength_encLength (length : UInt64) :
    WritesLength length (encLength length.toNat) := by
  intro s hs
  rw [writeLength_eq_checked, hs.checked, flatten_lengthChunks]
  exact ⟨rfl, rfl⟩

/-! ## The two forms -/

theorem encLength_short {n : Nat} (h : n ≤ 0x7F) : encLength n = [UInt8.ofNat n] := if_pos h

theorem encLength_long {n : Nat} (h : 0x7F < n) :
    encLength n = UInt8.ofNat (0x80 + (Octets.be n).length) :: Octets.be n :=
  if_neg (Nat.not_le.mpr h)

/-- The octets of a long length: between one and eight of them, no leading zero. -/
theorem octets_long {n : Nat} (h : 0x7F < n) (hfits : n < 2 ^ 64) :
    1 ≤ (Octets.be n).length ∧ (Octets.be n).length ≤ 8 ∧ (Octets.be n).head? ≠ some 0 := by
  obtain ⟨b, bs, hbe, hb⟩ := Octets.be_eq_cons (show n ≠ 0 by omega)
  refine ⟨?_, Octets.length_be_le hfits, ?_⟩
  · simp [hbe]
  · simpa [hbe] using hb

/-- A minimal length field is the one `write_length` writes for the length it states. -/
theorem MinimalLength.exists_encLength {bs : Bytes} (h : MinimalLength bs) :
    ∃ length : UInt64, encLength length.toNat = bs := by
  cases h with
  | short b h =>
    have hle : b.toNat ≤ 0x7F := UInt8.le_iff_toNat_le.mp h
    refine ⟨b.toUInt64, ?_⟩
    rw [UInt8.toNat_toUInt64, encLength_short hle, UInt8.ofNat_toNat]
  | long ds hcount hhead hlong =>
    -- eight octets spell a number that fits a `size_t`
    have hfits : Octets.ofBE ds < 2 ^ 64 := by
      have hpow : 256 ^ ds.length ≤ 256 ^ 8 := Nat.pow_le_pow_right (by decide) hcount
      exact Nat.lt_of_lt_of_le (Octets.ofBE_lt ds) hpow
    refine ⟨UInt64.ofNat (Octets.ofBE ds), ?_⟩
    -- without a leading zero the octets are the digits of their value
    rw [UInt64.toNat_ofNat_of_lt' hfits, encLength_long hlong, Octets.be_ofBE hhead]

/-- **Length fields are canonical and delimit themselves.** A length up to 127 is one octet; a
longer one is a count octet and that many octets, between one and eight, the big-endian digits
of the length without a leading zero. A reader gets the length back and is left with whatever
follows. Conversely every length field of minimal form is written for the length it states. -/
theorem writeLength_canonical :
    (∀ length : UInt64, ∃ out, WritesLength length out
      ∧ (length ≤ 0x7F → out = [length.toUInt8])
      ∧ (0x7F < length → ∃ ds : Bytes, out = UInt8.ofNat (0x80 + ds.length) :: ds
          ∧ 1 ≤ ds.length ∧ ds.length ≤ 8 ∧ ds.head? ≠ some 0
          ∧ Octets.ofBE ds = length.toNat)
      ∧ ∀ rest, decodeLength (out ++ rest) = some (length.toNat, rest))
    ∧ ∀ bs, MinimalLength bs →
        ∃ length : UInt64, decodeLength bs = some (length.toNat, []) ∧ WritesLength length bs := by
  constructor
  · intro length
    refine ⟨encLength length.toNat, writesLength_encLength length, fun hshort => ?_,
      fun hlong => ?_, decodeLength_encLength length.toNat_lt⟩
    · exact encLength_short (UInt64.le_iff_toNat_le.mp hshort)
    · have hlt : 0x7F < length.toNat := UInt64.lt_iff_toNat_lt.mp hlong
      obtain ⟨hpos, hle, hhead⟩ := octets_long hlt length.toNat_lt
      exact ⟨Octets.be length.toNat, encLength_long hlt, hpos, hle, hhead,
        Octets.ofBE_be length.toNat⟩
  · intro bs hbs
    -- a minimal length field is one that was written, so the first part applies to it
    obtain ⟨length, rfl⟩ := hbs.exists_encLength
    have hdecode := decodeLength_encLength length.toNat_lt []
    rw [List.append_nil] at hdecode
    exact ⟨length, hdecode, writesLength_encLength length⟩

/-- A length with a zero octet inside and one at its end. -/
example : (lengthChunks .little 0x10200).flatten = [0x83, 0x01, 0x02, 0x00] := by
  decide +kernel

end Klog.Tlv
