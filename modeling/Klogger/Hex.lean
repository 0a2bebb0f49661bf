import Mathlib.Data.List.GetD
import Klogger.Lib.Numerals
import Klogger.Tlv

/-!
# Hexadecimal

The two overloads of `hex_encode` in `tlv.cc`. A byte is read as an `unsigned char` and makes two
digits, high half first. The text is as good as the bytes: it decodes to them, no other text does,
and texts compare as the bytes do (`hexEncode_faithful`).
-/

namespace Klog.Tlv

def hexlut : Bytes := ascii "0123456789ABCDEF"

/-- One round of the loop: `push_back` of both digits of `s[i]`. -/
def hexPush (s : Bytes) (out : Bytes) (i : Nat) : Bytes :=
  let c := s.getD i 0
  let out := out ++ [hexlut.getD (c >>> 4).toNat 0]
  out ++ [hexlut.getD (c &&& 0xF).toNat 0]

/-- `hex_encode` of a string. -/
def hexEncode (s : Bytes) : Bytes :=
  let length := s.length
  (List.range length).foldl (hexPush s) []

/-- `hex_encode` of `length` bytes from a pointer on; `s` is the memory behind it. -/
def hexEncodeBuf (s : Bytes) (length : Nat) : Bytes :=
  (List.range length).foldl (hexPush s) []

/-! ## The digits -/

/-- The digits of a byte. -/
def hexByte (c : UInt8) : Bytes :=
  [hexlut.getD (c >>> 4).toNat 0, hexlut.getD (c &&& 0xF).toNat 0]

/-- Hexadecimal digits as bytes. Letters come behind digits in ASCII, so they are in order. -/
def hexNumerals : Numerals UInt8 where
  base := 16
  digit d := hexlut.getD d 0
  base_pos := by decide
  digit_lt := by decide
  digit_inj := by decide

theorem toNat_high (c : UInt8) : (c >>> 4).toNat = c.toNat / 16 := by
  simp [Nat.shiftRight_eq_div_pow]

theorem toNat_low (c : UInt8) : (c &&& 0xF).toNat = c.toNat % 16 := by
  have hmask : c.toNat &&& 15 = c.toNat % 2 ^ 4 := Nat.and_two_pow_sub_one_eq_mod c.toNat 4
  simpa using hmask

/-- A byte is a number of two digits to the base 16. -/
theorem hexByte_eq_field (c : UInt8) : hexByte c = hexNumerals.field 2 c.toNat := by
  have hlt := c.toNat_lt
  have hfield : hexNumerals.field 2 c.toNat
      = [hexlut.getD (c.toNat / 16 % 16) 0, hexlut.getD (c.toNat % 16) 0] := rfl
  rw [hexByte, toNat_high, toNat_low, hfield,
    Nat.mod_eq_of_lt (show c.toNat / 16 < 16 by omega)]

theorem hexByte_compare (c d : UInt8) :
    (hexByte c = hexByte d ↔ c = d) ∧ (hexByte c < hexByte d ↔ c < d) := by
  obtain ⟨heq, hlt⟩ := hexNumerals.field_compare (w := 2) c.toNat_lt d.toNat_lt
  rw [hexByte_eq_field, hexByte_eq_field, heq, hlt, UInt8.toNat_inj, UInt8.lt_iff_toNat_lt]
  exact ⟨Iff.rfl, Iff.rfl⟩

/-! ## The loop -/

/-- The loop over the first `n` bytes. Induction on their number. -/
theorem foldl_hexPush {s : Bytes} {n : Nat} (h : n ≤ s.length) :
    (List.range n).foldl (hexPush s) [] = (s.take n).flatMap hexByte := by
  induction n with
  | zero => rfl
  | succ n ih =>
    have hget : s.getD n 0 = s[n] := List.getD_eq_getElem s 0 h
    rw [List.range_succ, List.foldl_append, ih (by omega), List.foldl_cons, List.foldl_nil,
      List.take_succ_eq_append_getElem h, List.flatMap_append, List.flatMap_singleton, hexPush,
      hget, List.append_assoc]
    rfl

theorem hexEncode_eq (s : Bytes) : hexEncode s = s.flatMap hexByte := by
  rw [hexEncode, foldl_hexPush (Nat.le_refl _), List.take_length]

/-- The overloads agree where the memory is that of a string. -/
theorem hexEncodeBuf_eq {s : Bytes} {length : Nat} (h : length ≤ s.length) :
    hexEncodeBuf s length = hexEncode (s.take length) := by
  rw [hexEncodeBuf, foldl_hexPush h, hexEncode_eq]

/-! ## Reading back -/

/-- The value of a digit: its place in the table. -/
def hexValue (digit : UInt8) : Option UInt8 :=
  (hexlut.findIdx? (· == digit)).map UInt8.ofNat

/-- Two upper-case digits for each byte, and nothing else. -/
def hexDecode : Bytes → Option Bytes
  | [] => some []
  | [_] => none
  | high :: low :: rest => do
    let h ← hexValue high
    let l ← hexValue low
    let s ← hexDecode rest
    some ((h <<< 4 ||| l) :: s)

theorem hexValue_hexlut {d : Nat} (h : d < 16) :
    hexValue (hexlut.getD d 0) = some (UInt8.ofNat d) := by
  have hall : ∀ d < 16, hexValue (hexlut.getD d 0) = some (UInt8.ofNat d) := by decide
  exact hall d h

/-- Only the digits of the table have a value. -/
theorem eq_of_hexValue {digit v : UInt8} (h : hexValue digit = some v) :
    ∃ d < 16, v = UInt8.ofNat d ∧ digit = hexlut.getD d 0 := by
  obtain ⟨d, hfind, rfl⟩ := Option.map_eq_some_iff.mp h
  obtain ⟨hd, hp, _⟩ := List.findIdx?_eq_some_iff_getElem.mp hfind
  refine ⟨d, hd, rfl, ?_⟩
  rw [List.getD_eq_getElem hexlut 0 hd]
  exact (beq_iff_eq.mp hp).symm

/-- Two digits make the byte with these digits; all 256 cases are computed. -/
theorem hexByte_join {h l : Nat} (hh : h < 16) (hl : l < 16) :
    hexByte (UInt8.ofNat h <<< 4 ||| UInt8.ofNat l)
      = [hexlut.getD h 0, hexlut.getD l 0] := by
  have hall : ∀ h < 16, ∀ l < 16, hexByte (UInt8.ofNat h <<< 4 ||| UInt8.ofNat l)
      = [hexlut.getD h 0, hexlut.getD l 0] := by decide +kernel
  exact hall h hh l hl

/-- The two halves make the byte again: it has the same digits. -/
theorem join_halves (c : UInt8) :
    UInt8.ofNat (c.toNat / 16) <<< 4 ||| UInt8.ofNat (c.toNat % 16) = c := by
  have hlt := c.toNat_lt
  rw [← (hexByte_compare _ c).1, hexByte_join (by omega) (by omega), hexByte, toNat_high,
    toNat_low]

/-- What was encoded decodes. Induction on the bytes. -/
theorem hexDecode_flatMap (s : Bytes) : hexDecode (s.flatMap hexByte) = some s := by
  induction s with
  | nil => rfl
  | cons c s ih =>
    have hlt := c.toNat_lt
    rw [List.flatMap_cons, hexByte, toNat_high, toNat_low, List.cons_append, List.cons_append,
      List.nil_append, hexDecode, hexValue_hexlut (by omega), hexValue_hexlut (by omega), ih]
    exact congrArg (fun b => some (b :: s)) (join_halves c)

/-- What decodes is what the digits of the bytes are. Induction on the text, two digits at a
time. -/
theorem eq_flatMap_of_hexDecode {text s : Bytes} (h : hexDecode text = some s) :
    text = s.flatMap hexByte := by
  fun_induction hexDecode text generalizing s with
  | case1 =>
    obtain rfl := Option.some.inj h
    rfl
  | case2 => cases h
  | case3 high low rest ih =>
    obtain ⟨h', hhigh, h⟩ := Option.bind_eq_some_iff.mp h
    obtain ⟨l, hlow, h⟩ := Option.bind_eq_some_iff.mp h
    obtain ⟨s', hrest, h⟩ := Option.bind_eq_some_iff.mp h
    obtain rfl := Option.some.inj h
    obtain ⟨d, hd, rfl, rfl⟩ := eq_of_hexValue hhigh
    obtain ⟨d', hd', rfl, rfl⟩ := eq_of_hexValue hlow
    rw [List.flatMap_cons, hexByte_join hd hd', ← ih hrest]
    rfl

/-- **Hexadecimal text stands for its bytes.** What `hex_encode` makes of a string decodes to the
string, nothing else does, and texts compare as the strings do; the overload for a buffer makes
the same of the bytes it is given. -/
theorem hexEncode_faithful (s : Bytes) :
    (∀ text, hexDecode text = some s ↔ text = hexEncode s)
      ∧ (∀ t, hexEncode s < hexEncode t ↔ s < t)
      ∧ ∀ length ≤ s.length, hexDecode (hexEncodeBuf s length) = some (s.take length) := by
  refine ⟨fun text => ⟨fun h => ?_, fun h => ?_⟩, fun t => ?_, fun length h => ?_⟩
  · rw [hexEncode_eq]
    exact eq_flatMap_of_hexDecode h
  · rw [h, hexEncode_eq]
    exact hexDecode_flatMap s
  · rw [hexEncode_eq, hexEncode_eq]
    -- words of two digits, in the order of the bytes
    exact Numerals.flatMap_lt_iff (w := 1) (fun c => rfl) (fun c d => (hexByte_compare c d).2)
      fun c d => (hexByte_compare c d).1
  · rw [hexEncodeBuf_eq h, hexEncode_eq]
    exact hexDecode_flatMap _

example : hexEncode (ascii "hello") = ascii "68656C6C6F" := by decide

end Klog.Tlv
