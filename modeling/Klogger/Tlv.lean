import Klogger.Text

/-!
# Binary records: the writers

`tlv.cc`. Every writer makes a number of writes on the stream and looks at the stream after
each of them; it gives up and answers `false` after the first one that failed. The definitions
follow the source line by line, including how it reads an integer through its memory; the
theorems at the end bring each of them to one form: the writer *is* the checked script of its
chunks (`writeTlvLog_eq_checked`). What the chunks are is left to `Klogger.TlvLayout`.
-/

namespace Klog.Tlv

/-- The eight bytes of an integer in memory. -/
def memory (e : Endian) (n : UInt64) : Bytes :=
  match e with
  | .little => Octets.le 8 n.toNat
  | .big => (Octets.le 8 n.toNat).reverse

def TLogEntry : UInt8 := 0x01
def TTimestamp : UInt8 := 0x02
def TLevel : UInt8 := 0x04
def TString : UInt8 := 0x08

/-- `size()`, a `size_t` of 64 bits. -/
def size (s : Bytes) : UInt64 := UInt64.ofNat s.length

/-! ## Loops -/

/-- The scan for the highest set bit, from bit `i` down to bit 1; the number of octets up to
it. The loop leaves its initial value 1 standing when it finds none. -/
def scanOctets (length : UInt64) : Nat → UInt8
  | 0 => 1
  | i + 1 =>
    let bits : UInt64 := 1 <<< UInt64.ofNat (i + 1)
    -- bit `i + 1` is not set, so look further down
    if 0 = length &&& bits then scanOctets length i
    else UInt8.ofNat ((i + 1 + 8) >>> 3)

/-- The loop that swaps `buf[i]` with `buf[sz-i-1]` for `i < sz / 2`. -/
def swapOctets (sz : Nat) (buf : Bytes) : Bytes :=
  (List.range (sz / 2)).foldl
    (fun buf i =>
      let tmp := buf.getD i 0
      (buf.set i (buf.getD (sz - i - 1) 0)).set (sz - i - 1) tmp)
    buf

/-- The scan for the first octet that is not zero; 0 when there is none. -/
def firstNonzero (buf : Bytes) : Nat := (buf.findIdx? fun b => 0 != b &&& 0xFF).getD 0

/-- `length_octets`: how many octets the length takes, without the count octet in front of them. -/
def lengthOctets (length : UInt64) : UInt8 :=
  if length ≤ 0x7F then 1 else scanOctets length 63

/-- `string_record_length`: tag, `length_octets` and the string; one short for long strings. -/
def stringRecordLength (s : Bytes) : UInt64 :=
  let slen := size s
  1 + (lengthOctets slen).toUInt64 + slen

/-- The 13 are the timestamp record (10 bytes) and the level record (3 bytes). -/
def logLength (actor event : Bytes) (attrs : AttrMap) : UInt64 :=
  let length := 13
  let length := length + stringRecordLength actor
  let length := length + stringRecordLength event
  attrs.entries.foldl
    (fun length it => length + stringRecordLength it.1 + stringRecordLength it.2) length

/-! ## Writers -/

variable {σ : Type} (e : Endian) (outs : OStream σ)

def writeTag (t : UInt8) (s : σ) : σ := outs.write [t] s

/-- `write_length`. A short length is the first byte in memory; a long one is swapped, and stripped
of its leading zeros. -/
def writeLength (length : UInt64) (s : σ) : Bool × σ :=
  if length ≤ 0x7F then
    let s := outs.write ((memory e length).take 1) s
    (outs.good s, s)
  else
    let loct := 0x80 + scanOctets length 63
    let s := outs.write [loct] s
    if !outs.good s then (false, s)
    else
      let buf := swapOctets 8 (memory e length)
      let off := firstNonzero buf
      let s := outs.write (buf.drop off) s
      if !outs.good s then (false, s) else (outs.good s, s)

/-- `write_timestamp`: the eight octets, swapped. -/
def writeTimestamp (t : UInt64) (s : σ) : Bool × σ :=
  let s := writeTag outs TTimestamp s
  if !outs.good s then (false, s)
  else
    match writeLength e outs 8 s with
    | (false, s) => (false, s)
    | (true, s) =>
      let s := outs.write (swapOctets 8 (memory e t)) s
      (outs.good s, s)

/-- `write_loglevel`: one octet. -/
def writeLoglevel (lvl : UInt8) (s : σ) : Bool × σ :=
  let s := writeTag outs TLevel s
  if !outs.good s then (false, s)
  else
    match writeLength e outs 1 s with
    | (false, s) => (false, s)
    | (true, s) =>
      let s := outs.write [lvl] s
      (outs.good s, s)

/-- `write_string`: the string as it is, with all bytes it has. -/
def writeString (str : Bytes) (s : σ) : Bool × σ :=
  let length := size str
  let s := writeTag outs TString s
  if !outs.good s then (false, s)
  else
    match writeLength e outs length s with
    | (false, s) => (false, s)
    | (true, s) =>
      let s := outs.write str s
      (outs.good s, s)

/-- `write_header`: the tag and the outer length. -/
def writeHeader (tag : UInt8) (length : UInt64) (s : σ) : Bool × σ :=
  let s := writeTag outs tag s
  if !outs.good s then (false, s) else writeLength e outs length s

/-- The loop over the attributes, which gives up at the first string that fails. -/
def writeAttrs : List (Bytes × Bytes) → σ → Bool × σ
  | [], s => (true, s)
  | it :: rest, s =>
    match writeString e outs it.1 s with
    | (false, s) => (false, s)
    | (true, s) =>
      match writeString e outs it.2 s with
      | (false, s) => (false, s)
      | (true, s) => writeAttrs rest s

/-- `tlv::write_tlv_log`; `now` is the clock reading. -/
def writeTlvLog (now : Time) (lvl : UInt8) (actor event : Bytes) (attrs : AttrMap) (s : σ) :
    Bool × σ :=
  let t := now
  let l := logLength actor event attrs
  match writeHeader e outs TLogEntry l s with
  | (false, s) => (false, s)
  | (true, s) =>
    match writeTimestamp e outs t.toUInt64 s with
    | (false, s) => (false, s)
    | (true, s) =>
      match writeLoglevel e outs lvl s with
      | (false, s) => (false, s)
      | (true, s) =>
        match writeString e outs actor s with
        | (false, s) => (false, s)
        | (true, s) =>
          match writeString e outs event s with
          | (false, s) => (false, s)
          | (true, s) =>
            match writeAttrs e outs attrs.entries s with
            | (false, s) => (false, s)
            | (true, s) => (outs.good s, s)

/-! ## The chunks the writers write -/

/-- The chunks of a length field: one, or the count octet and the octets. -/
def lengthChunks (length : UInt64) : List Bytes :=
  if length ≤ 0x7F then [(memory e length).take 1]
  else
    [[0x80 + scanOctets length 63],
      (swapOctets 8 (memory e length)).drop (firstNonzero (swapOctets 8 (memory e length)))]

def timestampChunks (t : UInt64) : List Bytes :=
  [TTimestamp] :: (lengthChunks e 8 ++ [swapOctets 8 (memory e t)])

def loglevelChunks (lvl : UInt8) : List Bytes := [TLevel] :: (lengthChunks e 1 ++ [[lvl]])

/-- All records look alike: a tag, a length field, a value. -/
def stringChunks (str : Bytes) : List Bytes := [TString] :: (lengthChunks e (size str) ++ [str])

def headerChunks (tag : UInt8) (length : UInt64) : List Bytes := [tag] :: lengthChunks e length

/-- Key and value of each attribute, in the order of the map. -/
def attrsChunks (entries : List (Bytes × Bytes)) : List Bytes :=
  entries.flatMap fun it => stringChunks e it.1 ++ stringChunks e it.2

/-- Everything behind the header. -/
def bodyChunks (now : Time) (lvl : UInt8) (actor event : Bytes) (attrs : AttrMap) :
    List Bytes :=
  timestampChunks e now.toUInt64 ++ (loglevelChunks e lvl ++ (stringChunks e actor
    ++ (stringChunks e event ++ attrsChunks e attrs.entries)))

/-- All of an entry. -/
def entryChunks (now : Time) (lvl : UInt8) (actor event : Bytes) (attrs : AttrMap) :
    List Bytes :=
  headerChunks e TLogEntry (logLength actor event attrs)
    ++ bodyChunks e now lvl actor event attrs

/-! ## Every writer is the checked script of its chunks -/

/-- A checked script in the words of the source: write, look, give up or go on. -/
theorem checked_cons (b : Bytes) (cs : List Bytes) (s : σ) :
    outs.checked (b :: cs) s
      = if !outs.good (outs.write b s) then (false, outs.write b s)
        else outs.checked cs (outs.write b s) := by
  simp only [OStream.checked]
  cases outs.good (outs.write b s) <;> rfl

/-- In both forms `write_length` is a checked script, of one write or of two. -/
theorem writeLength_eq_checked (length : UInt64) (s : σ) :
    writeLength e outs length s = outs.checked (lengthChunks e length) s := by
  unfold writeLength lengthChunks
  split
  · rw [OStream.checked_singleton]
  · rw [checked_cons, OStream.checked_singleton]
    -- the second check of the source repeats what the first one saw
    have hagain (b : Bool) (s : σ) : (if (!b) = true then (false, s) else (b, s)) = (b, s) := by
      cases b <;> rfl
    simp only [hagain]

/-- The three kinds of record share one shape: a tag, a length field, a value. -/
theorem checked_record (tag : UInt8) (length : UInt64) (value : Bytes) (s : σ) :
    outs.checked ([tag] :: (lengthChunks e length ++ [value])) s
      = if !outs.good (writeTag outs tag s) then (false, writeTag outs tag s)
        else
          match writeLength e outs length (writeTag outs tag s) with
          | (false, s) => (false, s)
          | (true, s) => (outs.good (outs.write value s), outs.write value s) := by
  rw [checked_cons, OStream.checked_append]
  simp only [writeLength_eq_checked, OStream.checked_singleton, writeTag]
  rfl

theorem writeTimestamp_eq_checked (t : UInt64) (s : σ) :
    writeTimestamp e outs t s = outs.checked (timestampChunks e t) s :=
  (checked_record e outs TTimestamp 8 _ s).symm

theorem writeLoglevel_eq_checked (lvl : UInt8) (s : σ) :
    writeLoglevel e outs lvl s = outs.checked (loglevelChunks e lvl) s :=
  (checked_record e outs TLevel 1 _ s).symm

theorem writeString_eq_checked (str : Bytes) (s : σ) :
    writeString e outs str s = outs.checked (stringChunks e str) s :=
  (checked_record e outs TString _ str s).symm

/-- The header has a tag and a length field, and no value. -/
theorem writeHeader_eq_checked (tag : UInt8) (length : UInt64) (s : σ) :
    writeHeader e outs tag length s = outs.checked (headerChunks e tag length) s := by
  rw [headerChunks, checked_cons, ← writeLength_eq_checked]
  rfl

/-- The loop is the checked script of all attributes. Induction on the attributes; giving up in the
loop is giving up in the script. -/
theorem writeAttrs_eq_checked (entries : List (Bytes × Bytes)) (s : σ) :
    writeAttrs e outs entries s = outs.checked (attrsChunks e entries) s := by
  induction entries generalizing s with
  | nil => rfl
  | cons it rest ih =>
    -- one round takes the chunks of one attribute
    have hcons : attrsChunks e (it :: rest)
        = stringChunks e it.1 ++ (stringChunks e it.2 ++ attrsChunks e rest) := by
      simp [attrsChunks]
    rw [hcons, OStream.checked_append, writeAttrs]
    simp only [OStream.checked_append, writeString_eq_checked, ih]
    rfl

/-- **`write_tlv_log` is the checked script of the entry's chunks.** The last test of the
source, `outs.good()`, repeats what the last write was asked already. -/
theorem writeTlvLog_eq_checked (now : Time) (lvl : UInt8) (actor event : Bytes)
    (attrs : AttrMap) (s : σ) :
    writeTlvLog e outs now lvl actor event attrs s
      = outs.checked (entryChunks e now lvl actor event attrs) s := by
  have hgood := OStream.good_of_checked outs (s := s)
    (show entryChunks e now lvl actor event attrs ≠ [] by simp [entryChunks, headerChunks])
  simp only [entryChunks, bodyChunks, OStream.checked_append] at hgood ⊢
  simp only [writeTlvLog, writeHeader_eq_checked, writeTimestamp_eq_checked,
    writeLoglevel_eq_checked, writeString_eq_checked, writeAttrs_eq_checked]
  -- step through the five records and the loop; only the end needs `hgood`
  rcases h₁ : outs.checked (headerChunks e TLogEntry (logLength actor event attrs)) s
    with ⟨_ | _, s₁⟩
  · rfl
  dsimp only
  rcases h₂ : outs.checked (timestampChunks e now.toUInt64) s₁ with ⟨_ | _, s₂⟩
  · rfl
  dsimp only
  rcases h₃ : outs.checked (loglevelChunks e lvl) s₂ with ⟨_ | _, s₃⟩
  · rfl
  dsimp only
  rcases h₄ : outs.checked (stringChunks e actor) s₃ with ⟨_ | _, s₄⟩
  · rfl
  dsimp only
  rcases h₅ : outs.checked (stringChunks e event) s₄ with ⟨_ | _, s₅⟩
  · rfl
  dsimp only
  rcases h₆ : outs.checked (attrsChunks e attrs.entries) s₅ with ⟨_ | _, s₆⟩
  · rfl
  simp only [h₁, h₂, h₃, h₄, h₅, h₆, forall_const] at hgood
  dsimp only
  rw [hgood]

end Klog.Tlv
