import Mathlib.Algebra.Order.BigOperators.Group.List
import Klogger.Lib.Code
import Klogger.TlvLayout

/-!
# Binary records: reading them back

Three readers of a log the writers of `Klogger.Tlv` have written, each an instance of
`Klogger.Lib.Code`.

* `decodeEntry` goes by the tags and ignores the outer length. It stops behind the last pair
  of strings because no entry begins like a string record (`byTags`).
* `skipEntry` goes by the outer length alone. The outer length leaves the count octet of
  every long string out, so this reader keeps step only on entries without one
  (`byOuterLength`, `statesBodyLength_iff`).
* `measureEntry` reads string records until their lengths, as `log_length` counts them, use
  up the outer length. Every string record counts for something, so an entry that stops
  early never looks complete (`byMeasure`).
-/

namespace Klog.Tlv

/-! ## Fields -/

/-- Read a length field: the length, and what follows the field. -/
def decodeLength : Bytes → Option (Nat × Bytes)
  | [] => none
  | b :: bs =>
    if b ≤ 0x7F then some (b.toNat, bs)
    else
      let k := b.toNat - 0x80
      if k ≤ bs.length then some (Octets.ofBE (bs.take k), bs.drop k) else none

/-- Read a record with the given tag: its value, and what follows it. -/
def decodeTagged (tag : UInt8) : Bytes → Option (Bytes × Bytes)
  | [] => none
  | t :: bs =>
    if t = tag then
      match decodeLength bs with
      | none => none
      | some (n, bs) => if n ≤ bs.length then some (bs.take n, bs.drop n) else none
    else none

/-- A length field is read back, whatever follows it. -/
theorem decodeLength_encLength {n : Nat} (h : n < 2 ^ 64) (rest : Bytes) :
    decodeLength (encLength n ++ rest) = some (n, rest) := by
  have hle (b : UInt8) : b ≤ 0x7F ↔ b.toNat ≤ 0x7F := UInt8.le_iff_toNat_le
  unfold encLength
  by_cases hshort : n ≤ 0x7F
  · have hn : (UInt8.ofNat n).toNat = n := UInt8.toNat_ofNat_of_lt' (show n < 256 by omega)
    rw [if_pos hshort]
    show (if UInt8.ofNat n ≤ 0x7F then some ((UInt8.ofNat n).toNat, rest) else _) = _
    rw [if_pos ((hle _).mpr (by omega)), hn]
  · have hk : (Octets.be n).length ≤ 8 := Octets.length_be_le (by omega)
    have hcount : (UInt8.ofNat (0x80 + (Octets.be n).length)).toNat
        = 0x80 + (Octets.be n).length := UInt8.toNat_ofNat_of_lt' (show _ < 256 by omega)
    -- the count octet is above 0x7F, and what it counts is there
    rw [if_neg hshort, List.cons_append]
    simp only [decodeLength, hle, hcount]
    rw [if_neg (by omega), Nat.add_sub_cancel_left, if_pos (by simp)]
    simp [Octets.ofBE_be]

/-- A record is read back: the length field says where its value ends. -/
theorem decodeTagged_append (tag : UInt8) {value : Bytes} (h : value.length < 2 ^ 64)
    (rest : Bytes) :
    decodeTagged tag (tag :: (encLength value.length ++ (value ++ rest)))
      = some (value, rest) := by
  rw [decodeTagged, if_pos rfl, decodeLength_encLength h]
  simp

theorem decodeTagged_encString {s : Bytes} (h : s.length < 2 ^ 64) (rest : Bytes) :
    decodeTagged TString (encString s ++ rest) = some (s, rest) := by
  rw [encString, toNat_size h, List.cons_append, List.append_assoc]
  exact decodeTagged_append TString h rest

theorem decodeTagged_encTimestamp (t : UInt64) (rest : Bytes) :
    decodeTagged TTimestamp (encTimestamp t ++ rest)
      = some ((Octets.le 8 t.toNat).reverse, rest) := by
  have hlen : (Octets.le 8 t.toNat).reverse.length = 8 := by simp
  have hfits : (Octets.le 8 t.toNat).reverse.length < 2 ^ 64 := by rw [hlen]; decide
  have h := decodeTagged_append TTimestamp hfits rest
  rw [hlen] at h
  exact h

theorem decodeTagged_encLevel (lvl : UInt8) (rest : Bytes) :
    decodeTagged TLevel (encLevel lvl ++ rest) = some ([lvl], rest) :=
  decodeTagged_append TLevel (show [lvl].length < 2 ^ 64 by simp) rest

/-! ## Reading by the tags -/

/-- Pairs of string records for as long as the next octet is the tag of one. -/
def decodeAttrs : Nat → Bytes → Option (List (Bytes × Bytes) × Bytes)
  | 0, bs => if bs.head? = some TString then none else some ([], bs)
  | fuel + 1, bs =>
    if bs.head? = some TString then
      match decodeTagged TString bs with
      | none => none
      | some (key, bs) =>
        match decodeTagged TString bs with
        | none => none
        | some (value, bs) =>
          (decodeAttrs fuel bs).map fun r => ((key, value) :: r.1, r.2)
    else some ([], bs)

/-- The records in the order they are written. The attributes have to be in the order of a map, or
nobody has written them. -/
def decodeBody (bs : Bytes) : Option (LogEntry × Bytes) := do
  let (t, bs) ← decodeTagged TTimestamp bs
  let (lvl, bs) ← decodeTagged TLevel bs
  let (actor, bs) ← decodeTagged TString bs
  let (event, bs) ← decodeTagged TString bs
  let (entries, bs) ← decodeAttrs bs.length bs
  match t.length, lvl with
  | 8, [lvl] =>
    if sorted : entries.Pairwise fun a b => a.1 < b.1 then
      some (⟨UInt64.ofNat (Octets.ofBE t), lvl, actor, event, ⟨entries, sorted⟩⟩, bs)
    else none
  | _, _ => none

/-- An entry; the outer length is read and ignored. -/
def decodeEntry : Bytes → Option (LogEntry × Bytes)
  | [] => none
  | tag :: bs =>
    if tag = TLogEntry then
      match decodeLength bs with
      | none => none
      | some (_, bs) => decodeBody bs
    else none

/-- Every string has a size that `size()` can give. -/
def LogEntry.Sized (x : LogEntry) : Prop := ∀ s ∈ x.strings, s.length < 2 ^ 64

instance : DecidablePred LogEntry.Sized := fun x =>
  inferInstanceAs (Decidable (∀ s ∈ x.strings, s.length < 2 ^ 64))

/-- Attributes are read back in front of anything that does not begin with the tag of a
string. Induction on the attributes. -/
theorem decodeAttrs_append {entries : List (Bytes × Bytes)}
    (h : ∀ it ∈ entries, it.1.length < 2 ^ 64 ∧ it.2.length < 2 ^ 64) {rest : Bytes}
    (hrest : rest.head? ≠ some TString) :
    ∀ fuel, entries.length ≤ fuel →
      decodeAttrs fuel ((entries.flatMap fun it => [it.1, it.2]).flatMap encString ++ rest)
        = some (entries, rest) := by
  induction entries with
  | nil =>
    intro fuel _
    cases fuel <;> simp [decodeAttrs, hrest]
  | cons it entries ih =>
    intro fuel hfuel
    obtain ⟨hkey, hvalue⟩ := h it (by simp)
    have hsplit : ((it :: entries).flatMap fun it => [it.1, it.2]).flatMap encString ++ rest
        = encString it.1 ++ (encString it.2
          ++ ((entries.flatMap fun it => [it.1, it.2]).flatMap encString ++ rest)) := by
      simp [List.append_assoc]
    cases fuel with
    | zero => simp at hfuel
    | succ fuel =>
      -- the tag says that another pair follows
      have htag : (encString it.1 ++ (encString it.2
          ++ ((entries.flatMap fun it => [it.1, it.2]).flatMap encString ++ rest))).head?
            = some TString := rfl
      rw [hsplit, decodeAttrs, if_pos htag, decodeTagged_encString hkey]
      simp only [decodeTagged_encString hvalue]
      rw [ih (fun x hx => h x (by simp [hx])) fuel (by simpa using hfuel)]
      rfl

/-- What follows the header is read back, in front of anything that does not look like one more
string. -/
theorem decodeBody_body {x : LogEntry} (h : x.Sized) {rest : Bytes}
    (hrest : rest.head? ≠ some TString) : decodeBody (x.body ++ rest) = some (x, rest) := by
  have hactor : x.actor.length < 2 ^ 64 := h x.actor (by simp [LogEntry.strings])
  have hevent : x.event.length < 2 ^ 64 := h x.event (by simp [LogEntry.strings])
  have hattrs : ∀ it ∈ x.attrs.entries, it.1.length < 2 ^ 64 ∧ it.2.length < 2 ^ 64 := by
    intro it hit
    constructor <;> refine h _ ?_ <;> simp only [LogEntry.strings, List.mem_cons,
      List.mem_flatMap] <;> exact .inr (.inr ⟨it, hit, by simp⟩)
  -- one attribute takes two octets at least, so the rest of the stream is fuel enough
  have hfuel : x.attrs.entries.length
      ≤ ((x.attrs.entries.flatMap fun it => [it.1, it.2]).flatMap encString ++ rest).length := by
    induction x.attrs.entries with
    | nil => simp
    | cons it l ih =>
      simp only [List.flatMap_cons, List.flatMap_append, List.length_append,
        List.length_cons, encString] at ih ⊢
      omega
  have hstamp : UInt64.ofNat (Octets.ofBE (Octets.le 8 x.timestamp.toNat).reverse)
      = x.timestamp := by
    have hlt : x.timestamp.toNat < 256 ^ 8 := x.timestamp.toNat_lt
    rw [Octets.ofBE_reverse_le hlt, UInt64.ofNat_toNat]
  simp only [LogEntry.body, LogEntry.strings, List.flatMap_cons, List.append_assoc,
    decodeBody, decodeTagged_encTimestamp, decodeTagged_encLevel,
    decodeTagged_encString hactor, decodeTagged_encString hevent,
    decodeAttrs_append hattrs hrest _ hfuel, Option.bind_eq_bind, Option.bind_some]
  simp [hstamp, x.attrs.sorted]

/-- The tags, as a decoder that looks one octet ahead. -/
def byTags : Code.Guarded LogEntry UInt8 where
  enc := LogEntry.enc
  ok := LogEntry.Sized
  dec := decodeEntry
  follow rest := rest.head? ≠ some TString
  enc_ne_nil x _ := by simp [LogEntry.enc]
  follow_nil := by simp
  follow_enc x _ rest := by
    show some TLogEntry ≠ some TString
    decide
  dec_enc x h rest hrest := by
    rw [LogEntry.enc, List.cons_append, decodeEntry, if_pos rfl, List.append_assoc,
      decodeLength_encLength x.length.toNat_lt]
    exact decodeBody_body h hrest

/-! ## Reading by the outer length -/

/-- The octets up to the next entry, if the outer length is the length of what follows it. -/
def skipEntry : Bytes → Option Nat
  | [] => none
  | tag :: bs =>
    if tag = TLogEntry then
      match decodeLength bs with
      | none => none
      | some (n, rest) => some (1 + (bs.length - rest.length) + n)
    else none

/-- No string needs a long length field, and the body fits a `size_t`. -/
def LogEntry.Short (x : LogEntry) : Prop :=
  (∀ s ∈ x.strings, s.length ≤ 0x7F) ∧ 13 + (x.strings.map fun s => 2 + s.length).sum < 2 ^ 64

theorem recordLength_le (s : Bytes) : recordLength s ≤ (encString s).length := by
  rw [length_encString]
  omega

theorem sum_recordLength_le (ss : List Bytes) :
    (ss.map recordLength).sum ≤ (ss.map fun s => (encString s).length).sum :=
  List.sum_le_sum fun s _ => recordLength_le s

/-- If the sums of two measures agree, one below the other, the measures do. -/
theorem recordLength_eq_of_sum_eq {ss : List Bytes}
    (h : (ss.map recordLength).sum = (ss.map fun s => (encString s).length).sum) :
    ∀ s ∈ ss, recordLength s = (encString s).length := by
  induction ss with
  | nil => simp
  | cons s ss ih =>
    have hs := recordLength_le s
    have hss := sum_recordLength_le ss
    simp only [List.map_cons, List.sum_cons] at h
    intro t ht
    rcases List.mem_cons.mp ht with rfl | ht
    · -- neither the first nor the rest can be smaller
      omega
    · exact ih (by omega) t ht

theorem length_le_sum {ss : List Bytes} {s : Bytes} (h : s ∈ ss) :
    s.length ≤ (ss.map fun s => (encString s).length).sum := by
  have hs : s.length ≤ (encString s).length := by
    rw [encString, List.length_cons, List.length_append]
    omega
  exact hs.trans (List.le_sum_of_mem (List.mem_map_of_mem h))

theorem length_encString_of_short {s : Bytes} (h : s.length ≤ 0x7F) :
    (encString s).length = 2 + s.length := by
  rw [encString, toNat_size (by omega), encLength, if_pos h, List.length_cons,
    List.length_append]
  simp only [List.length_cons, List.length_nil]
  omega

/-- **When the outer length is the length of the body**: exactly when no string is longer
than 127 bytes, as long as the body fits a `size_t`. -/
theorem LogEntry.toNat_length_eq_iff (x : LogEntry) :
    x.length.toNat = x.body.length ↔ x.Short := by
  have hle := sum_recordLength_le x.strings
  have hlt := x.length.toNat_lt
  rw [x.toNat_length, x.length_body] at *
  constructor
  · intro h
    -- the measures of the two lengths agree, and so they do on every string
    have hsum : (x.strings.map recordLength).sum
        = (x.strings.map fun s => (encString s).length).sum := by omega
    have hshort : ∀ s ∈ x.strings, s.length ≤ 0x7F := by
      intro s hs
      have heq := recordLength_eq_of_sum_eq hsum s hs
      have hmem := length_le_sum hs
      rw [length_encString, toNat_size (by omega)] at heq
      -- a long string would count for one octet less than it takes
      by_contra hlong
      rw [if_neg hlong] at heq
      omega
    refine ⟨hshort, ?_⟩
    rw [← List.map_congr_left fun s hs => length_encString_of_short (hshort s hs)]
    omega
  · rintro ⟨hshort, hfits⟩
    have henc : x.strings.map (fun s => (encString s).length)
        = x.strings.map fun s => 2 + s.length :=
      List.map_congr_left fun s hs => length_encString_of_short (hshort s hs)
    have hrec : x.strings.map recordLength = x.strings.map fun s => 2 + s.length := by
      refine List.map_congr_left fun s hs => ?_
      have hs' := hshort s hs
      rw [recordLength, octetCount, toNat_size (by omega), if_pos hs']
    rw [henc, hrec]
    omega

/-- The outer length, as a framing of the entries without a long string. -/
def byOuterLength : Code.Framing LogEntry UInt8 where
  enc := LogEntry.enc
  ok := LogEntry.Short
  cut := skipEntry
  enc_ne_nil x _ := by simp [LogEntry.enc]
  cut_enc x h rest := by
    -- the outer length is the length of the body
    have hbody := x.toNat_length_eq_iff.mpr h
    rw [LogEntry.enc, List.cons_append, skipEntry, if_pos rfl, List.append_assoc,
      decodeLength_encLength x.length.toNat_lt, hbody]
    simp only [List.length_append, List.length_cons, Option.some.injEq]
    omega

/-! ## Reading by the measure of `log_length` -/

/-- Skip string records that count for `n` together. Every one counts for two at least, so
`n` bounds their number. -/
def skipStrings : Nat → Nat → Bytes → Option Bytes
  | _, 0, bs => some bs
  | 0, _ + 1, _ => none
  | fuel + 1, n + 1, bs =>
    match decodeTagged TString bs with
    | none => none
    | some (s, rest) =>
      if recordLength s ≤ n + 1 then skipStrings fuel (n + 1 - recordLength s) rest else none

/-- The octets up to the next entry: header, timestamp and level, and as many string records
as the outer length stands for. -/
def measureEntry : Bytes → Option Nat
  | [] => none
  | tag :: bs =>
    if tag = TLogEntry then
      match decodeLength bs with
      | none => none
      | some (n, rest) =>
        (skipStrings n (n - 13) (rest.drop 13)).map fun rest => 1 + (bs.length - rest.length)
    else none

/-- The outer length is computed without overflow. -/
def LogEntry.Measured (x : LogEntry) : Prop :=
  x.Sized ∧ 13 + (x.strings.map recordLength).sum < 2 ^ 64

/-- Every record counts for something, so skipping makes progress. -/
theorem recordLength_pos (s : Bytes) : 0 < recordLength s := by
  rw [recordLength]
  omega

/-- The records that make up the outer length are skipped, and no more. Induction on the
records; each leaves less to skip. -/
theorem skipStrings_append {ss : List Bytes} (h : ∀ s ∈ ss, s.length < 2 ^ 64) (rest : Bytes) :
    ∀ fuel, (ss.map recordLength).sum ≤ fuel →
      skipStrings fuel (ss.map recordLength).sum (ss.flatMap encString ++ rest) = some rest := by
  induction ss with
  | nil =>
    intro fuel _
    cases fuel <;> rfl
  | cons s ss ih =>
    intro fuel hfuel
    have hpos := recordLength_pos s
    simp only [List.map_cons, List.sum_cons] at hfuel ⊢
    -- there is something to skip and fuel to do it
    obtain ⟨fuel, rfl⟩ : ∃ f, fuel = f + 1 := ⟨fuel - 1, by omega⟩
    obtain ⟨n, hn⟩ : ∃ n, recordLength s + (ss.map recordLength).sum = n + 1 :=
      ⟨recordLength s + (ss.map recordLength).sum - 1, by omega⟩
    rw [hn, List.flatMap_cons, List.append_assoc, skipStrings,
      decodeTagged_encString (h s (by simp))]
    have hleft : n + 1 - recordLength s = (ss.map recordLength).sum := by omega
    simp only [hleft]
    rw [if_pos (by omega)]
    exact ih (fun t ht => h t (by simp [ht])) fuel (by omega)

/-- The measure of `log_length`, as a framing. -/
def byMeasure : Code.Framing LogEntry UInt8 where
  enc := LogEntry.enc
  ok := LogEntry.Measured
  cut := measureEntry
  enc_ne_nil x _ := by simp [LogEntry.enc]
  cut_enc x h rest := by
    have hlen : x.length.toNat = 13 + (x.strings.map recordLength).sum := by
      rw [x.toNat_length, Nat.mod_eq_of_lt h.2]
    -- timestamp and level are skipped by their fixed size
    have hdrop : (x.body ++ rest).drop 13 = x.strings.flatMap encString ++ rest := by
      rw [LogEntry.body, ← List.append_assoc, List.append_assoc]
      exact List.drop_left' (by simp [encTimestamp, encLevel])
    rw [LogEntry.enc, List.cons_append, measureEntry, if_pos rfl, List.append_assoc,
      decodeLength_encLength x.length.toNat_lt]
    simp only [hdrop, hlen, Nat.add_sub_cancel_left]
    rw [skipStrings_append h.1 rest _ (by omega)]
    simp only [Option.map_some, List.length_append, List.length_cons, Option.some.injEq]
    omega

end Klog.Tlv
