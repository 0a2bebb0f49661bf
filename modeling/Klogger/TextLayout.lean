import Klogger.Text

/-!
# Text records: the layout

What a reader of a text record can rely on.

* The fields of a record in the order they stand in it (`logToStringNt_layout`).
* A timestamp is made of digits and four other characters (`mem_timestamp`).
* Of the control characters, the writer itself writes only the newline at the end; all others
  are copied from the strings of the call (`count_formatted`).
-/

namespace Klog

/-! ## Fields -/

/-- The attributes as they stand in a record. -/
def attrText (attrs : AttrMap) : Bytes :=
  attrs.entries.flatMap fun it => ascii " " ++ it.1 ++ ascii "=" ++ it.2

theorem flatten_attrs (attrs : AttrMap) :
    (attrs.entries.flatMap fun it => [ascii " ", it.1, ascii "=", it.2]).flatten
      = attrText attrs := by
  rw [← List.flatMap_id', List.flatMap_assoc]
  simp [attrText, List.append_assoc]

/-- The fields from left to right, nested to the right so that a reader can take them off one by
one. -/
theorem logToStringNt_layout (level : Level) (actor event : Bytes) (attrs : AttrMap) :
    logToStringNt level actor event attrs
      = ascii "[" ++ (levelStrings level ++ (ascii "] " ++ (ascii "[actor:" ++ (actor
          ++ (ascii " event:" ++ (event ++ (ascii "]" ++ (attrText attrs ++ ascii "\n")))))))) := by
  have hactor : ascii "[actor:" = ascii "[" ++ ascii "actor:" := rfl
  rw [logToStringNt_eq, logChunksNt, List.flatten_append, List.flatten_append,
    List.flatten_append, flatten_attrs, hactor]
  simp [List.append_assoc]

theorem logToStringBody_layout (actor event : Bytes) (attrs : AttrMap) :
    logToStringBody actor event attrs = ascii "[actor:" ++ (actor ++ (ascii " event:" ++ (event
      ++ (ascii "]" ++ attrText attrs)))) := by
  have hactor : ascii "[actor:" = ascii "[" ++ ascii "actor:" := rfl
  simp only [logToStringBody]
  rw [writeAttrs_eq_emit, ← OStream.emit_append, Sink.reliable_empty.emit]
  show [] ++ List.flatten _ = _
  rw [List.nil_append, List.flatten_append, flatten_attrs, hactor]
  simp [List.append_assoc]

/-- What `log_to_string_nt` makes of a call. -/
def LogCall.formatted (c : LogCall) : Bytes := logToStringNt c.level c.actor c.event c.attrs

/-! ## Timestamps -/

/-- The characters of a timestamp. -/
def stampAlphabet : Bytes := ascii "0123456789+-:T"

theorem dash_subset : ascii "-" ⊆ stampAlphabet := by decide

theorem decimal_eq_map (n : Nat) :
    decimal n = (Nat.toDigits 10 n).map fun c => UInt8.ofNat c.toNat := by
  simp [decimal, ascii]

theorem decimal_subset (n : Nat) : decimal n ⊆ stampAlphabet := by
  have hdigits : ∀ k < 58, 48 ≤ k → UInt8.ofNat k ∈ stampAlphabet := by decide
  intro b hb
  obtain ⟨c, hc, rfl⟩ := List.mem_map.mp hb
  have hdigit : c.isDigit = true := by
    apply Nat.isDigit_of_mem_toDigits (b := 10) (n := n) (by decide) (by decide)
    simpa using hc
  simp only [Char.isDigit, Bool.and_eq_true, decide_eq_true_eq] at hdigit
  exact hdigits c.toNat (Nat.lt_succ_of_le hdigit.2) hdigit.1

theorem pad2_subset (n : Nat) : pad2 n ⊆ stampAlphabet := by
  unfold pad2
  split
  · exact List.append_subset.mpr ⟨by decide, decimal_subset n⟩
  · exact decimal_subset n

theorem zone_subset (gmtoff : Int) : zone gmtoff ⊆ stampAlphabet := by
  have hsign : (if gmtoff < 0 then ascii "-" else ascii "+") ⊆ stampAlphabet := by
    split
    · exact dash_subset
    · decide
  simp only [zone, List.append_subset]
  exact ⟨⟨hsign, pad2_subset _⟩, pad2_subset _⟩

/-- Date, `T`, time of day, offset. -/
theorem dateFormat_subset (tm : Tm) : dateFormat tm ⊆ stampAlphabet := by
  have hcolon : ascii ":" ⊆ stampAlphabet := by decide
  have hT : ascii "T" ⊆ stampAlphabet := by decide
  simp only [dateFormat, List.append_subset]
  simp [decimal_subset, pad2_subset, zone_subset, dash_subset, hcolon, hT]

/-- A number of seconds, which stands in for a timestamp of unexpected size. -/
theorem seconds_subset (t : Int) : ascii (toString t) ⊆ stampAlphabet := by
  cases t with
  | ofNat n => exact decimal_subset n
  | negSucc n =>
    have hneg : ascii (toString (Int.negSucc n)) = ascii "-" ++ decimal (n + 1) := by
      simp [ascii, decimal, Int.toString_eq_repr, Int.repr]
    rw [hneg]
    exact List.append_subset.mpr ⟨dash_subset, decimal_subset (n + 1)⟩

theorem strftime_subset (size : Nat) (expansion : Bytes) :
    (strftime size expansion).2 ⊆ expansion := by
  unfold strftime
  split
  · exact List.Subset.refl expansion
  · exact List.nil_subset expansion

/-- Whichever of the two is written, no other character occurs in it. -/
theorem timestamp_subset (host : Host) (t : Time) : timestamp host t ⊆ stampAlphabet := by
  simp only [timestamp]
  split
  · exact seconds_subset t.toInt
  · have hbuf := strftime_subset TIMESTAMP_BUF_SIZE (dateFormat (host.localtime t))
    -- the buffer is taken up to its first NUL
    have hstr : cStr (strftime TIMESTAMP_BUF_SIZE (dateFormat (host.localtime t))).2
        ⊆ (strftime TIMESTAMP_BUF_SIZE (dateFormat (host.localtime t))).2 :=
      (List.takeWhile_sublist _).subset
    exact List.Subset.trans (List.Subset.trans hstr hbuf) (dateFormat_subset (host.localtime t))

/-! ## Control characters -/

/-- No control character below the blank. -/
def Printable (bs : Bytes) : Prop := ∀ b ∈ bs, 0x20 ≤ b

instance : DecidablePred Printable := fun bs => List.decidableBAll (0x20 ≤ ·) bs

theorem Printable.not_mem {bs : Bytes} (h : Printable bs) {b : UInt8} (hb : b < 0x20) : b ∉ bs :=
  fun hmem => absurd (h b hmem) (UInt8.not_le.mpr hb)

theorem printable_levelStrings (level : Level) : Printable (levelStrings level) := by
  cases level <;> decide

theorem printable_timestamp (host : Host) (t : Time) : Printable (timestamp host t) := by
  have halphabet : Printable stampAlphabet := by decide
  intro b hb
  exact halphabet b (timestamp_subset host t hb)

/-- **Control characters come from the strings**, except for the newline at the end. -/
theorem count_formatted {b : UInt8} (hb : b < 0x20) (c : LogCall) :
    c.formatted.count b = (c.strings.map (·.count b)).sum + (ascii "\n").count b := by
  -- the literal text has no control character
  have hlit {bs : Bytes} (h : Printable bs) : bs.count b = 0 :=
    List.count_eq_zero.mpr (h.not_mem hb)
  -- of the attributes only keys and values count; induction on the attributes
  have hattrs : (attrText c.attrs).count b
      = ((c.attrs.entries.flatMap fun it => [it.1, it.2]).map (·.count b)).sum := by
    unfold attrText
    induction c.attrs.entries with
    | nil => rfl
    | cons it rest ih =>
      rw [List.flatMap_cons, List.count_append, ih, List.flatMap_cons, List.map_append,
        List.sum_append]
      simp only [List.count_append, hlit (show Printable (ascii " ") by decide),
        hlit (show Printable (ascii "=") by decide), List.map_cons, List.map_nil, List.sum_cons,
        List.sum_nil]
      omega
  rw [LogCall.formatted, logToStringNt_layout]
  simp only [List.count_append, hattrs, hlit (printable_levelStrings c.level),
    hlit (show Printable (ascii "[") by decide), hlit (show Printable (ascii "] ") by decide),
    hlit (show Printable (ascii "[actor:") by decide),
    hlit (show Printable (ascii " event:") by decide), hlit (show Printable (ascii "]") by decide),
    LogCall.strings, List.map_cons, List.sum_cons]
  omega

/-- There is none of these bytes exactly if no string has one. -/
theorem sum_count_eq_zero_iff {c : LogCall} {b : UInt8} :
    (c.strings.map (·.count b)).sum = 0 ↔ c.Free b := by
  rw [List.sum_eq_zero_iff_forall_eq_nat]
  simp [LogCall.Free, List.count_eq_zero]

end Klog
