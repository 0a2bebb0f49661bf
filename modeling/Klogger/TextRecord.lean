import Klogger.Lines
import Klogger.TextReader

/-!
# Text records: reading everything back

The reader goes on where `readHeader` stops: the attributes behind the names are separated by
blanks, and each is cut at its first `=`. What one record says, and what the files of a whole run
say, comes back exactly when the strings of the calls are free of what the reader looks for
(`readRecord_iff`, `text_log_reads_back_iff`).
-/

namespace Klog

/-- What a text record says. -/
structure TextFields where
  stamp : Bytes
  level : Level
  actor : Bytes
  event : Bytes
  attrs : List (Bytes × Bytes)
  deriving DecidableEq

/-! ## The reader -/

/-- A field in brackets, and what is behind the blank that follows it. -/
def readField (bs : Bytes) : Option (Bytes × Bytes) := do
  let bs ← bs.dropPrefix? (ascii "[")
  bs.dropInfix? (ascii "] ")

/-- The level with this name. -/
def readLevel (field : Bytes) : Option Level :=
  [.DEBUG, .INFO, .WARN, .ERROR, .CRITICAL, .FATAL].find? fun l => levelStrings l == field

/-- The attributes: a blank before each. -/
def readAttrs (bs : Bytes) : Option (List (Bytes × Bytes)) :=
  if bs = [] then some []
  else do
    let bs ← bs.dropPrefix? (ascii " ")
    (bs.splitOn 0x20).mapM fun it => it.dropInfix? (ascii "=")

/-- The names and the attributes. -/
def readBody (bs : Bytes) : Option (Bytes × Bytes × List (Bytes × Bytes)) := do
  let bs ← bs.dropPrefix? (ascii "[actor:")
  let (actor, bs) ← bs.dropInfix? (ascii " event:")
  let (event, bs) ← bs.dropInfix? (ascii "]")
  let attrs ← readAttrs bs
  some (actor, event, attrs)

/-- A record, without the newline at its end. -/
def readRecord (line : Bytes) : Option TextFields := do
  let (stamp, bs) ← readField line
  let (field, bs) ← readField bs
  let level ← readLevel field
  let (actor, event, attrs) ← readBody bs
  some ⟨stamp, level, actor, event, attrs⟩

/-- A whole file. -/
def readLog (bs : Bytes) : Option (List TextFields) := (Split.lines newline bs).mapM readRecord

/-- What the record of an entry is to say. -/
def fieldsOf (host : Host) (e : Entry) : TextFields where
  stamp := timestamp host e.now
  level := e.call.level
  actor := e.call.actor
  event := e.call.event
  attrs := e.call.attrs.entries

/-! ## One record -/

/-- The reader does not find what it looks for in the wrong place: the actor does not contain
` event:`, the event no `]`, the attributes no blank, and the keys no `=`. -/
def Legible (actor event : Bytes) (attrs : AttrMap) : Prop :=
  ¬ ascii " event:" <:+: actor ∧ 0x5D ∉ event
    ∧ ∀ it ∈ attrs.entries, (0x20 ∉ it.1 ∧ 0x20 ∉ it.2) ∧ 0x3D ∉ it.1

/-- An attribute as it stands in a record, without the blank. -/
def attrField (it : Bytes × Bytes) : Bytes := it.1 ++ (ascii "=" ++ it.2)

/-- An attribute is cut at its first `=`, which has to be the one the writer has put there. -/
theorem readAttr_iff (it : Bytes × Bytes) :
    (attrField it).dropInfix? (ascii "=") = some it ↔ 0x3D ∉ it.1 := by
  have heq : Split.Unbordered (ascii "=") := Split.unbordered_cons (by decide)
  have h := Split.dropInfix?_append_iff heq (by decide) it.1 it.2
  rw [show ascii "=" = [0x3D] from rfl, List.singleton_infix_iff] at h
  exact h

theorem mem_attrField_iff (it : Bytes × Bytes) :
    0x20 ∈ attrField it ↔ 0x20 ∈ it.1 ∨ 0x20 ∈ it.2 := by
  rw [attrField, List.mem_append, List.mem_append]
  simp [ascii]

theorem attrText_eq (attrs : AttrMap) :
    attrText attrs = attrs.entries.flatMap fun it => 0x20 :: attrField it := by
  have hfield (it : Bytes × Bytes) :
      ascii " " ++ it.1 ++ ascii "=" ++ it.2 = 0x20 :: attrField it := by
    rw [attrField, show ascii " " = [0x20] from rfl]
    simp
  exact congrArg attrs.entries.flatMap (funext hfield)

/-- The attributes come back exactly when the blanks and the first `=` of each are those that the
writer has put there. -/
theorem readAttrs_iff (attrs : AttrMap) :
    readAttrs (attrText attrs) = some attrs.entries
      ↔ ∀ it ∈ attrs.entries, (0x20 ∉ it.1 ∧ 0x20 ∉ it.2) ∧ 0x3D ∉ it.1 := by
  have hblank (it : Bytes × Bytes) : 0x20 ∉ attrField it ↔ 0x20 ∉ it.1 ∧ 0x20 ∉ it.2 := by
    rw [mem_attrField_iff, not_or]
  rw [attrText_eq]
  cases attrs.entries with
  | nil => exact iff_of_true rfl (by simp)
  | cons it rest =>
    -- the first blank is taken off, and the others separate
    set text := attrField it ++ rest.flatMap fun it => 0x20 :: attrField it with htext
    have hread : readAttrs ((it :: rest).flatMap fun it => 0x20 :: attrField it)
        = (text.splitOn 0x20).mapM fun it => it.dropInfix? (ascii "=") := by
      rw [readAttrs, if_neg (by simp), List.flatMap_cons]
      exact congrArg (fun bs : Option Bytes => bs >>= _) (dropPrefix?_append (ascii " ") text)
    have hpieces : (∀ x ∈ it :: rest, 0x20 ∉ attrField x) →
        ((text.splitOn 0x20).mapM (fun it => it.dropInfix? (ascii "=")) = some (it :: rest)
          ↔ ∀ x ∈ it :: rest, 0x3D ∉ x.1) := by
      intro hfree
      have h := Split.mapM_map_eq_some_iff (f := fun it : Bytes => it.dropInfix? (ascii "="))
        (g := attrField) (h := id) (l := it :: rest)
      rw [List.map_id] at h
      rw [htext, Split.splitOn_flatMap_separated attrField it rest hfree, h]
      exact forall₂_congr fun x _ => readAttr_iff x
    rw [hread]
    constructor
    · intro h
      -- as many pieces as attributes, so no blank inside them
      have hlen : (text.splitOn 0x20).length = rest.length + 1 := by
        have hmap := congrArg List.length (Split.mapM_eq_some_iff.mp h)
        simpa using hmap
      have hfree := (Split.length_splitOn_separated_iff attrField it rest).mp hlen
      have hkeys := (hpieces hfree).mp h
      exact fun x hx => ⟨(hblank x).mp (hfree x hx), hkeys x hx⟩
    · intro h
      have hfree : ∀ x ∈ it :: rest, 0x20 ∉ attrField x := fun x hx => (hblank x).mpr (h x hx).1
      exact (hpieces hfree).mpr fun x hx => (h x hx).2

/-- **The scope of the reader**: what stands behind the level comes back exactly when the strings
are legible. -/
theorem readBody_iff (actor event : Bytes) (attrs : AttrMap) :
    readBody (logToStringBody actor event attrs) = some (actor, event, attrs.entries)
      ↔ Legible actor event attrs := by
  have heventPat : Split.Unbordered (ascii " event:") := Split.unbordered_cons (by decide)
  have hclosePat : Split.Unbordered (ascii "]") := Split.unbordered_cons (by decide)
  have hfirst := Split.dropInfix?_append_iff heventPat (by decide) actor
    (event ++ (ascii "]" ++ attrText attrs))
  have hsecond := Split.dropInfix?_append_iff hclosePat (by decide) event (attrText attrs)
  rw [show ascii "]" = [0x5D] from rfl, List.singleton_infix_iff] at hsecond
  rw [logToStringBody_layout, readBody, dropPrefix?_append, Option.bind_eq_bind, Option.bind_some,
    Legible, ← hfirst, ← readAttrs_iff]
  constructor
  · intro h
    simp only [Option.bind_eq_bind, Option.bind_eq_some_iff] at h
    obtain ⟨⟨a, bs⟩, hactor, ⟨e, r⟩, hevent, as, hattrs, hread⟩ := h
    obtain ⟨rfl, hrest⟩ := Prod.mk.inj (Option.some.inj hread)
    obtain ⟨rfl, rfl⟩ := Prod.mk.inj hrest
    -- the names were found where they were written, so the attributes are read where they were
    obtain rfl := Split.dropInfix?_append_rest hactor
    obtain rfl := Split.dropInfix?_append_rest hevent
    exact ⟨hactor, hsecond.mp hevent, hattrs⟩
  · rintro ⟨hactor, hevent, hattrs⟩
    have hevent' : (event ++ (ascii "]" ++ attrText attrs)).dropInfix? (ascii "]")
        = some (event, attrText attrs) := hsecond.mpr hevent
    simp only [hactor, hevent', hattrs, Option.bind_eq_bind, Option.bind_some]

theorem readField_append {field : Bytes} (h : 0x5D ∉ field) (rest : Bytes) :
    readField (ascii "[" ++ (field ++ (ascii "] " ++ rest))) = some (field, rest) := by
  have hpat : Split.Unbordered (ascii "] ") := Split.unbordered_cons (by decide)
  have hnone : ¬ ascii "] " <:+: field := fun hin => h (hin.subset (by decide))
  rw [readField, dropPrefix?_append, Option.bind_eq_bind, Option.bind_some]
  exact (Split.dropInfix?_append_iff hpat (by decide) field rest).mpr hnone

theorem readLevel_levelStrings (l : Level) : readLevel (levelStrings l) = some l := by
  cases l <;> rfl

/-- A line is the timestamp and the level in brackets, and the names with the attributes. -/
theorem lineOf_layout (host : Host) (e : Entry) :
    lineOf host e = ascii "[" ++ (timestamp host e.now ++ (ascii "] " ++ (ascii "["
      ++ (levelStrings e.call.level ++ (ascii "] "
        ++ logToStringBody e.call.actor e.call.event e.call.attrs))))) := by
  have h := textOf_eq_lineOf host e
  rw [textOf, logToString_eq, textRecord_eq, logToStringNt_layout] at h
  refine List.append_cancel_right (h.symm.trans ?_)
  rw [logToStringBody_layout]
  simp [List.append_assoc, newline, ascii]

/-- A record says what it is to say exactly when its strings are legible. -/
theorem readRecord_iff (host : Host) (e : Entry) :
    readRecord (lineOf host e) = some (fieldsOf host e)
      ↔ Legible e.call.actor e.call.event e.call.attrs := by
  have hstamp : 0x5D ∉ timestamp host e.now := fun hmem =>
    absurd (timestamp_subset host e.now hmem) (by decide)
  have hlevel : 0x5D ∉ levelStrings e.call.level := by
    cases e.call.level <;> decide
  rw [← readBody_iff, lineOf_layout]
  simp only [readRecord, readField_append hstamp, readField_append hlevel,
    readLevel_levelStrings, Option.bind_eq_bind, Option.bind_some]
  constructor
  · intro h
    rw [Option.bind_eq_some_iff] at h
    obtain ⟨⟨actor, event, attrs⟩, hbody, hfields⟩ := h
    -- the record says what it is to say, so its fields are the reader's
    have hsame := Option.some.inj hfields
    have hactor : actor = e.call.actor := congrArg TextFields.actor hsame
    have hevent : event = e.call.event := congrArg TextFields.event hsame
    have hattrs : attrs = e.call.attrs.entries := congrArg TextFields.attrs hsame
    rw [hbody, hactor, hevent, hattrs]
  · intro h
    rw [h]
    rfl

/-! ## Whole files -/

/-- The strings of a call come back from a text log. -/
def LogCall.Legible (c : LogCall) : Prop :=
  c.Free newline ∧ Klog.Legible c.actor c.event c.attrs

/-- A file of records says what they are to say exactly when all their strings are legible and
have no newline in them. -/
theorem readLog_iff (host : Host) (es : List Entry) :
    readLog (es.flatMap (textOf host)) = some (es.map (fieldsOf host))
      ↔ ∀ e ∈ es, e.call.Legible := by
  have hlines (hfree : ∀ e ∈ es, e.call.Free newline) :
      Split.lines newline (es.flatMap (textOf host)) = es.map (lineOf host) := by
    rw [Split.lines, (splitOn_records_iff host es).mpr hfree, List.dropLast_concat]
  -- once every record is a line, it is a matter of each record
  have hread (hfree : ∀ e ∈ es, e.call.Free newline) :
      readLog (es.flatMap (textOf host)) = some (es.map (fieldsOf host))
        ↔ ∀ e ∈ es, Legible e.call.actor e.call.event e.call.attrs := by
    rw [readLog, hlines hfree, Split.mapM_map_eq_some_iff]
    exact forall₂_congr fun e _ => readRecord_iff host e
  constructor
  · intro h
    -- as many lines as records, so no newline inside them
    have hlen : es.length + newlines es = es.length := by
      have hmap := congrArg List.length (Split.mapM_eq_some_iff.mp h)
      rw [List.length_map, length_lines_records] at hmap
      simpa using hmap
    have hzero : newlines es = 0 := by omega
    have hfree (e : Entry) (he : e ∈ es) : e.call.Free newline := by
      rw [newlines, List.sum_eq_zero_iff_forall_eq_nat] at hzero
      exact sum_count_eq_zero_iff.mp (hzero _ (List.mem_map_of_mem he))
    exact fun e he => ⟨hfree e he, (hread hfree).mp h e he⟩
  · intro h
    exact (hread fun e he => (h e he).1).mpr fun e he => (h e he).2

/-- **When a text log can be read back.** The files of a `FileRun` (two empty files, nothing fails,
no `close()`), read line by line and field by field, give the clock readings, levels, names and
attributes of all calls that passed the threshold, in order, if and only if the strings of all these
calls are legible. -/
theorem text_log_reads_back_iff (r : FileRun) :
    (readLog r.log = some (r.outs.map (fieldsOf r.host))
        ∧ readLog r.err = some (r.errs.map (fieldsOf r.host)))
      ↔ ∀ e ∈ passed r.ops, e.call.Legible := by
  rw [r.files_eq.1, r.files_eq.2, readLog_iff, readLog_iff]
  refine ⟨fun h e he => ?_, fun h => ⟨fun e he => ?_, fun e he => ?_⟩⟩
  · -- every entry is in one of the two files
    cases hout : e.call.level.toOuts with
    | true => exact h.1 e (List.mem_filter.mpr ⟨he, hout⟩)
    | false => exact h.2 e (List.mem_filter.mpr ⟨he, by simp [hout]⟩)
  · exact h e (List.mem_of_mem_filter he)
  · exact h e (List.mem_of_mem_filter he)

/-- An attribute with a blank in its value is read as two, and the second one has no `=`. -/
example : readAttrs (attrText ⟨[(ascii "user", ascii "J Doe")], by simp⟩) = none := by
  decide +kernel

end Klog
