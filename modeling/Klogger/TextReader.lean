import Klogger.Lib.Split
import Klogger.TextLayout

/-!
# Text records: reading the header back

The reader that `manual.rst` describes: the actor is what stands between `[actor:` and the next
` event:`, the event is what stands between that and the next `]`. The strings of a record are
written as they are, so the reader is misled when they contain what it looks for, and only then
(`readHeader_iff`).
-/

namespace Klog

/-- Skip a field in brackets and the blank behind it. -/
def skipField (bs : Bytes) : Option Bytes := do
  let bs ← bs.dropPrefix? (ascii "[")
  let (_, bs) ← bs.dropInfix? (ascii "] ")
  some bs

/-- The actor and the event, at the beginning of the field that has them. -/
def readNames (bs : Bytes) : Option (Bytes × Bytes) := do
  let (actor, bs) ← bs.dropInfix? (ascii " event:")
  let (event, _) ← bs.dropInfix? (ascii "]")
  some (actor, event)

/-- The actor and the event of a text record. -/
def readHeader (bs : Bytes) : Option (Bytes × Bytes) := do
  let bs ← skipField bs
  let bs ← skipField bs
  let bs ← bs.dropPrefix? (ascii "[actor:")
  readNames bs

theorem dropPrefix?_append (p bs : Bytes) : (p ++ bs).dropPrefix? p = some bs :=
  List.dropPrefix?_append_of_beq bs (by simp)

/-- A field without a closing bracket is skipped, and what follows is reached. -/
theorem skipField_append {field : Bytes} (h : 0x5D ∉ field) (rest : Bytes) :
    skipField (ascii "[" ++ (field ++ (ascii "] " ++ rest))) = some rest := by
  have hpat : Split.Unbordered (ascii "] ") := Split.unbordered_cons (by decide)
  -- the pattern begins with the bracket that the field does not have
  have hnone : ¬ ascii "] " <:+: field := fun hin => h (hin.subset (by decide))
  rw [skipField, dropPrefix?_append, Option.bind_eq_bind, Option.bind_some,
    (Split.dropInfix?_append_iff hpat (by decide) field rest).mpr hnone]
  rfl

/-- The names come back exactly when the actor does not contain ` event:` and the event does
not contain `]`. What follows the event does not matter. -/
theorem readNames_iff (actor event rest : Bytes) :
    readNames (actor ++ (ascii " event:" ++ (event ++ (ascii "]" ++ rest)))) = some (actor, event)
      ↔ ¬ ascii " event:" <:+: actor ∧ 0x5D ∉ event := by
  have heventPat : Split.Unbordered (ascii " event:") := Split.unbordered_cons (by decide)
  -- the closing bracket is one byte, so its occurrence is a matter of membership
  have hclosePat : Split.Unbordered (ascii "]") := Split.unbordered_cons (by decide)
  have hclose : (event ++ (ascii "]" ++ rest)).dropInfix? (ascii "]") = some (event, rest)
      ↔ ¬ [0x5D] <:+: event := Split.dropInfix?_append_iff hclosePat (by decide) event rest
  rw [List.singleton_infix_iff] at hclose
  rw [← hclose, ← Split.dropInfix?_append_iff heventPat (by decide) actor
    (event ++ (ascii "]" ++ rest))]
  constructor
  · intro h
    simp only [readNames, Option.bind_eq_bind, Option.bind_eq_some_iff] at h
    obtain ⟨⟨a, bs⟩, hfirst, ⟨e, r⟩, hsecond, hread⟩ := h
    obtain ⟨rfl, rfl⟩ := Prod.mk.inj (Option.some.inj hread)
    -- the actor was found where it was written, so the event is read where it was written
    obtain rfl := Split.dropInfix?_append_rest hfirst
    obtain rfl := Split.dropInfix?_append_rest hsecond
    exact ⟨hfirst, hsecond⟩
  · rintro ⟨hfirst, hsecond⟩
    simp only [readNames, hfirst, hsecond, Option.bind_eq_bind, Option.bind_some]

/-- **The scope of the documented header parse**: the reader gets actor and event back from a
record exactly when the actor does not contain ` event:` and the event does not contain `]`. -/
theorem readHeader_iff (host : Host) (now : Time) (level : Level) (actor event : Bytes)
    (attrs : AttrMap) :
    readHeader (logToString host now level actor event attrs) = some (actor, event)
      ↔ ¬ ascii " event:" <:+: actor ∧ 0x5D ∉ event := by
  have hstamp : 0x5D ∉ timestamp host now := fun hmem =>
    absurd (timestamp_subset host now hmem) (by decide)
  have hlevel : 0x5D ∉ levelStrings level := by
    cases level <;> decide
  rw [logToString_eq, textRecord_eq, logToStringNt_layout, List.append_assoc, List.append_assoc,
    readHeader, skipField_append hstamp, Option.bind_eq_bind, Option.bind_some,
    skipField_append hlevel, Option.bind_some, dropPrefix?_append, Option.bind_some]
  exact readNames_iff actor event (attrText attrs ++ ascii "\n")

end Klog
