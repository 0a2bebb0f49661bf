import Mathlib.Data.List.Lex
import Klogger.Lib.Octets
import Klogger.Lib.Run

/-!
# The `Logger` interface

`klogger/logger.hh`: levels, error conditions, and the virtual class every backend implements.
`Logger σ` is the table of virtual functions over the state `σ` of a backend; `LogCall` names
the logging methods together with their arguments, and `Logger.step` performs one operation of
a program that uses a logger.

Every logging method comes in two overloads, with and without attributes; the second is
written with the suffix `Plain`. `fatal` has two more overloads that take the exit code
(`fatalCode`). The clock reading of a call is part of the operation: a method reads the clock
at most once.
-/

namespace Klog

/-- A clock reading, `std::time_t` on a 64-bit system. -/
abbrev Time := Int64

/-- `Level`; the values are single bits, so that the numbers compare as the levels do. -/
inductive Level where
  | DEBUG
  | INFO
  | WARN
  | ERROR
  | CRITICAL
  | FATAL
  deriving DecidableEq, Repr

/-- The value of the enumerator. -/
def Level.value : Level → Nat
  | .DEBUG => 1 <<< 0
  | .INFO => 1 <<< 1
  | .WARN => 1 <<< 2
  | .ERROR => 1 <<< 3
  | .CRITICAL => 1 <<< 4
  | .FATAL => 1 <<< 5

instance : LE Level := ⟨fun a b => a.value ≤ b.value⟩

instance (a b : Level) : Decidable (a ≤ b) := inferInstanceAs (Decidable (a.value ≤ b.value))

/-- The threshold of a logger until `level` is called. -/
def DEFAULT_LEVEL : Level := .INFO

/-- `LEVEL_CHECK(l, c)`: whether the method returns at once. -/
def levelCheck (l c : Level) : Bool := l.value > c.value

/-- The macro compares numbers, and the model levels. -/
theorem levelCheck_eq (l c : Level) : levelCheck l c = !decide (l ≤ c) := by
  cases l <;> cases c <;> rfl

/-- `LogError`, with all values the header has; which of them are ever used is another question. -/
inductive LogError where
  | HEALTHY
  | ERR_CLOSED
  | ERR_OPEN
  | ERR_NOPERM
  | ERR_DISK
  | ERR_UNAVAILABLE
  | ERR_CLOSEFAIL
  | ERR_UNKNOWN
  deriving DecidableEq, Repr

/-- A `std::map` from strings to strings: its entries in the order of iteration, which is the
ascending order of the keys as unsigned bytes. -/
structure AttrMap where
  entries : List (Bytes × Bytes)
  sorted : entries.Pairwise fun a b => a.1 < b.1

/-- `{}` -/
def AttrMap.empty : AttrMap := ⟨[], .nil⟩

theorem AttrMap.ext {a b : AttrMap} (h : a.entries = b.entries) : a = b := by
  cases a
  cases b
  simpa using h

instance : DecidableEq AttrMap := fun a b =>
  decidable_of_iff (a.entries = b.entries) ⟨AttrMap.ext, fun h => h ▸ rfl⟩

/-! ## Virtual functions -/

/-- A method changes the state of the backend, and returns or ends the process. -/
abbrev Method (σ : Type) := σ → ControlFlow × σ

/-- The table of virtual functions, in the order of the header. -/
structure Logger (σ : Type) where
  debug : Time → Bytes → Bytes → AttrMap → Method σ
  debugPlain : Time → Bytes → Bytes → Method σ
  info : Time → Bytes → Bytes → AttrMap → Method σ
  infoPlain : Time → Bytes → Bytes → Method σ
  warn : Time → Bytes → Bytes → AttrMap → Method σ
  warnPlain : Time → Bytes → Bytes → Method σ
  error : Time → Bytes → Bytes → AttrMap → Method σ
  errorPlain : Time → Bytes → Bytes → Method σ
  critical : Time → Bytes → Bytes → AttrMap → Method σ
  criticalPlain : Time → Bytes → Bytes → Method σ
  fatal : Time → Bytes → Bytes → AttrMap → Method σ
  fatalPlain : Time → Bytes → Bytes → Method σ
  fatalCode : Time → Int → Bytes → Bytes → AttrMap → Method σ
  fatalCodePlain : Time → Int → Bytes → Bytes → Method σ
  fatalNoexit : Time → Bytes → Bytes → AttrMap → Method σ
  fatalNoexitPlain : Time → Bytes → Bytes → Method σ
  level : Level → σ → σ
  good : σ → Bool
  getError : σ → LogError
  close : σ → Int × σ

/-- A logging call with its arguments, the clock apart. -/
inductive LogCall where
  | debug (actor event : Bytes) (attrs : AttrMap)
  | debugPlain (actor event : Bytes)
  | info (actor event : Bytes) (attrs : AttrMap)
  | infoPlain (actor event : Bytes)
  | warn (actor event : Bytes) (attrs : AttrMap)
  | warnPlain (actor event : Bytes)
  | error (actor event : Bytes) (attrs : AttrMap)
  | errorPlain (actor event : Bytes)
  | critical (actor event : Bytes) (attrs : AttrMap)
  | criticalPlain (actor event : Bytes)
  | fatal (actor event : Bytes) (attrs : AttrMap)
  | fatalPlain (actor event : Bytes)
  | fatalCode (exitcode : Int) (actor event : Bytes) (attrs : AttrMap)
  | fatalCodePlain (exitcode : Int) (actor event : Bytes)
  | fatalNoexit (actor event : Bytes) (attrs : AttrMap)
  | fatalNoexitPlain (actor event : Bytes)
  deriving DecidableEq

/-- What a program does with a logger; a call comes with what the clock shows. -/
inductive Op where
  | log (c : LogCall) (now : Time)
  | level (l : Level)
  | close
  deriving DecidableEq

namespace Logger

variable {σ : Type} (L : Logger σ)

/-- Dispatch: the overload that the arguments select. -/
def call (now : Time) : LogCall → Method σ
  | .debug a e m => L.debug now a e m
  | .debugPlain a e => L.debugPlain now a e
  | .info a e m => L.info now a e m
  | .infoPlain a e => L.infoPlain now a e
  | .warn a e m => L.warn now a e m
  | .warnPlain a e => L.warnPlain now a e
  | .error a e m => L.error now a e m
  | .errorPlain a e => L.errorPlain now a e
  | .critical a e m => L.critical now a e m
  | .criticalPlain a e => L.criticalPlain now a e
  | .fatal a e m => L.fatal now a e m
  | .fatalPlain a e => L.fatalPlain now a e
  | .fatalCode c a e m => L.fatalCode now c a e m
  | .fatalCodePlain c a e => L.fatalCodePlain now c a e
  | .fatalNoexit a e m => L.fatalNoexit now a e m
  | .fatalNoexitPlain a e => L.fatalNoexitPlain now a e

/-- One operation of the program. Setting the threshold and closing always return. -/
def step : Op → σ → ControlFlow × σ
  | .log c now, s => L.call now c s
  | .level l, s => (.returned, L.level l s)
  | .close, s => (.returned, (L.close s).2)

end Logger

/-! ## What a call asks for

The specification of the interface, as `logger.hh` describes the methods: the level of the
message, its parts, and whether and with which code the process exits. -/

def EXIT_FAILURE : Int := 1

namespace LogCall

/-- The overloads of `fatal` and of `fatal_noexit` all have the highest level. -/
def level : LogCall → Level
  | debug .. | debugPlain .. => .DEBUG
  | info .. | infoPlain .. => .INFO
  | warn .. | warnPlain .. => .WARN
  | error .. | errorPlain .. => .ERROR
  | critical .. | criticalPlain .. => .CRITICAL
  | fatal .. | fatalPlain .. | fatalCode .. | fatalCodePlain .. | fatalNoexit ..
  | fatalNoexitPlain .. => .FATAL

def actor : LogCall → Bytes
  | debug a _ _ | debugPlain a _ | info a _ _ | infoPlain a _ | warn a _ _ | warnPlain a _
  | error a _ _ | errorPlain a _ | critical a _ _ | criticalPlain a _ | fatal a _ _
  | fatalPlain a _ | fatalCode _ a _ _ | fatalCodePlain _ a _ | fatalNoexit a _ _
  | fatalNoexitPlain a _ => a

def event : LogCall → Bytes
  | debug _ e _ | debugPlain _ e | info _ e _ | infoPlain _ e | warn _ e _ | warnPlain _ e
  | error _ e _ | errorPlain _ e | critical _ e _ | criticalPlain _ e | fatal _ e _
  | fatalPlain _ e | fatalCode _ _ e _ | fatalCodePlain _ _ e | fatalNoexit _ e _
  | fatalNoexitPlain _ e => e

/-- An overload without attributes has none, as if it had been given `{}`. -/
def attrs : LogCall → AttrMap
  | debug _ _ m | info _ _ m | warn _ _ m | error _ _ m | critical _ _ m | fatal _ _ m
  | fatalCode _ _ _ m | fatalNoexit _ _ m => m
  | debugPlain .. | infoPlain .. | warnPlain .. | errorPlain .. | criticalPlain ..
  | fatalPlain .. | fatalCodePlain .. | fatalNoexitPlain .. => .empty

/-- Only `fatal` exits, and only if it is not `fatal_noexit`. -/
def flow : LogCall → ControlFlow
  | fatal .. | fatalPlain .. => .exited EXIT_FAILURE
  | fatalCode c .. | fatalCodePlain c .. => .exited c
  | _ => .returned

/-- The strings a call passes, in the order they are written. -/
def strings (c : LogCall) : List Bytes :=
  c.actor :: c.event :: c.attrs.entries.flatMap fun it => [it.1, it.2]

/-- The byte is in none of the strings. -/
def Free (c : LogCall) (b : UInt8) : Prop := ∀ s ∈ c.strings, b ∉ s

instance (c : LogCall) (b : UInt8) : Decidable (c.Free b) :=
  inferInstanceAs (Decidable (∀ s ∈ c.strings, b ∉ s))

end LogCall

/-- DEBUG and INFO messages go to the first of a backend's two streams. -/
def Level.toOuts : Level → Bool
  | .DEBUG | .INFO => true
  | _ => false

/-! ## The purpose of a logger

The abstract machine the backends implement: a threshold, and the calls that passed it with
their clock readings, in order. -/

/-- A call that passed, with the clock reading it was made at. -/
structure Entry where
  call : LogCall
  now : Time
  deriving DecidableEq

/-- What a logger is for: it keeps the calls that pass the threshold. -/
structure Journal where
  threshold : Level
  entries : List Entry

namespace Journal

def init : Journal := ⟨DEFAULT_LEVEL, []⟩

def step : Op → Journal → ControlFlow × Journal
  | .log c now, j =>
    if j.threshold ≤ c.level then (c.flow, { j with entries := j.entries ++ [⟨c, now⟩] })
    else (.returned, j)
  | .level l, j => (.returned, { j with threshold := l })
  | .close, j => (.returned, j)

end Journal

/-- The calls of a run that passed the threshold in force, up to and including one that
exits. -/
def passed (ops : List Op) : List Entry := (Run.exec Journal.step ops Journal.init).2.entries

/-- How the process is after the operations: running, or ended with a code. -/
def outcome (ops : List Op) : ControlFlow := (Run.exec Journal.step ops Journal.init).1

/-- The entries on the stream of DEBUG and INFO messages. -/
def outsOf (es : List Entry) : List Entry := es.filter (·.call.level.toOuts)

def errsOf (es : List Entry) : List Entry := es.filter (!·.call.level.toOuts)

section Split

variable {es : List Entry} {e : Entry}

/-- One more entry, on one stream or the other: it stands at the end of its own list, and the other
list stays. -/
theorem outsOf_snoc_outs (h : e.call.level.toOuts = true) :
    outsOf (es ++ [e]) = outsOf es ++ [e] := by
  simp [outsOf, h]

theorem errsOf_snoc_outs (h : e.call.level.toOuts = true) :
    errsOf (es ++ [e]) = errsOf es := by
  simp [errsOf, h]

theorem outsOf_snoc_errs (h : e.call.level.toOuts = false) :
    outsOf (es ++ [e]) = outsOf es := by
  simp [outsOf, h]

theorem errsOf_snoc_errs (h : e.call.level.toOuts = false) :
    errsOf (es ++ [e]) = errsOf es ++ [e] := by
  simp [errsOf, h]

/-- If everything is for `outs`, nothing is missing there. -/
theorem outsOf_of_errsOf_nil (h : errsOf es = []) : outsOf es = es := by
  rw [errsOf, List.filter_eq_nil_iff] at h
  rw [outsOf, List.filter_eq_self]
  intro a ha
  simpa using h a ha

/-- The two streams share the records of a run out between them. -/
theorem length_flatMap_split (record : Entry → Bytes) (es : List Entry) :
    (es.flatMap record).length
      = ((outsOf es).flatMap record).length + ((errsOf es).flatMap record).length := by
  -- the two lists together are the entries in another order
  have hperm : (outsOf es ++ errsOf es).Perm es :=
    List.filter_append_perm (fun e : Entry => e.call.level.toOuts) es
  have hlen := (hperm.flatMap_right record).length_eq
  rw [List.flatMap_append, List.length_append] at hlen
  exact hlen.symm

end Split

end Klog
