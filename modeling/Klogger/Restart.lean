import Klogger.Ledger
import Klogger.Recovery

/-!
# Logs across restarts

A program that logs to two files is started again and again, and appends each time. In every
session anything may fail, and the session may end anywhere; no logger is deleted in it.

* A text log: what a session leaves behind the last newline stands in front of the first record of
  the next one, and that is all; every other record has a line of its own (`text_log_restarts`).
* A binary log: what comes first is read, up to the first torn entry; nothing is promised for what
  is behind it (`binary_log_restarts`).
-/

namespace Klog

open TwoStream

/-- One run of a program: the environment it meets, and what it does. It always opens its files for
append, and the process ends without `~FileLogger` and `~BinLogger`: nothing is written but by the
operations. -/
structure Session where
  k : Kernel
  ops : List Op

namespace Session

variable (host : Host) (c : FileBacked) (ino : PathName → Ino) (logfile errfile : PathName)

/-- The system when the session begins, with the files as the last session has left them. -/
def start (files : Ino → Bytes) (s : Session) : Kernel := { s.k with ino := ino, files := files }

/-- The files after the session: append to two files, and do what the program does. -/
def run (files : Ino → Bytes) (s : Session) : Ino → Bytes :=
  (Run.exec (c.vtable host).step s.ops
    (c.openFiles (.two logfile errfile) false (s.start ino files))).2.2.files

def runAll (files : Ino → Bytes) (sessions : List Session) : Ino → Bytes :=
  sessions.foldl (run host c ino logfile errfile) files

end Session

/-! ## One session -/

theorem files_openFile_append (path : PathName) {mode : OpenMode} (hm : mode.trunc = false)
    (x : Ofstream × Kernel) : (Ofstream.openFile path mode x).2.files = x.2.files := by
  rcases Bool.eq_false_or_eq_true (Ofstream.openFile path mode x).1.good with hgood | hbad
  · obtain ⟨fd, _, heq⟩ := Ofstream.openFile_of_good hgood
    rw [heq, hm]
    rfl
  · rw [Ofstream.openFile_of_not_good hbad]
    rfl

/-- A session adds whole records of the entries for the file, in order, and at most a part of one
more. -/
def Part (record : Entry → Bytes) (es : List Entry) (part : List Entry × Bytes) : Prop :=
  ∃ rest, es = part.1 ++ rest ∧ Code.Tail record rest part.2

/-- The bytes of a part. -/
def written (record : Entry → Bytes) (part : List Entry × Bytes) : Bytes :=
  part.1.flatMap record ++ part.2

/-- A beginning of the records, cut where the last whole one ends. -/
theorem exists_part {record : Entry → Bytes} {i : Ino} {k k' : Kernel} {o : Ofstream}
    {es : List Entry} (h : AddsBeginning record i k k' o es) :
    ∃ part, Part record es part ∧ k'.files i = k.files i ++ written record part := by
  obtain ⟨c, hc, hfile, _⟩ := h
  obtain ⟨whole, rest, p, hsplit, rfl, htail⟩ := Code.exists_tail hc
  exact ⟨(whole, p), ⟨rest, hsplit, htail⟩, hfile⟩

/-- A session adds a part to either file. -/
theorem exists_part_run (host : Host) (c : FileBacked) {ino : PathName → Ino}
    {logfile errfile : PathName} (hdiff : ino logfile ≠ ino errfile) (files : Ino → Bytes)
    (s : Session) :
    (∃ part, Part (c.record host) (outsOf (passed s.ops)) part
        ∧ s.run host c ino logfile errfile files (ino logfile)
          = files (ino logfile) ++ written (c.record host) part)
      ∧ ∃ part, Part (c.record host) (errsOf (passed s.ops)) part
        ∧ s.run host c ino logfile errfile files (ino errfile)
          = files (ino errfile) ++ written (c.record host) part := by
  have hbegin : (construct logfile ⟨true, false⟩ errfile ⟨true, false⟩
      (s.start ino files)).2.files = files :=
    (files_openFile_append errfile rfl _).trans (files_openFile_append logfile rfl _)
  obtain ⟨_, houts, herrs⟩ := exec_torn (k := s.start ino files) (c.recorder host)
    (m := ⟨true, false⟩) rfl hdiff s.ops
  obtain ⟨part, hpart, hlog⟩ := exists_part houts
  obtain ⟨part', hpart', herr⟩ := exists_part herrs
  rw [hbegin, c.record_recorder] at hlog herr
  rw [c.record_recorder] at hpart hpart'
  rw [Session.run, openFiles_two, Process.vtable_step]
  exact ⟨⟨part, hpart, hlog⟩, part', hpart', herr⟩

/-! ## All sessions -/

/-- The sessions have each written a part of the file. Induction on the sessions. -/
theorem exists_parts {record : Entry → Bytes} {i : Ino}
    {run : (Ino → Bytes) → Session → Ino → Bytes} (entries : Session → List Entry)
    (hrun : ∀ files s, ∃ part, Part record (entries s) part
      ∧ run files s i = files i ++ written record part)
    (sessions : List Session) (files : Ino → Bytes) :
    ∃ parts, List.Forall₂ (fun s part => Part record (entries s) part) sessions parts
      ∧ sessions.foldl run files i = files i ++ parts.flatMap (written record) := by
  induction sessions generalizing files with
  | nil => exact ⟨[], .nil, (List.append_nil _).symm⟩
  | cons s sessions ih =>
    obtain ⟨part, hpart, hfile⟩ := hrun files s
    obtain ⟨parts, hparts, hlog⟩ := ih (run files s)
    refine ⟨part :: parts, .cons hpart hparts, ?_⟩
    rw [List.foldl_cons, hlog, hfile, List.flatMap_cons, List.append_assoc]

/-- What the sessions leave in the two files. -/
theorem exists_parts_runAll (host : Host) (c : FileBacked) {ino : PathName → Ino}
    {logfile errfile : PathName} (hdiff : ino logfile ≠ ino errfile) {files : Ino → Bytes}
    (hlog : files (ino logfile) = []) (herr : files (ino errfile) = [])
    (sessions : List Session) :
    let files' := Session.runAll host c ino logfile errfile files sessions
    (∃ parts, List.Forall₂ (fun s part => Part (c.record host) (outsOf (passed s.ops)) part)
          sessions parts
        ∧ files' (ino logfile) = parts.flatMap (written (c.record host)))
      ∧ ∃ parts, List.Forall₂ (fun s part => Part (c.record host) (errsOf (passed s.ops)) part)
          sessions parts
        ∧ files' (ino errfile) = parts.flatMap (written (c.record host)) := by
  obtain ⟨parts, hparts, hfile⟩ := exists_parts (fun s => outsOf (passed s.ops))
    (fun files s => (exists_part_run host c hdiff files s).1) sessions files
  obtain ⟨parts', hparts', hfile'⟩ := exists_parts (fun s => errsOf (passed s.ops))
    (fun files s => (exists_part_run host c hdiff files s).2) sessions files
  rw [hlog, List.nil_append] at hfile
  rw [herr, List.nil_append] at hfile'
  exact ⟨⟨parts, hparts, hfile⟩, parts', hparts', hfile'⟩

/-- What holds of all entries of the sessions holds of those in the parts, and of those that a part
is torn from. -/
theorem forall_parts {record : Entry → Bytes} {entries : Session → List Entry}
    {sessions : List Session} {parts : List (List Entry × Bytes)}
    (hparts : List.Forall₂ (fun s part => Part record (entries s) part) sessions parts)
    {P : Entry → Prop} (h : ∀ s ∈ sessions, ∀ e ∈ entries s, P e) :
    ∀ part ∈ parts, ∃ rest, Code.Tail record rest part.2 ∧ (∀ e ∈ part.1, P e)
      ∧ ∀ e ∈ rest, P e := by
  induction hparts with
  | nil => simp
  | cons hpart _ ih =>
    obtain ⟨rest, hsplit, htail⟩ := hpart
    rw [List.forall_mem_cons] at h ⊢
    rw [hsplit] at h
    exact ⟨⟨rest, htail, fun e he => h.1 e (by simp [he]), fun e he => h.1 e (by simp [he])⟩,
      ih h.2⟩

/-! ## Text logs -/

/-- The lines of a log after a number of sessions. Every whole record ends a line of its own, in
order, and there are no other lines; of these lines only as many are more than the record as there
are sessions that have left a torn one. -/
def LinesAcross (host : Host) (log : Bytes) (entries : Session → List Entry)
    (sessions : List Session) : Prop :=
  ∃ parts : List (List Entry × Bytes),
    List.Forall₂ (fun s part => Part (textOf host) (entries s) part) sessions parts
      ∧ List.Forall₂ (fun e line => lineOf host e <:+ line) (parts.flatMap Prod.fst)
          (Split.lines newline log)
      ∧ (((parts.flatMap Prod.fst).zip (Split.lines newline log)).countP
            fun x => lineOf host x.1 != x.2)
          ≤ parts.countP fun part => part.2 != []

/-- A log of parts has the lines of its parts, mended where one part ends inside a line. -/
theorem linesAcross_of_parts {host : Host} {log : Bytes} {entries : Session → List Entry}
    {sessions : List Session} {parts : List (List Entry × Bytes)}
    (hfree : ∀ s ∈ sessions, ∀ e ∈ entries s, e.call.Free newline)
    (hparts : List.Forall₂ (fun s part => Part (textOf host) (entries s) part) sessions parts)
    (hlog : log = parts.flatMap (written (textOf host))) :
    LinesAcross host log entries sessions := by
  -- the same parts, with their lines
  set texts : List (List Bytes × Bytes) :=
    parts.map fun part => (part.1.map (lineOf host), part.2) with htexts
  have hjoined : log = [] ++ Split.joined newline texts := by
    rw [hlog, htexts, Split.joined, List.flatMap_map, List.nil_append]
    refine List.flatMap_congr fun part _ => ?_
    rw [written, flatMap_textOf, List.flatMap_map]
  have hclean : ∀ text ∈ texts, (∀ l ∈ text.1, newline ∉ l) ∧ newline ∉ text.2 := by
    refine List.forall_mem_map.mpr fun part hpart => ?_
    obtain ⟨rest, htail, hwhole, hrest⟩ := forall_parts hparts hfree part hpart
    exact ⟨List.forall_mem_map.mpr fun e he => not_mem_lineOf_iff.mpr (hwhole e he),
      not_mem_of_tail hrest htail⟩
  have hlines : Split.lines newline log = Split.mend [] texts := by
    rw [hjoined]
    exact Split.lines_joined hclean List.not_mem_nil
  have hwhole : texts.flatMap Prod.fst = (parts.flatMap Prod.fst).map (lineOf host) := by
    rw [htexts, List.flatMap_map, List.map_flatMap]
  refine ⟨parts, hparts, ?_, ?_⟩
  · -- what was left over stands in front of a line, so each line ends with its record
    have hsuffix := Split.mend_suffix [] texts
    rw [← hlines, hwhole] at hsuffix
    exact List.forall₂_map_left_iff.mp hsuffix
  · -- a line is changed only by something left over
    have hcount := Split.countP_mend_le [] texts
    rw [← hlines, hwhole, List.zip_map_left, List.countP_map, htexts, List.countP_map, if_pos rfl,
      Nat.add_zero] at hcount
    exact hcount

/-- **Text logs across restarts.** A program with a two-file `FileLogger` is started any number of
times, from empty files, and never logs a newline; anything may fail, at any time. In either file
every whole record ends a line of its own, in the order they were logged, and no other line is
there. At most one line for each session that left a torn record is more than its record. -/
theorem text_log_restarts (host : Host) {ino : PathName → Ino} {logfile errfile : PathName}
    (hdiff : ino logfile ≠ ino errfile) {files : Ino → Bytes} (hlog : files (ino logfile) = [])
    (herr : files (ino errfile) = []) (sessions : List Session)
    (hfree : ∀ s ∈ sessions, ∀ e ∈ passed s.ops, e.call.Free newline) :
    let files' := Session.runAll host .file ino logfile errfile files sessions
    LinesAcross host (files' (ino logfile)) (fun s => outsOf (passed s.ops)) sessions
      ∧ LinesAcross host (files' (ino errfile)) (fun s => errsOf (passed s.ops)) sessions := by
  obtain ⟨⟨parts, hparts, hfile⟩, parts', hparts', hfile'⟩ :=
    exists_parts_runAll host .file hdiff hlog herr sessions
  exact ⟨linesAcross_of_parts (fun s hs e he => hfree s hs e (List.mem_of_mem_filter he)) hparts
      hfile,
    linesAcross_of_parts (fun s hs e he => hfree s hs e (List.mem_of_mem_filter he)) hparts'
      hfile'⟩

/-- A session in which an operation fails, and one in which nothing does. -/
def twoSessions : List Session := [⟨flaky, warnInfo⟩, ⟨calm, justInfo⟩]

theorem text_log_restarts_twoSessions :
    LinesAcross utc
      (Session.runAll utc .file calm.ino [0x61] [0x62, 0x62] (fun _ => []) twoSessions
        (calm.ino [0x61]))
      (fun s => outsOf (passed s.ops)) twoSessions :=
  (text_log_restarts utc (show calm.ino [0x61] ≠ calm.ino [0x62, 0x62] by decide)
    (show (fun _ => [] : Ino → Bytes) (calm.ino [0x61]) = [] from rfl) rfl twoSessions
    (by decide +kernel)).1

/-! ## Binary logs -/

/-- Parts without a torn entry are the records of their entries. -/
theorem written_whole {record : Entry → Bytes} {parts : List (List Entry × Bytes)}
    (h : ∀ part ∈ parts, part.2 = []) :
    parts.flatMap (written record) = (parts.flatMap Prod.fst).flatMap record := by
  rw [List.flatMap_assoc]
  refine List.flatMap_congr fun part hpart => ?_
  rw [written, h part hpart, List.append_nil]

/-- What a reader gets from a log after a number of sessions: everything up to the first torn
entry, and everything if none is torn. -/
def SalvagedAcross (host : Host) (log : Bytes) (entries : Session → List Entry)
    (sessions : List Session) : Prop :=
  ∃ parts : List (List Entry × Bytes),
    List.Forall₂ (fun s part => Part (BinLogger.tlvOf host) (entries s) part) sessions parts
      ∧ (∀ done part later, parts = done ++ part :: later → (∀ d ∈ done, d.2 = []) →
          ((done ++ [part]).flatMap Prod.fst).map BinLogger.logEntry <+: Tlv.salvaged log)
      ∧ ((∀ part ∈ parts, part.2 = []) →
          Tlv.salvaged log = (parts.flatMap Prod.fst).map BinLogger.logEntry)

/-- A log of parts is read up to the first part that is torn. -/
theorem salvagedAcross_of_parts {host : Host} (hhost : host.endian = .little) {log : Bytes}
    {entries : Session → List Entry} {sessions : List Session} {parts : List (List Entry × Bytes)}
    (hfits : ∀ s ∈ sessions, ∀ e ∈ entries s, (BinLogger.logEntry e).Fits)
    (hparts : List.Forall₂ (fun s part => Part (BinLogger.tlvOf host) (entries s) part)
      sessions parts)
    (hlog : log = parts.flatMap (written (BinLogger.tlvOf host))) :
    SalvagedAcross host log entries sessions := by
  have henc : Tlv.emitted .little = Tlv.LogEntry.enc := funext Tlv.emitted_eq
  have hmeasured {parts' : List (List Entry × Bytes)} (hsub : ∀ part ∈ parts', part ∈ parts) :
      ∀ x ∈ (parts'.flatMap Prod.fst).map BinLogger.logEntry, x.Measured := by
    refine List.forall_mem_map.mpr fun e he => ?_
    obtain ⟨part, hpart, he⟩ := List.mem_flatMap.mp he
    obtain ⟨_, _, hwhole, _⟩ := forall_parts hparts hfits part (hsub part hpart)
    exact (hwhole e he).measured
  refine ⟨parts, hparts, fun done part later hsplit hwhole => ?_, fun hwhole => ?_⟩
  · -- up to the first torn entry the log is a row of entries; behind it may stand anything
    have hbegin : log = (((done ++ [part]).flatMap Prod.fst).map BinLogger.logEntry).flatMap
        Tlv.LogEntry.enc ++ (part.2 ++ later.flatMap (written (BinLogger.tlvOf host))) := by
      rw [← henc, ← BinLogger.flatMap_tlvOf hhost, hlog, hsplit, List.flatMap_append,
        List.flatMap_cons, written_whole hwhole, written]
      simp [List.append_assoc]
    rw [hbegin]
    exact Tlv.prefix_salvaged (hmeasured fun d hd => by rw [hsplit]; simp at hd ⊢; tauto) _
  · -- no part is torn, so the log is a row of entries and nothing else
    have hentries : log = ((parts.flatMap Prod.fst).map BinLogger.logEntry).flatMap
        Tlv.LogEntry.enc ++ [] := by
      rw [← henc, ← BinLogger.flatMap_tlvOf hhost, hlog, written_whole hwhole, List.append_nil]
    rw [hentries]
    exact Tlv.salvaged_append (hmeasured fun _ hd => hd) (by simp) (.inl ⟨rfl, rfl⟩)

/-- **Binary logs across restarts.** A program with a two-file `BinLogger` is started any number of
times, from empty files; anything may fail, at any time. Of either file a reader gets the whole
entries up to the first torn one, whatever was appended behind it; if no session has left a torn
entry, it gets the whole entries of all sessions, and no others. -/
theorem binary_log_restarts {host : Host} (hhost : host.endian = .little) {ino : PathName → Ino}
    {logfile errfile : PathName} (hdiff : ino logfile ≠ ino errfile) {files : Ino → Bytes}
    (hlog : files (ino logfile) = []) (herr : files (ino errfile) = []) (sessions : List Session)
    (hfits : ∀ s ∈ sessions, ∀ e ∈ passed s.ops, (BinLogger.logEntry e).Fits) :
    let files' := Session.runAll host .bin ino logfile errfile files sessions
    SalvagedAcross host (files' (ino logfile)) (fun s => outsOf (passed s.ops)) sessions
      ∧ SalvagedAcross host (files' (ino errfile)) (fun s => errsOf (passed s.ops)) sessions := by
  obtain ⟨⟨parts, hparts, hfile⟩, parts', hparts', hfile'⟩ :=
    exists_parts_runAll host .bin hdiff hlog herr sessions
  exact ⟨salvagedAcross_of_parts hhost
      (fun s hs e he => hfits s hs e (List.mem_of_mem_filter he)) hparts hfile,
    salvagedAcross_of_parts hhost
      (fun s hs e he => hfits s hs e (List.mem_of_mem_filter he)) hparts' hfile'⟩

theorem binary_log_restarts_twoSessions :
    SalvagedAcross utc
      (Session.runAll utc .bin calm.ino [0x61] [0x62, 0x62] (fun _ => []) twoSessions
        (calm.ino [0x61]))
      (fun s => outsOf (passed s.ops)) twoSessions :=
  (binary_log_restarts (show utc.endian = .little from rfl)
    (show calm.ino [0x61] ≠ calm.ino [0x62, 0x62] by decide)
    (show (fun _ => [] : Ino → Bytes) (calm.ino [0x61]) = [] from rfl) rfl twoSessions
    (by decide +kernel)).1

end Klog
