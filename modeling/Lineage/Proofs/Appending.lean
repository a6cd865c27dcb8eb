import Lineage.Proofs.Completion
import Lineage.Proofs.Listing

/-!
# Appending to a file that holds something

A file of records may hold any text before something is appended to it. That text stays as it is,
and behind it there is a line end for every element. So all lines but the first one that is added
are those of records, whatever the text was; the first one goes on the line that was left open
(`Graph.RecordFile.openLine`). If there are blanks only on that line then the record is read from it
all the same, and otherwise nothing is (`Graph.Record.decode_append_eq_ok_iff`): a record that
breaks off is not ended by another one behind it. Thus the lines that are added are read as the
records of their elements if and only if the file was closed, blanks aside
(`Graph.RecordFile.appending_submitAll`).
-/

namespace Lineage

open Lineage.Json

/-! ### Blanks in front of a value -/

namespace Json

/-- A refusal for the type is told of the text behind its blanks. -/
theorem refuseType_congr {α : Type} {text text' : List Char}
    (h : dropBlanks text = dropBlanks text') :
    (refuseType text : Except Refusal α) = refuseType text' := by
  unfold refuseType
  rw [h]

/-- Records are read behind blanks. -/
theorem readRecord_congr {fields : List Field} {text text' : List Char}
    (h : dropBlanks text = dropBlanks text') :
    readRecord fields text = readRecord fields text' := by
  unfold readRecord
  rw [h, refuseType_congr h]

/-- So is what a text may end with. -/
theorem expectEnd_congr {text text' : List Char} (h : dropBlanks text = dropBlanks text') :
    expectEnd text = expectEnd text' := by
  unfold expectEnd
  rw [skipValue_congr h]

/-- A text that is decoded ends behind a value. -/
theorem expectEnd_of_decode {α : Type} {reader : Reader α} {text : List Char} {a : α}
    (h : decode reader text = .ok a) : expectEnd text = .ok () := by
  unfold decode at h
  split at h
  next => cases h
  next =>
    -- The reader has accepted the text, so only its end could be refused.
    cases hend : expectEnd text with
    | error fault =>
      rw [hend] at h
      cases h
    | ok => rfl

end Json

namespace Graph

namespace Record

variable (record : Record)

/-- Blanks in front of a record make no difference. -/
theorem decode_append_blanks {blanks : List Char} (hblanks : AreBlanks blanks) :
    decode reader (blanks ++ record.toJson.render) = .ok record := by
  have hdrop := dropBlanks_append hblanks record.toJson.render
  have hsame : decode reader (blanks ++ record.toJson.render) =
      decode reader record.toJson.render := by
    unfold decode reader
    rw [readRecord_congr hdrop, expectEnd_congr hdrop]
  exact hsame.trans record.decode_toJson

/-- **A record is read behind blanks, and behind nothing else.** -/
theorem decode_append_eq_ok_iff {front : List Char} {read : Record} :
    decode reader (front ++ record.toJson.render) = .ok read ↔ AreBlanks front ∧ read = record := by
  constructor
  · intro hdecode
    -- Its first key is what a string in front of it would leave.
    have hfront : AreBlanks front :=
      areBlanks_of_expectEnd record.isSpelt_toJson rfl
        ⟨'k', _, rfl, by decide, by decide, by decide, by decide⟩ (expectEnd_of_decode hdecode)
    exact ⟨hfront, Except.ok.inj (hdecode.symm.trans (record.decode_append_blanks hfront))⟩
  · rintro ⟨hfront, rfl⟩
    exact read.decode_append_blanks hfront

end Record

/-! ### Files that hold something -/

namespace RecordFile

/-- What stands behind the last line end of a file. -/
def openLine (file : RecordFile) : List Char :=
  (file.written.toList.splitOn '\n').getLast?.getD []

/-- A text is some lines with their line ends, and what stands behind the last of these. -/
theorem exists_lines (text : List Char) : ∃ (lines : List (List Char)) (last : List Char),
    (∀ line ∈ lines, '\n' ∉ line) ∧ '\n' ∉ last ∧ text = lines.flatMap (· ++ ['\n']) ++ last := by
  induction hlength : text.length using Nat.strong_induction_on generalizing text with
  | _ n ih =>
    by_cases hend : '\n' ∈ text
    · -- The first line is cut off, and the rest is shorter.
      obtain ⟨line, rest, rfl, hline⟩ := List.eq_append_cons_of_mem hend
      have hshorter : rest.length < n := by
        rw [← hlength, List.length_append, List.length_cons]
        omega
      obtain ⟨lines, last, hlines, hlast, rfl⟩ := ih _ hshorter rest rfl
      refine ⟨line :: lines, last, List.forall_mem_cons.2 ⟨hline, hlines⟩, hlast, ?_⟩
      rw [List.flatMap_cons, List.append_assoc, List.append_assoc, List.singleton_append]
    · -- No line ends: all of the text is open.
      exact ⟨[], text, nofun, hend, rfl⟩

/-- A file is its lines and the line that is open. -/
theorem toList_written (file : RecordFile) : (∀ line ∈ file.lines, '\n' ∉ line) ∧
    '\n' ∉ file.openLine ∧
      file.written.toList = file.lines.flatMap (· ++ ['\n']) ++ file.openLine := by
  obtain ⟨lines, last, hlines, hlast, htext⟩ := exists_lines file.written.toList
  have hsplit : file.written.toList.splitOn '\n' = lines ++ [last] := by
    rw [htext]
    exact splitOn_flatMap_lines hlines hlast
  have hclosed : file.lines = lines := by rw [RecordFile.lines, hsplit, List.dropLast_concat]
  have hopen : file.openLine = last := by
    rw [openLine, hsplit, List.getLast?_concat]
    rfl
  rw [hclosed, hopen]
  exact ⟨hlines, hlast, htext⟩

/-- **The first element goes on the open line**, every other one has a line of its own, and nothing
is left open. -/
theorem splitOn_submitAll_cons (prior : String) (first : Element) (later : List Element) :
    let file := opened prior
    (Sink.flush (Sink.submitAll file (first :: later)).1).1.written.toList.splitOn '\n' =
      file.lines ++ (file.openLine ++ first.record.toJson.render) ::
        later.map (fun element => element.record.toJson.render) ++ [[]] := by
  intro file
  obtain ⟨hlines, hopen, htext⟩ := file.toList_written
  have hrecord (element : Element) : '\n' ∉ element.record.toJson.render :=
    element.record.newline_notMem_render
  -- The first record closes the open line, and neither part of it has a line end inside.
  have hall : ∀ line ∈ file.lines ++ (file.openLine ++ first.record.toJson.render) ::
      later.map (fun element => element.record.toJson.render), '\n' ∉ line := by
    simp only [List.forall_mem_append, List.forall_mem_cons, List.forall_mem_map]
    exact ⟨hlines, fun hmem => (List.mem_append.1 hmem).elim hopen (hrecord first),
      fun element _ => hrecord element⟩
  change prior.toList = _ at htext
  rw [← splitOn_flatMap_lines hall List.not_mem_nil, toList_written_flush, htext]
  congr 1
  simp only [List.flatMap_append, List.flatMap_cons, List.flatMap_map, List.append_assoc,
    List.append_nil]

/-- **Appending keeps one record per line if the file was closed.** What the file held stays at its
start. Behind its lines there are as many further ones as elements, and nothing behind the last
line end. All of these but the first are read as the records of their elements, in their order. The
first one is read as the record of its element if there were nothing but blanks behind the last
line end before, and otherwise as no record; so all are read as the records of the elements if and
only if there were. -/
theorem appending_submitAll (prior : String) (first : Element) (later : List Element) :
    let file := opened prior
    let appended := (Sink.flush (Sink.submitAll file (first :: later)).1).1
    prior.toList <+: appended.written.toList ∧
      appended.written.toList.splitOn '\n' = appended.lines ++ [[]] ∧
      ∃ begun rest, appended.lines = file.lines ++ begun :: rest ∧
        rest.map (decode Record.reader) = later.map (fun element => .ok element.record) ∧
        (∀ record, decode Record.reader begun = .ok record ↔ AreBlanks file.openLine ∧
          record = first.record) ∧
        ((begun :: rest).map (decode Record.reader) =
            (first :: later).map (fun element => .ok element.record) ↔
          AreBlanks file.openLine) := by
  intro file appended
  have hsplit : appended.written.toList.splitOn '\n' = _ := splitOn_submitAll_cons prior first later
  have hlines : appended.lines = file.lines ++ (file.openLine ++ first.record.toJson.render) ::
      later.map (fun element => element.record.toJson.render) := by
    rw [lines, hsplit, List.dropLast_concat]
  -- Behind the first record every line is that of one element alone.
  have hrest : (later.map fun element => element.record.toJson.render).map (decode Record.reader) =
      later.map fun element => .ok element.record := by
    rw [List.map_map]
    exact List.map_congr_left fun element _ => element.record.decode_toJson
  have hbegun : ∀ record,
      decode Record.reader (file.openLine ++ first.record.toJson.render) = .ok record ↔
        AreBlanks file.openLine ∧ record = first.record :=
    fun _ => first.record.decode_append_eq_ok_iff
  refine ⟨?_, ?_, _, _, hlines, hrest, hbegun, ?_⟩
  · exact ⟨_, (toList_written_flush prior (first :: later)).symm⟩
  · rw [hsplit, hlines]
  · -- The later lines are right in any case, so it depends on the first.
    rw [List.map_cons, List.map_cons, hrest, List.cons.injEq, hbegun]
    simp only [and_true]

/-- A file that breaks off inside a string: the record of an agent goes on the same line, which is
no record then. -/
theorem appending_submitAll_unfinished :
    let file := opened "\x7b\"kind\":\"Ag"
    let agent : Element := .vertex ((Node.bare "agent:1:0").toVertex .agent)
    let line :=
      "\x7b\"kind\":\"Ag\x7b\"kind\":\"Agent\",\"hash\":\"agent:1:0\",\"annotations\":\x7b\x7d\x7d"
    (Sink.flush (Sink.submitAll file [agent]).1).1.written = line ++ "\n" ∧
      ∀ record, decode Record.reader line.toList ≠ .ok record := by
  intro file agent line
  refine ⟨by decide +kernel, fun record hdecode => ?_⟩
  have hline : line.toList = file.openLine ++ agent.record.toJson.render := by decide +kernel
  rw [hline] at hdecode
  -- The brace that is open is no blank.
  have hblanks := (agent.record.decode_append_eq_ok_iff.1 hdecode).1
  exact absurd (hblanks '\x7b' (by decide +kernel)) (by decide)

end RecordFile

end Graph

end Lineage
