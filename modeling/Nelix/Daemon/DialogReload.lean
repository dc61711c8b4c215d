import Nelix.Core.Dict
import Nelix.Daemon.DialogTail

/-!
# The dialog read back

The reader of a session that is no longer live, on the file that the live dialog wrote.

## Main results

`DialogReading.reload_same`: it answers as the dialog did.
-/
namespace Nelix.Daemon

open Contracts Core Core.JsonText
open Lined (newline)

/-- `sys.maxsize`, the most items of a list. -/
def maxSize : ℕ := 2 ^ 63 - 1

variable {α β : Type} [Lined α] [DecidableEq α] [Voiced β]

/-! ### The reader -/

/-- A decoded line of `transcript.jsonl`; one that is no dict raises, and so does a text that is
no str, at its length or in the join. -/
def DialogRecord.ofDocument : Document → Outcome (DialogRecord CodePoint Document)
  | .object fields =>
    let row := Dict.ofFields fields
    match (row.get? (.ofString "text")).getD (.text []) with
    | .text text =>
      .ok ⟨(row.get? (.ofString "speaker")).getD (.text (.ofString "agent")), text⟩
    | _ => .error .typeError
  | _ => .error .attributeError

/-- The records of the lines; none from a line on that is not JSON. -/
def readRecords (room : ℕ) : List Text → Outcome (Option (List (DialogRecord CodePoint Document)))
  | [] => .ok (some [])
  | raw :: rest =>
    match loadsText room raw with
    | none => .ok none
    | some document => do
      let record ← DialogRecord.ofDocument document
      let records ← readRecords room rest
      return records.map (record :: ·)

/-- `DialogReader(session_dir)` where the file has this content, and none where it cannot be
opened. -/
def DialogReader.load (room : ℕ) (content : Option Text) :
    Outcome (DialogReader CodePoint Document) :=
  match content with
  | none => .ok ⟨none⟩
  | some content => (readRecords room (fileLines content)).map DialogReader.mk

/-- A page of the reader says whether there was a file. -/
structure ReaderPage (α β : Type) extends DialogPage α β where
  unavailable : Bool

def DialogReader.page (share : ℕ → ℕ) (reader : DialogReader α β) (offset : ℤ) (limit : Option ℤ)
    (snap : Bool) : Outcome (ReaderPage α β) :=
  if offset < 0 then .error .valueError
  else if limit.any (· ≤ 0) then .error .valueError
  else
    match reader.records with
    | none => .ok ⟨⟨[], offset.toNat, 0, Voiced.agent, false, 0⟩, true⟩
    | some records => .ok ⟨pageAt share records snap offset.toNat (limit.map Int.toNat), false⟩

def DialogReader.since (share : ℕ → ℕ) (reader : DialogReader α β) (offset : ℤ)
    (limit : Option ℤ) : Outcome (ReaderPage α β) := reader.page share offset limit true

def Dialog.since (share : ℕ → ℕ) (d : Dialog) (offset : ℤ) (limit : Option ℤ) :
    Outcome (DialogPage CodePoint Document) := d.page share offset limit true

/-- The reader answers every page, tail and anchor as the dialog does; its pages also say that there
is a file. -/
structure DialogReader.Answers (share : ℕ → ℕ) (reader : DialogReader CodePoint Document)
    (d : Dialog) : Prop where
  page : ∀ offset limit snap, reader.page share offset limit snap =
    (d.page share offset limit snap).map fun page => ⟨page, false⟩
  since : ∀ offset limit, reader.since share offset limit =
    (d.since share offset limit).map fun page => ⟨page, false⟩
  tail : ∀ maxChars, reader.tail maxChars = d.tail maxChars

/-- A reader of the same records answers the same. -/
theorem DialogReader.page_same (share : ℕ → ℕ) (records : List (DialogRecord α β)) (offset : ℤ)
    (limit : Option ℤ) (snap : Bool) :
    DialogReader.page share ⟨some records⟩ offset limit snap =
      (dialogPage share records snap offset limit).map fun page => ⟨page, false⟩ := by
  unfold DialogReader.page dialogPage
  split
  · rfl
  · split <;> rfl

/-! ### The lines of a dialog -/

namespace DialogEntry

variable {entry : DialogEntry}

/-- The fields of a line, as they are written and as they are read. -/
def fields (entry : DialogEntry) (short : Short entry.idx) : List Field :=
  [("idx", Nat.toDigits 10 entry.idx, .int entry.idx short),
    ("kind", writeText (.ofString entry.kind.name), .text (.ofString entry.kind.name)),
    ("speaker", writeText (.ofString entry.speaker.name), .text (.ofString entry.speaker.name)),
    ("text", writeText entry.text, .text entry.text)]

theorem fields_reads (short : Short entry.idx) (unpaired : entry.text.Unpaired) (room : ℕ) :
    ∀ field ∈ entry.fields short, Reads room field.2.1 field.2.2 := by
  have digits : writeInt entry.idx = some (Nat.toDigits 10 entry.idx) := by
    rw [writeInt, if_pos short, if_neg (by omega), Int.natAbs_natCast]
  simp only [fields, List.mem_cons, List.not_mem_nil, or_false, forall_eq_or_imp, forall_eq]
  exact ⟨Reads.int room digits short, Reads.text room (Text.ofString_unpaired _),
    Reads.text room (Text.ofString_unpaired _), Reads.text room unpaired⟩

theorem printable_dumps : Printable entry.dumps := by
  refine printable_writeSpaced fun field among => ?_
  simp only [List.mem_cons, List.not_mem_nil, or_false] at among
  rcases among with rfl | rfl | rfl | rfl
  · exact printable_toDigits _
  all_goals exact printable_writeText _

/-- A line is read as the record that was written. -/
theorem loads_dumps (short : Short entry.idx) (unpaired : entry.text.Unpaired) (room : ℕ) :
    ∃ document, loadsText (room + 1) (entry.dumps.map .char) = some document ∧
      DialogRecord.ofDocument document = .ok entry.record := by
  have filled : entry.fields short ≠ [] := List.cons_ne_nil _ _
  refine ⟨_, loadsText_spaced filled (fields_reads short unpaired room), ?_⟩
  have keys : (((entry.fields short).map Field.read).map Prod.fst).Nodup := by
    simp only [fields, Field.read, List.map_cons, List.map_nil]
    decide
  have read (row : Text × Document) (among : row ∈ (entry.fields short).map Field.read) :
      (Dict.ofFields ((entry.fields short).map Field.read)).get? row.1 = some row.2 :=
    Dict.get?_setAll_mem keys among _
  have text := read (.ofString "text", .text entry.text) (by simp [fields, Field.read])
  have speaker := read (.ofString "speaker", .text (.ofString entry.speaker.name))
    (by simp [fields, Field.read])
  simp only [DialogRecord.ofDocument, text, speaker, Option.getD_some]
  rfl

end DialogEntry

theorem readRecords_dumps {room : ℕ} {entries : List DialogEntry}
    (short : ∀ entry ∈ entries, Short entry.idx)
    (unpaired : ∀ entry ∈ entries, entry.text.Unpaired) :
    readRecords (room + 1) (entries.map fun entry => entry.dumps.map .char) =
      .ok (some (entries.map DialogEntry.record)) := by
  induction entries with
  | nil => rfl
  | cons entry rest ih =>
    obtain ⟨document, loaded, record⟩ :=
      DialogEntry.loads_dumps (short entry (by simp)) (unpaired entry (by simp)) room
    have later := ih (fun entry among => short entry (List.mem_cons_of_mem _ among))
      fun entry among => unpaired entry (List.mem_cons_of_mem _ among)
    rw [List.map_cons, readRecords, loaded]
    simp only [record, later]
    rfl

/-- The file of a dialog is read back as its records. -/
theorem Dialog.Laid.reload {d : Dialog} (laid : d.Laid) (inMemory : d.records.length ≤ maxSize)
    (unpaired : ∀ entry ∈ d.records, entry.text.Unpaired) (room : ℕ) :
    DialogReader.load (room + 1) (some (d.jsonl.map .char)) =
      .ok ⟨some (d.records.map DialogEntry.record)⟩ := by
  have lines : fileLines (d.jsonl.map .char) =
      d.records.map fun entry => entry.dumps.map .char := by
    have written : d.jsonl = (d.records.map DialogEntry.dumps).flatMap fun line =>
        line ++ ['\n'] := by
      rw [laid.written, List.flatMap_map]
    rw [written, fileLines_written]
    · rw [List.map_map]
      rfl
    · intro line among
      obtain ⟨entry, -, rfl⟩ := List.mem_map.mp among
      exact entry.printable_dumps
    · intro line among
      obtain ⟨entry, -, rfl⟩ := List.mem_map.mp among
      exact ⟨_, rfl⟩
  have short : ∀ entry ∈ d.records, Short entry.idx := by
    intro entry among
    have numbered : entry.idx ∈ List.range d.records.length :=
      laid.numbered ▸ List.mem_map_of_mem among
    have below : entry.idx < 10 ^ 19 := by
      have inside := List.mem_range.mp numbered
      simp only [maxSize] at inMemory
      omega
    have few := (Nat.length_toDigits_le_iff (by decide) (by decide)).mpr below
    change (Nat.toDigits 10 (entry.idx : ℤ).natAbs).length ≤ maxDigits
    rw [Int.natAbs_natCast]
    exact few.trans (by decide)
  simp only [DialogReader.load, lines, readRecords_dumps short unpaired]
  rfl

/-- Whatever was appended, so long as no text has the two halves of a character side by side, the
reader of the file answers as the dialog does. -/
theorem DialogReading.reload_same (share : ℕ → ℕ) (moves : List DialogMove) (room : ℕ)
    (inMemory : (dialogAfter share moves).records.length ≤ maxSize)
    (unpaired : ∀ entry ∈ (dialogAfter share moves).records, entry.text.Unpaired) :
    ∃ reader, DialogReader.load (room + 1) (some ((dialogAfter share moves).jsonl.map .char)) =
        .ok reader ∧ reader.Answers share (dialogAfter share moves) := by
  have laid := (followed_after share moves).kept.laid
  exact ⟨_, laid.reload inMemory unpaired room,
    fun offset limit snap => DialogReader.page_same share _ offset limit snap,
    fun offset limit => DialogReader.page_same share _ offset limit true, fun _ => rfl⟩

/-- An answer of two lines, the second empty. -/
theorem DialogReading.reload_same_lines :
    ∃ reader, DialogReader.load 1
        (some ((dialogAfter id [.appendUserInput (.ofString "go\n")]).jsonl.map .char)) =
        .ok reader ∧ reader.Answers id (dialogAfter id [.appendUserInput (.ofString "go\n")]) :=
  DialogReading.reload_same id [.appendUserInput (.ofString "go\n")] 0 (by decide +kernel)
    (by decide +kernel)

/-- The halves of a character side by side come back as the character. -/
theorem DialogReading.reload_joins :
    ¬ ∃ reader, DialogReader.load 1
        (some ((dialogAfter id [.addAgentLine [.high 0, .low 0]]).jsonl.map .char)) =
        .ok reader ∧
      reader.tail none = (dialogAfter id [.addAgentLine [.high 0, .low 0]]).tail none := by
  rintro ⟨reader, loaded, same⟩
  have length := congrArg DialogTail.totalLen same
  have joined : ((DialogReader.load 1
      (some ((dialogAfter id [.addAgentLine [.high 0, .low 0]]).jsonl.map .char))).map
        fun reader => (reader.tail none).totalLen).toOption = some 9 := by
    decide +kernel
  rw [loaded] at joined
  have read : (reader.tail none).totalLen = 9 := Option.some.inj joined
  rw [read] at length
  revert length
  decide +kernel

end Nelix.Daemon
