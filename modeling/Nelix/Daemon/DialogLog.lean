import Nelix.Core.JsonLines
import Nelix.Core.Machine
import Nelix.Daemon.Dialog

/-!
# The live dialog

The records of a session as they are appended, with the offsets that are kept beside them, and a
reader that follows `next_offset` while the dialog grows.

## Main results

`DialogReading.pages_follow`: the pages make up the flat text as far as the reader has come, and the
next read is answered.
-/
namespace Nelix.Daemon

open Contracts Core
open Lined (newline)

/-! ### Appending -/

/-- `kind` -/
inductive RecordKind
  | line
  | marker
  deriving DecidableEq

inductive Speaker
  | agent
  | user
  deriving DecidableEq

def RecordKind.name : RecordKind → String
  | line => "line"
  | marker => "marker"

def Speaker.name : Speaker → String
  | agent => "agent"
  | user => "user"

/-- A record of the live dialog. -/
structure DialogEntry where
  idx : ℕ
  kind : RecordKind
  speaker : Speaker
  text : Text

instance : Voiced JsonText.Document := ⟨.text (.ofString "agent")⟩

/-- What a page looks at. -/
def DialogEntry.record (entry : DialogEntry) : DialogRecord CodePoint JsonText.Document :=
  ⟨.text (.ofString entry.speaker.name), entry.text⟩

/-- `json.dumps(rec)` -/
def DialogEntry.dumps (entry : DialogEntry) : List Char :=
  JsonText.writeSpaced
    [("idx", Nat.toDigits 10 entry.idx), ("kind", JsonText.writeText (.ofString entry.kind.name)),
      ("speaker", JsonText.writeText (.ofString entry.speaker.name)),
      ("text", JsonText.writeText entry.text)]

/-- `Dialog`; `jsonl` is what has been written to `transcript.jsonl`. -/
structure Dialog where
  records : List DialogEntry := []
  flatLen : ℕ := 0
  currentSpeaker : Option Speaker := none
  lastUserInputOffset : ℕ := 0
  lastAgentMarkerOffset : ℕ := 0
  jsonl : List Char := []

namespace Dialog

/-- The offset a record gets that is appended now. -/
def startOffset (d : Dialog) : ℕ := if d.records = [] then 0 else d.flatLen + 1

/-- A turn of the loop of `_append_record`. -/
def appendLine (d : Dialog) (kind : RecordKind) (speaker : Speaker) (line : Text) : Dialog :=
  let entry : DialogEntry := ⟨d.records.length, kind, speaker, line⟩
  { d with
    records := d.records ++ [entry]
    flatLen := d.startOffset + line.length
    jsonl := d.jsonl ++ entry.dumps ++ ['\n'] }

/-- The first line keeps the kind. -/
def appendLines (d : Dialog) (kind : RecordKind) (speaker : Speaker) : List Text → Dialog
  | [] => d
  | line :: rest => (d.appendLine kind speaker line).appendLines .line speaker rest

/-- `_append_record`; a text without a newline is the only line of its split. -/
def appendRecord (d : Dialog) (kind : RecordKind) (speaker : Speaker) (text : Text) : ℕ × Dialog :=
  (d.startOffset, d.appendLines kind speaker (text.splitOn newline))

/-- The lines of an input after its first. -/
def appendUserLines (d : Dialog) (lines : List Text) : Dialog :=
  lines.foldl (fun d line => (d.appendRecord .line .user line).2) d

def appendUserInput (d : Dialog) (text : Text) : ℕ × Dialog :=
  let lines := text.splitOn newline
  let (offset, d) := d.appendRecord .marker .user (.ofString "» " ++ lines.headD [])
  let d := d.appendUserLines lines.tail
  (offset, { d with currentSpeaker := some .user, lastUserInputOffset := offset })

/-- The marker that a span of the agent begins with. -/
def enterAgentSpan (d : Dialog) : Dialog :=
  if d.currentSpeaker ≠ some .agent then
    let (offset, d) := d.appendRecord .marker .agent (.ofString "‹agent›")
    { d with currentSpeaker := some .agent, lastAgentMarkerOffset := offset }
  else d

def addAgentLine (d : Dialog) (text : Text) : Dialog :=
  (d.enterAgentSpan.appendRecord .line .agent text).2

def flatText (d : Dialog) : Text := Daemon.flatText (d.records.map DialogEntry.record)

def page (share : ℕ → ℕ) (d : Dialog) (offset : ℤ) (limit : Option ℤ) (snap : Bool) :
    Outcome (DialogPage CodePoint JsonText.Document) :=
  dialogPage share (d.records.map DialogEntry.record) snap offset limit

/-- The texts of the records. -/
def texts (d : Dialog) : List Text := d.records.map DialogEntry.text

theorem flatText_eq (d : Dialog) : d.flatText = List.intercalate [newline] d.texts := by
  rw [flatText, Daemon.flatText, List.map_map]
  rfl

end Dialog

/-! ### What is kept beside the records -/

/-- A span of the speaker begins here. -/
def DialogEntry.Marks (speaker : Speaker) (entry : DialogEntry) : Prop :=
  entry.kind = .marker ∧ entry.speaker = speaker

/-- The offset is where the last marker of the speaker starts, and zero before there is one. -/
def Anchored (records : List DialogEntry) (speaker : Speaker) (offset : ℕ) : Prop :=
  (∀ entry ∈ records, ¬ entry.Marks speaker) ∧ offset = 0 ∨
    ∃ before entry after, records = before ++ entry :: after ∧ entry.Marks speaker ∧
      (∀ entry ∈ after, ¬ entry.Marks speaker) ∧
      offset = Lines.start (records.map DialogEntry.text) before.length

namespace Anchored

variable {records more : List DialogEntry} {speaker : Speaker} {offset : ℕ}

theorem append (anchored : Anchored records speaker offset)
    (unmarked : ∀ entry ∈ more, ¬ entry.Marks speaker) :
    Anchored (records ++ more) speaker offset := by
  rcases anchored with ⟨bare, rfl⟩ | ⟨before, entry, after, rfl, marks, last, rfl⟩
  · refine .inl ⟨fun entry member => ?_, rfl⟩
    rcases List.mem_append.mp member with here | later
    · exact bare entry here
    · exact unmarked entry later
  · refine .inr ⟨before, entry, after ++ more, by simp, marks, fun entry member => ?_, ?_⟩
    · rcases List.mem_append.mp member with here | later
      · exact last entry here
      · exact unmarked entry later
    · have shorter : before.length ≤ ((before ++ entry :: after).map DialogEntry.text).length := by
        simp
      rw [← Lines.start_append shorter, ← List.map_append]

/-- A marker that is appended is the last one. -/
theorem last {entry : DialogEntry} (marks : entry.Marks speaker)
    (unmarked : ∀ entry ∈ more, ¬ entry.Marks speaker)
    (start : offset = Lines.start (records.map DialogEntry.text) records.length) :
    Anchored (records ++ entry :: more) speaker offset := by
  refine .inr ⟨records, entry, more, rfl, marks, unmarked, ?_⟩
  rw [start, List.map_append, Lines.start_append (by simp)]

end Anchored

namespace Dialog

variable {d d' : Dialog} {kind : RecordKind} {speaker : Speaker} {text : Text} {lines : List Text}

/-- The records are numbered, one line each, of the length that is kept, and in the file. -/
structure Laid (d : Dialog) : Prop where
  numbered : d.records.map DialogEntry.idx = List.range d.records.length
  bare : ∀ line ∈ d.texts, newline ∉ line
  length : d.flatLen = d.flatText.length
  written : d.jsonl = d.records.flatMap fun entry => entry.dumps ++ ['\n']

/-- A record was appended, maybe in several lines. -/
structure Appended (d : Dialog) (kind : RecordKind) (speaker : Speaker) (d' : Dialog) : Prop where
  laid : d'.Laid
  records : ∃ first more, d'.records = d.records ++ first :: more ∧ first.kind = kind ∧
    first.speaker = speaker ∧ ∀ entry ∈ more, entry.kind = .line
  user : d'.lastUserInputOffset = d.lastUserInputOffset
  agent : d'.lastAgentMarkerOffset = d.lastAgentMarkerOffset

theorem startOffset_eq (laid : d.Laid) :
    d.startOffset = Lines.start (d.records.map DialogEntry.text) d.records.length := by
  unfold startOffset
  split
  · rename_i empty
    rw [empty]
    rfl
  · rename_i filled
    have some : d.texts ≠ [] := by simpa [texts] using filled
    rw [laid.length, flatText_eq, Lines.length_intercalate some, texts, List.length_map]

theorem appendLine_laid (laid : d.Laid) {line : Text} (bare : newline ∉ line) :
    (d.appendLine kind speaker line).Laid := by
  have added : (d.appendLine kind speaker line).texts = d.texts ++ [line] := by
    simp [texts, appendLine]
  refine ⟨?_, ?_, ?_, ?_⟩
  · simp [appendLine, laid.numbered, List.range_succ]
  · rw [added]
    intro other member
    rcases List.mem_append.mp member with here | last
    · exact laid.bare other here
    · rwa [List.mem_singleton.mp last]
  · rw [flatText_eq, added]
    change d.startOffset + line.length = _
    unfold startOffset
    split
    · rename_i empty
      rw [texts, empty]
      simp
    · rename_i filled
      have some : d.texts ≠ [] := by simpa [texts] using filled
      rw [Lines.intercalate_append some (by simp), ← flatText_eq, List.intercalate_singleton,
        List.length_append, List.length_cons, laid.length]
      omega
  · simp [appendLine, laid.written]

theorem appendLines_laid (laid : d.Laid) (bare : ∀ line ∈ lines, newline ∉ line) :
    (d.appendLines kind speaker lines).Laid := by
  induction lines generalizing d kind with
  | nil => exact laid
  | cons line rest ih =>
    exact ih (appendLine_laid laid (bare line (by simp)))
      fun line later => bare line (List.mem_cons_of_mem _ later)

theorem appendLines_line (d : Dialog) (speaker : Speaker) (lines : List Text) :
    ∃ more, (d.appendLines .line speaker lines).records = d.records ++ more ∧
      ∀ entry ∈ more, entry.kind = .line := by
  induction lines generalizing d with
  | nil => exact ⟨[], by simp [appendLines], by simp⟩
  | cons line rest ih =>
    obtain ⟨more, added, lines⟩ := ih (d.appendLine .line speaker line)
    refine ⟨⟨d.records.length, .line, speaker, line⟩ :: more, ?_, ?_⟩
    · rw [appendLines, added]
      simp [appendLine]
    · simpa using lines

@[simp] theorem appendLines_offsets :
    (d.appendLines kind speaker lines).lastUserInputOffset = d.lastUserInputOffset ∧
      (d.appendLines kind speaker lines).lastAgentMarkerOffset = d.lastAgentMarkerOffset := by
  induction lines generalizing d kind with
  | nil => exact ⟨rfl, rfl⟩
  | cons line rest ih => exact ih

theorem appendRecord_appended (laid : d.Laid) (kind : RecordKind) (speaker : Speaker)
    (text : Text) : d.Appended kind speaker (d.appendRecord kind speaker text).2 := by
  obtain ⟨first, rest, cut⟩ :=
    List.exists_cons_of_ne_nil (List.splitOn_ne_nil (newline : CodePoint) text)
  refine ⟨appendLines_laid laid (Lines.bare_splitOn text), ?_, appendLines_offsets.1,
    appendLines_offsets.2⟩
  obtain ⟨more, added, lines⟩ := appendLines_line (d.appendLine kind speaker first) speaker rest
  refine ⟨⟨d.records.length, kind, speaker, first⟩, more, ?_, rfl, rfl, lines⟩
  rw [appendRecord, cut, appendLines, added]
  simp [appendLine]

theorem texts_appendLines (d : Dialog) (kind : RecordKind) (speaker : Speaker)
    (lines : List Text) : (d.appendLines kind speaker lines).texts = d.texts ++ lines := by
  induction lines generalizing d kind with
  | nil => exact (List.append_nil _).symm
  | cons line rest ih =>
    have first : (d.appendLine kind speaker line).texts = d.texts ++ [line] := by
      simp [texts, appendLine]
    rw [appendLines, ih, first, List.append_assoc, List.singleton_append]

theorem texts_appendRecord (d : Dialog) (kind : RecordKind) (speaker : Speaker) (text : Text) :
    (d.appendRecord kind speaker text).2.texts = d.texts ++ text.splitOn newline :=
  texts_appendLines d kind speaker _

theorem texts_appendUserLines (d : Dialog) (bare : ∀ line ∈ lines, newline ∉ line) :
    (d.appendUserLines lines).texts = d.texts ++ lines := by
  induction lines generalizing d with
  | nil => exact (List.append_nil _).symm
  | cons line rest ih =>
    -- a line of a split is the only line of its own split
    have alone : line.splitOn newline = [line] := List.splitOn_eq_singleton (bare line (by simp))
    have first := texts_appendRecord d .line .user line
    rw [alone] at first
    have later := ih (d.appendRecord .line .user line).2
      fun other member => bare other (List.mem_cons_of_mem _ member)
    rw [first, List.append_assoc, List.singleton_append] at later
    exact later

/-- An input is its lines, with the mark before the first. -/
theorem texts_appendUserInput (d : Dialog) {line : Text} {rest : List Text}
    (cut : text.splitOn newline = line :: rest) :
    (d.appendUserInput text).2.texts = d.texts ++ (.ofString "» " ++ line) :: rest := by
  have bare : ∀ other ∈ line :: rest, newline ∉ other := cut ▸ Lines.bare_splitOn text
  have marked : newline ∉ (.ofString "» " ++ line : Text) := by
    intro member
    rcases List.mem_append.mp member with here | later
    · exact absurd here (by decide)
    · exact bare line (by simp) later
  have first := texts_appendRecord d .marker .user (.ofString "» " ++ line)
  rw [List.splitOn_eq_singleton marked] at first
  have later := texts_appendUserLines (d.appendRecord .marker .user (.ofString "» " ++ line)).2
    fun other member => bare other (List.mem_cons_of_mem _ member)
  rw [first, List.append_assoc, List.singleton_append] at later
  rw [← later, appendUserInput, cut]
  rfl

/-- The agent's line is its lines, with a marker before them where the agent takes over. -/
theorem texts_addAgentLine (d : Dialog) (text : Text) :
    (d.addAgentLine text).texts = d.texts ++
      (if d.currentSpeaker = some .agent then [] else [.ofString "‹agent›"]) ++
      text.splitOn newline := by
  rw [addAgentLine, texts_appendRecord]
  congr 1
  unfold enterAgentSpan
  by_cases agent : d.currentSpeaker = some .agent
  · rw [if_neg (not_not.mpr agent), if_pos agent, List.append_nil]
  · have bare : newline ∉ (.ofString "‹agent›" : Text) := by decide
    have marker := texts_appendRecord d .marker .agent (.ofString "‹agent›")
    rw [List.splitOn_eq_singleton bare] at marker
    rw [if_pos agent, if_neg agent]
    exact marker

/-- What is kept tells of the records. -/
structure Kept (d : Dialog) : Prop where
  laid : d.Laid
  user : Anchored d.records .user d.lastUserInputOffset
  agent : Anchored d.records .agent d.lastAgentMarkerOffset

/-- The dialog has only grown. -/
def Grown (d d' : Dialog) : Prop := ∃ more, d'.records = d.records ++ more

/-- Where the last marker of a speaker starts. -/
def anchor (d : Dialog) : Speaker → ℕ
  | .user => d.lastUserInputOffset
  | .agent => d.lastAgentMarkerOffset

/-- The flat text goes on with the last marker from the anchor on. -/
theorem Kept.marker_read (kept : d.Kept) {entry : DialogEntry} (member : entry ∈ d.records)
    (marks : entry.Marks speaker) :
    ∃ last ∈ d.records, last.Marks speaker ∧ last.text <+: d.flatText.drop (d.anchor speaker) := by
  have anchored : Anchored d.records speaker (d.anchor speaker) := by
    cases speaker with
    | user => exact kept.user
    | agent => exact kept.agent
  rcases anchored with ⟨none, -⟩ | ⟨before, last, after, split, lastMarks, -, start⟩
  · exact absurd marks (none entry member)
  · refine ⟨last, by simp [split], lastMarks, ?_⟩
    have inside : before.length < d.texts.length := by simp [texts, split]
    have rest : d.texts.drop before.length = last.text :: after.map DialogEntry.text := by
      simp [texts, split]
    rw [start, flatText_eq, ← texts, Lines.drop_start inside, rest]
    -- the marker is the first of the lines that are left
    have first : List.intercalate [newline] [last.text] <+:
        List.intercalate [newline] ([last.text] ++ after.map DialogEntry.text) :=
      Lines.intercalate_prefix _ _
    simpa only [List.intercalate_singleton, List.singleton_append] using first

theorem kept_empty : Kept {} := by
  refine ⟨⟨rfl, nofun, rfl, rfl⟩, .inl ⟨nofun, rfl⟩, .inl ⟨nofun, rfl⟩⟩

theorem Appended.grown (appended : d.Appended kind speaker d') : d.Grown d' := by
  obtain ⟨first, more, added, -⟩ := appended.records
  exact ⟨first :: more, added⟩

theorem Grown.trans {d'' : Dialog} (first : d.Grown d') (second : d'.Grown d'') : d.Grown d'' := by
  obtain ⟨more, added⟩ := first
  obtain ⟨more', added'⟩ := second
  exact ⟨more ++ more', by rw [added', added, List.append_assoc]⟩

/-- A speaker's anchor stays where no marker of the speaker is appended. -/
theorem Appended.anchored (appended : d.Appended kind speaker d') {other : Speaker} {offset : ℕ}
    (unmarked : kind = .line ∨ speaker ≠ other) (anchored : Anchored d.records other offset) :
    Anchored d'.records other offset := by
  obtain ⟨first, more, added, isKind, isSpeaker, lines⟩ := appended.records
  rw [added]
  refine anchored.append fun entry member marks => ?_
  rcases List.mem_cons.mp member with rfl | later
  · rcases unmarked with line | different
    · cases (isKind.symm.trans marks.1).symm.trans line
    · exact different (isSpeaker.symm.trans marks.2)
  · cases (lines entry later).symm.trans marks.1

/-- The anchor of the marker that is appended is its offset. -/
theorem Appended.marked (appended : d.Appended .marker speaker d') (laid : d.Laid) :
    Anchored d'.records speaker d.startOffset := by
  obtain ⟨first, more, added, isKind, isSpeaker, lines⟩ := appended.records
  rw [added]
  refine Anchored.last ⟨isKind, isSpeaker⟩ (fun entry member marks => ?_) (startOffset_eq laid)
  cases (lines entry member).symm.trans marks.1

/-- Lines were appended, and no marker. -/
structure Continued (d d' : Dialog) : Prop where
  laid : d'.Laid
  grown : d.Grown d'
  anchored : ∀ {speaker offset}, Anchored d.records speaker offset →
    Anchored d'.records speaker offset
  user : d'.lastUserInputOffset = d.lastUserInputOffset
  agent : d'.lastAgentMarkerOffset = d.lastAgentMarkerOffset

theorem Appended.continued (appended : d.Appended .line speaker d') : d.Continued d' :=
  ⟨appended.laid, appended.grown, appended.anchored (.inl rfl), appended.user, appended.agent⟩

theorem Continued.kept (continued : d.Continued d') (kept : d.Kept) : d'.Kept := by
  refine ⟨continued.laid, ?_, ?_⟩
  · rw [continued.user]
    exact continued.anchored kept.user
  · rw [continued.agent]
    exact continued.anchored kept.agent

theorem appendUserLines_continued (laid : d.Laid) (lines : List Text) :
    d.Continued (d.appendUserLines lines) := by
  induction lines generalizing d with
  | nil => exact ⟨laid, ⟨[], by simp [appendUserLines]⟩, id, rfl, rfl⟩
  | cons line rest ih =>
    have first := (appendRecord_appended laid .line .user line).continued
    have second := ih first.laid
    exact ⟨second.laid, first.grown.trans second.grown, second.anchored ∘ first.anchored,
      second.user.trans first.user, second.agent.trans first.agent⟩

theorem appendUserInput_kept (kept : d.Kept) (text : Text) :
    (d.appendUserInput text).2.Kept ∧ d.Grown (d.appendUserInput text).2 := by
  have marker := appendRecord_appended kept.laid .marker .user
    (.ofString "» " ++ (text.splitOn newline).headD [])
  have rest := appendUserLines_continued marker.laid (text.splitOn newline).tail
  refine ⟨⟨⟨rest.laid.1, rest.laid.2, rest.laid.3, rest.laid.4⟩, rest.anchored (marker.marked kept.laid), ?_⟩,
    marker.grown.trans rest.grown⟩
  have there := rest.anchored (marker.anchored (.inr (by decide)) kept.agent)
  rwa [← marker.agent, ← rest.agent] at there

theorem enterAgentSpan_kept (kept : d.Kept) :
    d.enterAgentSpan.Kept ∧ d.Grown d.enterAgentSpan := by
  unfold enterAgentSpan
  split
  · have marker := appendRecord_appended kept.laid .marker .agent (.ofString "‹agent›")
    refine ⟨⟨⟨marker.laid.1, marker.laid.2, marker.laid.3, marker.laid.4⟩, ?_, marker.marked kept.laid⟩,
      marker.grown⟩
    have there := marker.anchored (.inr (by decide)) kept.user
    rwa [← marker.user] at there
  · exact ⟨kept, [], by simp⟩

theorem addAgentLine_kept (kept : d.Kept) (text : Text) :
    (d.addAgentLine text).Kept ∧ d.Grown (d.addAgentLine text) := by
  obtain ⟨entered, grown⟩ := enterAgentSpan_kept kept
  have appended := appendRecord_appended entered.laid .line .agent text
  exact ⟨appended.continued.kept entered, grown.trans appended.grown⟩

/-- What was there stays at its offset. -/
theorem Grown.flatText_prefix (grown : d.Grown d') : d.flatText <+: d'.flatText := by
  obtain ⟨more, added⟩ := grown
  have extended : d'.texts = d.texts ++ more.map DialogEntry.text := by
    rw [texts, added, List.map_append]
    rfl
  rw [flatText_eq, flatText_eq, extended]
  exact Lines.intercalate_prefix _ _

end Dialog

/-! ### Pages -/

section Pages

variable {α β : Type} [Lined α] [DecidableEq α] [Voiced β] {share : ℕ → ℕ}
  {records : List (DialogRecord α β)} {offset : ℕ} {snap : Bool}

theorem lastNewline_lt {chunk : List α} {cut : ℕ} (found : lastNewline chunk = some cut) :
    cut < chunk.length := by
  induction chunk generalizing cut with
  | nil => cases found
  | cons c rest ih =>
    rw [lastNewline] at found
    split at found
    · rename_i index later
      obtain rfl := Option.some.inj found
      exact Nat.succ_lt_succ (ih later)
    · split at found
      · obtain rfl := Option.some.inj found
        exact Nat.succ_pos _
      · cases found

/-- A page of a text: the piece up to the next offset. -/
structure IsPage (text : List α) (offset : ℕ) (limit : Option ℕ)
    (page : DialogPage α β) : Prop where
  start : page.startOffset = offset
  next : page.nextOffset = offset + page.text.length
  piece : page.text = (text.drop offset).take page.text.length
  within : page.nextOffset ≤ text.length
  filled : offset < text.length → page.text ≠ []
  limited : ∀ most, limit = some most → page.text.length ≤ most
  total : page.totalLen = text.length

/-- A snapped page ends behind a newline, one that is not snapped at the limit. -/
theorem snapPage_eq {chunk : List α} {limit : ℕ} (positive : 0 < limit)
    (more : limit < chunk.length) : ∃ size, 0 < size ∧ size ≤ limit ∧
      snapPage share chunk offset limit = (chunk.take size, offset + size) := by
  unfold snapPage
  split
  · exact ⟨limit, positive, le_rfl, rfl⟩
  · rename_i cut found
    have inside := lastNewline_lt found
    rw [List.length_take, Nat.min_eq_left more.le] at inside
    split
    · exact ⟨limit, positive, le_rfl, rfl⟩
    · exact ⟨cut + 1, Nat.succ_pos _, inside, rfl⟩

theorem pageAt_isPage {limit : Option ℕ} (positive : ∀ most, limit = some most → 0 < most)
    (within : offset ≤ (flatText records).length) :
    IsPage (flatText records) offset limit (pageAt share records snap offset limit) := by
  unfold pageAt
  dsimp only
  -- the rest of the text, where that is no more than the limit
  have whole (short : ∀ most, limit = some most → (flatText records).length - offset ≤ most)
      (more : offset < (flatText records).length) (speaker : β) (continued : Bool) :
      IsPage (flatText records) offset limit ⟨(flatText records).drop offset, offset,
        (flatText records).length, speaker, continued, (flatText records).length⟩ := by
    refine ⟨rfl, ?_, (List.take_length ..).symm, le_rfl, fun _ empty => ?_, fun most here => ?_,
      rfl⟩
    · rw [List.length_drop]
      dsimp only
      omega
    · have none := congrArg List.length empty
      simp only [List.length_drop, List.length_nil] at none
      omega
    · rw [List.length_drop]
      exact short most here
  split
  · rename_i ended
    have last : (flatText records).length = offset := Nat.le_antisymm ended within
    refine ⟨rfl, by simpa using last, rfl, le_rfl, fun more => absurd more (by omega), ?_, rfl⟩
    exact fun _ _ => Nat.zero_le _
  · rename_i more
    rw [Nat.not_le] at more
    split
    · exact whole nofun more _ _
    · rename_i most
      split
      · rename_i short
        rw [List.length_drop] at short
        exact whole (fun _ here => Option.some.inj here ▸ short) more _ _
      · rename_i long
        rw [Nat.not_le] at long
        obtain ⟨size, some, small, cut⟩ : ∃ size, 0 < size ∧ size ≤ most ∧
            (if snap then snapPage share ((flatText records).drop offset) offset most
              else (((flatText records).drop offset).take most, offset + most)) =
            (((flatText records).drop offset).take size, offset + size) := by
          split
          · exact snapPage_eq (positive most rfl) long
          · exact ⟨most, positive most rfl, le_rfl, rfl⟩
        rw [cut]
        rw [List.length_drop] at long
        have length : (((flatText records).drop offset).take size).length = size := by
          rw [List.length_take, List.length_drop]
          omega
        refine ⟨rfl, ?_, ?_, ?_, fun _ empty => ?_, fun _ here => ?_, rfl⟩
        · exact congrArg (offset + ·) length.symm
        · exact congrArg (List.take · _) length.symm
        · change offset + size ≤ _
          omega
        · have none := congrArg List.length empty
          rw [List.length_nil] at none
          exact some.ne' (length.symm.trans none)
        · obtain rfl := Option.some.inj here
          exact length.trans_le small

end Pages

/-! ### Following the pages -/

inductive DialogMove
  | appendUserInput (text : Text)
  | addAgentLine (text : Text)
  /-- The next page, from the `next_offset` of the last. -/
  | page (limit : Option ℤ) (snap : Bool)

/-- A dialog, and a reader of its pages. -/
structure DialogReading where
  dialog : Dialog := {}
  offset : ℕ := 0

/-- A page that was read, within which limit, and how long the flat text was at the read. -/
structure PageRead where
  limit : Option ℤ
  length : ℕ
  page : DialogPage CodePoint JsonText.Document

/-- A read that raises leaves the reader where it was. -/
def dialogReading (share : ℕ → ℕ) : Machine DialogReading DialogMove PageRead where
  step s
    | .appendUserInput text => ({ s with dialog := (s.dialog.appendUserInput text).2 }, [])
    | .addAgentLine text => ({ s with dialog := s.dialog.addAgentLine text }, [])
    | .page limit snap =>
      match s.dialog.page share s.offset limit snap with
      | .ok page =>
        ({ s with offset := page.nextOffset }, [⟨limit, s.dialog.flatText.length, page⟩])
      | .error _ => (s, [])

/-- The dialog after the moves. -/
def dialogAfter (share : ℕ → ℕ) (moves : List DialogMove) : Dialog :=
  ((dialogReading share).after {} moves).dialog

namespace DialogReading

/-- Each page starts where the one before it ended. -/
def Follows : ℕ → List PageRead → ℕ → Prop
  | offset, [], last => offset = last
  | offset, read :: rest, last =>
    read.page.startOffset = offset ∧
      read.page.nextOffset = offset + read.page.text.length ∧
      Follows read.page.nextOffset rest last

theorem Follows.snoc {offset last : ℕ} {reads : List PageRead} {read : PageRead}
    (follows : Follows offset reads last) (start : read.page.startOffset = last)
    (next : read.page.nextOffset = last + read.page.text.length) :
    Follows offset (reads ++ [read]) read.page.nextOffset := by
  induction reads generalizing offset with
  | nil =>
    obtain rfl : offset = last := follows
    exact ⟨start, next, rfl⟩
  | cons first rest ih => exact ⟨follows.1, follows.2.1, ih follows.2.2⟩

/-- A page tells how long the text is and ends within it; one that does not start at the end of the
text is not empty, and none is longer than its limit. -/
structure Serves (read : PageRead) : Prop where
  total : read.page.totalLen = read.length
  within : read.page.nextOffset ≤ read.length
  filled : read.page.startOffset < read.length → read.page.text ≠ []
  limited : ∀ most, read.limit = some most → read.page.text.length ≤ most

/-- The pages read so far are the text as far as the reader is. -/
structure Followed (s : DialogReading) (reads : List PageRead) : Prop where
  kept : s.dialog.Kept
  within : s.offset ≤ s.dialog.flatText.length
  whole : reads.flatMap (·.page.text) = s.dialog.flatText.take s.offset
  follows : Follows 0 reads s.offset
  serves : ∀ read ∈ reads, Serves read

/-- Whether a read within the limit is answered. -/
def Permits (limit : Option ℤ) : Prop := ∀ most, limit = some most → 0 < most

/-- What the next move finds: a read within a limit that is positive is answered with the text from
the reader's offset on, and an append adds its lines behind those that are there. -/
structure Goes (share : ℕ → ℕ) (s : DialogReading) : Prop where
  answered : ∀ limit snap, Permits limit → ∃ page,
    s.dialog.page share s.offset limit snap = .ok page ∧
      IsPage s.dialog.flatText s.offset (limit.map Int.toNat) page
  refused : ∀ limit snap, ¬ Permits limit →
    s.dialog.page share s.offset limit snap = .error .valueError
  user : ∀ text line rest, text.splitOn newline = line :: rest →
    (s.dialog.appendUserInput text).2.flatText =
      List.intercalate [newline] (s.dialog.texts ++ (Text.ofString "» " ++ line) :: rest)
  agent : ∀ text, (s.dialog.addAgentLine text).flatText =
    List.intercalate [newline] (s.dialog.texts ++
      (if s.dialog.currentSpeaker = some .agent then [] else [.ofString "‹agent›"]) ++
      text.splitOn newline)
  anchored : ∀ entry ∈ s.dialog.records, ∀ speaker, entry.Marks speaker →
    ∃ last ∈ s.dialog.records, last.Marks speaker ∧
      last.text <+: s.dialog.flatText.drop (s.dialog.anchor speaker)

variable {share : ℕ → ℕ} {s : DialogReading} {reads : List PageRead}

theorem followed_grown (followed : s.Followed reads) {d : Dialog} (kept : d.Kept)
    (grown : s.dialog.Grown d) : Followed { s with dialog := d } reads := by
  obtain ⟨tail, same⟩ := grown.flatText_prefix
  refine ⟨kept, ?_, ?_, followed.follows, followed.serves⟩
  · change s.offset ≤ d.flatText.length
    rw [← same, List.length_append]
    exact followed.within.trans (Nat.le_add_right ..)
  · change _ = d.flatText.take s.offset
    rw [followed.whole, ← same, List.take_append_of_le_length followed.within]

/-- A read is answered exactly within a limit that is positive, and with a page of the text. -/
theorem page_eq (s : DialogReading) (limit : Option ℤ) (snap : Bool) :
    s.dialog.page share s.offset limit snap =
      if limit.any (· ≤ 0) then .error .valueError
      else .ok (pageAt share (s.dialog.records.map DialogEntry.record) snap s.offset
        (limit.map Int.toNat)) := by
  rw [Dialog.page, dialogPage, if_neg (by omega), Int.toNat_natCast]

theorem any_nonpositive {limit : Option ℤ} : limit.any (· ≤ 0) = true ↔ ¬ Permits limit := by
  cases limit with
  | none => simp [Permits]
  | some most => simp [Permits]

theorem answered (within : s.offset ≤ s.dialog.flatText.length) {limit : Option ℤ}
    (permits : Permits limit) (snap : Bool) :
    ∃ page, s.dialog.page share s.offset limit snap = .ok page ∧
      IsPage s.dialog.flatText s.offset (limit.map Int.toNat) page := by
  have positive : ¬ limit.any (· ≤ 0) = true := mt any_nonpositive.mp (not_not.mpr permits)
  refine ⟨_, (page_eq s limit snap).trans (if_neg positive), ?_⟩
  refine pageAt_isPage (fun most here => ?_) within
  obtain ⟨bound, rfl, rfl⟩ := Option.map_eq_some_iff.mp here
  have some := permits bound rfl
  omega

theorem refused {limit : Option ℤ} (refuses : ¬ Permits limit) (snap : Bool) :
    s.dialog.page share s.offset limit snap = .error .valueError :=
  (page_eq s limit snap).trans (if_pos (any_nonpositive.mpr refuses))

/-- A page of the text serves its read. -/
theorem serves_of_isPage {limit : Option ℤ} {page : DialogPage CodePoint JsonText.Document}
    (permits : Permits limit)
    (isPage : IsPage s.dialog.flatText s.offset (limit.map Int.toNat) page) :
    Serves ⟨limit, s.dialog.flatText.length, page⟩ := by
  refine ⟨isPage.total, isPage.within, fun more => isPage.filled ?_, fun most here => ?_⟩
  · rwa [isPage.start] at more
  · have some := permits most here
    have small := isPage.limited most.toNat (by rw [show limit = _ from here]; rfl)
    change (page.text.length : ℤ) ≤ most
    omega

theorem followed_page (followed : s.Followed reads) {limit : Option ℤ} (permits : Permits limit)
    {page : DialogPage CodePoint JsonText.Document}
    (isPage : IsPage s.dialog.flatText s.offset (limit.map Int.toNat) page) :
    Followed { s with offset := page.nextOffset }
      (reads ++ [⟨limit, s.dialog.flatText.length, page⟩]) := by
  refine ⟨followed.kept, isPage.within, ?_, followed.follows.snoc isPage.start isPage.next, ?_⟩
  · -- what was read, and then the piece from there on
    rw [List.flatMap_append, followed.whole, List.flatMap_singleton, isPage.piece]
    change _ = s.dialog.flatText.take page.nextOffset
    rw [isPage.next, List.take_add]
  · intro other member
    rcases List.mem_append.mp member with before | last
    · exact followed.serves other before
    · rw [List.mem_singleton.mp last]
      exact serves_of_isPage permits isPage

theorem followed_step (followed : s.Followed reads) (move : DialogMove) :
    Followed ((dialogReading share).step s move).1
      (reads ++ ((dialogReading share).step s move).2) := by
  cases move with
  | appendUserInput text =>
    obtain ⟨kept, grown⟩ := Dialog.appendUserInput_kept followed.kept text
    simpa only [dialogReading, List.append_nil] using followed_grown followed kept grown
  | addAgentLine text =>
    obtain ⟨kept, grown⟩ := Dialog.addAgentLine_kept followed.kept text
    simpa only [dialogReading, List.append_nil] using followed_grown followed kept grown
  | page limit snap =>
    by_cases permits : Permits limit
    · obtain ⟨page, read, isPage⟩ : ∃ page, s.dialog.page share s.offset limit snap = .ok page ∧
          IsPage s.dialog.flatText s.offset (limit.map Int.toNat) page :=
        answered followed.within permits snap
      simp only [dialogReading, read]
      exact followed_page followed permits isPage
    · simpa only [dialogReading, refused permits, List.append_nil] using followed

/-- The pages that were read let every next move go on. -/
theorem Followed.goes (followed : s.Followed reads) : Goes share s where
  answered limit snap permits := answered followed.within permits snap
  refused limit snap refuses := refused refuses snap
  user text line rest cut := by rw [Dialog.flatText_eq, Dialog.texts_appendUserInput _ cut]
  agent text := by rw [Dialog.flatText_eq, Dialog.texts_addAgentLine]
  anchored entry member speaker marks := followed.kept.marker_read member marks

theorem followed_after (share : ℕ → ℕ) (moves : List DialogMove) :
    Followed ((dialogReading share).after {} moves) ((dialogReading share).outputs {} moves) := by
  refine (dialogReading share).record_along (fun _ s reads => Followed s reads)
    (fun _ s reads move followed _ => followed_step followed move) ?_
    (Machine.along_of_forall (p := fun _ => True) _ fun _ _ => trivial)
  exact ⟨Dialog.kept_empty, Nat.zero_le _, rfl, rfl, nofun⟩

/-- Whatever is appended in between, the pages a reader follows from the start on make up the flat
text as far as it has come; each but the last has something in it, and none goes beyond its limit.
The length and the anchors that are kept agree with the records, every read within a positive limit
is answered, and every append is read behind what was there. -/
theorem pages_follow (share : ℕ → ℕ) (moves : List DialogMove) :
    Followed ((dialogReading share).after {} moves) ((dialogReading share).outputs {} moves) ∧
      Goes share ((dialogReading share).after {} moves) := by
  have followed := followed_after share moves
  exact ⟨followed, followed.goes⟩

end DialogReading

end Nelix.Daemon
