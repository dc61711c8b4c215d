import Nelix.Contracts.Errors
import Nelix.Contracts.Json
import Nelix.Core.Text
import Mathlib.Data.List.Basic

/-!
# The dialog on disk

The flat log of a session's transcript, the pages it is read in, and the reader of a session that is
no longer live. Offsets count the characters of the flat text; what a character is does not matter
here, as long as one of them is the newline, and a speaker is any value.
-/
namespace Nelix.Daemon

open Contracts

/-- Characters with a newline among them. -/
class Lined (α : Type) where
  newline : α

instance : Lined Char := ⟨'\n'⟩

instance : Lined Core.CodePoint := ⟨.char '\n'⟩

open Lined (newline)

/-- Values with `"agent"` among them. -/
class Voiced (β : Type) where
  agent : β

instance : Voiced Json := ⟨.text "agent"⟩

/-- A record of the transcript, as far as a page looks into it. -/
structure DialogRecord (α : Type := Char) (β : Type := Json) where
  speaker : β
  text : List α

variable {α β : Type} [Lined α] [DecidableEq α] [Voiced β]

/-- `"\n".join(r["text"] for r in records)` -/
def flatText (records : List (DialogRecord α β)) : List α :=
  List.intercalate [newline] (records.map DialogRecord.text)

/-! ### Pages -/

/-- The speaker of the last record that starts no later than the offset. -/
def speakerFrom (offset : ℕ) : ℕ → β → List (DialogRecord α β) → β
  | _, speaker, [] => speaker
  | pos, speaker, record :: rest =>
    if offset < pos then speaker
    else speakerFrom offset (pos + record.text.length + 1) record.speaker rest

/-- `_speaker_at` -/
def speakerAt (records : List (DialogRecord α β)) (offset : ℕ) : β :=
  match records with
  | [] => Voiced.agent
  | first :: _ => speakerFrom offset 0 first.speaker records

/-- `_is_at_record_boundary` -/
def isAtRecordBoundary (text : List α) (offset : ℕ) : Bool :=
  offset = 0 || (offset ≤ text.length && text[offset - 1]? = some newline)

/-- `rfind("\n")` -/
def lastNewline : List α → Option ℕ
  | [] => none
  | c :: rest =>
    match lastNewline rest with
    | some index => some (index + 1)
    | none => if c = newline then some 0 else none

/-- `_snap_page`; `share limit` is `int(0.6 * limit)`. -/
def snapPage (share : ℕ → ℕ) (chunk : List α) (offset limit : ℕ) : List α × ℕ :=
  match lastNewline (chunk.take limit) with
  | none => (chunk.take limit, offset + limit)
  | some cut =>
    if cut < share limit then (chunk.take limit, offset + limit)
    else (chunk.take (cut + 1), offset + cut + 1)

/-- One page of a dialog. -/
structure DialogPage (α : Type := Char) (β : Type := Json) where
  text : List α
  startOffset : ℕ
  nextOffset : ℕ
  speakerAtStart : β
  continued : Bool
  totalLen : ℕ

/-- The page at an offset that is not negative. -/
def pageAt (share : ℕ → ℕ) (records : List (DialogRecord α β)) (snap : Bool) (offset : ℕ)
    (limit : Option ℕ) : DialogPage α β :=
  let text := flatText records
  let page (excerpt : List α) (nextOffset : ℕ) : DialogPage α β :=
    ⟨excerpt, offset, nextOffset, speakerAt records offset, !isAtRecordBoundary text offset,
      text.length⟩
  let chunk := text.drop offset
  if text.length ≤ offset then page [] text.length
  else
    match limit with
    | none => page chunk text.length
    | some limit =>
      if chunk.length ≤ limit then page chunk text.length
      else
        let (excerpt, nextOffset) :=
          if snap then snapPage share chunk offset limit else (chunk.take limit, offset + limit)
        page excerpt nextOffset

/-- `page` of records that are there: a negative offset and a limit that is not positive raise. -/
def dialogPage (share : ℕ → ℕ) (records : List (DialogRecord α β)) (snap : Bool) (offset : ℤ)
    (limit : Option ℤ) : Outcome (DialogPage α β) :=
  if offset < 0 then .error .valueError
  else if limit.any (· ≤ 0) then .error .valueError
  else .ok (pageAt share records snap offset.toNat (limit.map Int.toNat))

/-- A page is read exactly at an offset that is not negative, within a limit that is positive. -/
theorem dialogPage_isOk {share : ℕ → ℕ} {records : List (DialogRecord α β)} {snap : Bool}
    {offset : ℤ} {limit : Option ℤ} :
    (∃ page, dialogPage share records snap offset limit = .ok page) ↔
      0 ≤ offset ∧ ∀ most, limit = some most → 0 < most := by
  unfold dialogPage
  constructor
  · rintro ⟨page, read⟩
    split at read
    · cases read
    · rename_i start
      split at read
      · cases read
      · rename_i bounded
        refine ⟨Int.not_lt.mp start, fun most here => ?_⟩
        simpa [here] using bounded
  · rintro ⟨start, bounded⟩
    rw [if_neg (Int.not_lt.mpr start)]
    have most : ¬ limit.any (· ≤ 0) = true := by
      cases limit with
      | none => exact nofun
      | some most => simpa using bounded most rfl
    exact ⟨_, if_neg most⟩

/-! ### The reader -/

/-- One decoded line of `transcript.jsonl`; one that is no dict raises, and so does a text that is
no str, at its length or in the join. -/
def DialogRecord.ofJson : Json → Outcome DialogRecord
  | .object fields =>
    match (fields.lookup "text").getD (.text "") with
    | .text text => .ok ⟨(fields.lookup "speaker").getD (.text "agent"), text.toList⟩
    | _ => .error .typeError
  | _ => .error .attributeError

/-- `DialogReader`: the records, where the file could be opened and every line decoded. -/
structure DialogReader (α : Type := Char) (β : Type := Json) where
  records : Option (List (DialogRecord α β))

/-- The reader of a file; none for one that is missing, unreadable or not JSON. -/
def DialogReader.read (file : Option (List Json)) : Outcome DialogReader :=
  match file with
  | none => .ok ⟨none⟩
  | some lines => (lines.mapM DialogRecord.ofJson).map fun records => ⟨some records⟩

end Nelix.Daemon
