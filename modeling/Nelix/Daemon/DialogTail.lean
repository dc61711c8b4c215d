import Nelix.Daemon.DialogLog
import Mathlib.Order.Bounds.Basic

/-!
# The tail of a dialog

What stands at the end of a dialog, from a line start on.

## Main results

`DialogReading.tail_meets_iff`: exactly when the tail starts where the first line of the last
characters does.
-/
namespace Nelix.Daemon

open Contracts Core
open Lined (newline)

variable {α β : Type} [Lined α]

/-! ### Where records start -/

/-- A record starts at the offset. -/
def RecordStart (records : List (DialogRecord α β)) (offset : ℕ) : Prop :=
  ∃ i < records.length, Lines.start (records.map DialogRecord.text) i = offset

/-- The starts of records that leave no more than the bound, and something. -/
def Starts (records : List (DialogRecord α β)) (most : ℕ) : Set ℕ :=
  {offset | RecordStart records offset ∧ (flatText records).length - most ≤ offset ∧
    offset < (flatText records).length}

variable {records : List (DialogRecord α β)} {most offset : ℕ}

/-- A record starts at the beginning and behind each newline. -/
theorem recordStart_iff (bare : ∀ record ∈ records, newline ∉ record.text) (filled : records ≠ []) :
    RecordStart records offset ↔
      offset = 0 ∨ 0 < offset ∧ (flatText records)[offset - 1]? = some newline := by
  have texts : ∀ line ∈ records.map DialogRecord.text, newline ∉ line := by
    simpa using bare
  have exact := Lines.starts_iff (r := offset) texts (by simpa using filled)
  rwa [List.length_map] at exact

/-- A newline among the last characters: each record that starts behind it, and no sooner one than
right behind the first, where none starts with them. -/
theorem starts_of_newline (bare : ∀ record ∈ records, newline ∉ record.text) {line rest : List α}
    (long : most < (flatText records).length)
    (cut : (flatText records).drop ((flatText records).length - most) = line ++ newline :: rest)
    (unbroken : newline ∉ line) :
    (rest ≠ [] → (flatText records).length - most + line.length + 1 ∈ Starts records most) ∧
      ∀ offset ∈ Starts records most, offset = (flatText records).length - most ∨
        (flatText records).length - most + line.length + 1 ≤ offset := by
  have filled : records ≠ [] := by
    rintro rfl
    cases long
  have length := congrArg List.length cut
  rw [List.length_drop, List.length_append, List.length_cons] at length
  have look (i : ℕ) : (flatText records)[(flatText records).length - most + i]? =
      (line ++ newline :: rest)[i]? := by
    rw [← cut, List.getElem?_drop]
  constructor
  · intro more
    have some := List.length_pos_iff.mpr more
    refine ⟨(recordStart_iff bare filled).mpr (.inr ⟨Nat.succ_pos _, ?_⟩), by omega, by omega⟩
    rw [Nat.add_sub_cancel, look, List.getElem?_append_right le_rfl, Nat.sub_self]
    rfl
  · rintro offset ⟨starts, after, -⟩
    rcases Nat.eq_or_lt_of_le after with same | behind
    · exact .inl same.symm
    · refine .inr (Nat.le_of_not_lt fun sooner => ?_)
      rcases (recordStart_iff bare filled).mp starts with first | ⟨-, here⟩
      · omega
      · have there := look (offset - 1 - ((flatText records).length - most))
        rw [show (flatText records).length - most +
            (offset - 1 - ((flatText records).length - most)) = offset - 1 by omega, here,
          List.getElem?_append_left (by omega)] at there
        exact unbroken (List.mem_of_getElem? there.symm)

/-- Without a newline there only a record that starts with the last characters starts among them. -/
theorem starts_of_bare (bare : ∀ record ∈ records, newline ∉ record.text)
    (long : most < (flatText records).length)
    (unbroken : newline ∉ (flatText records).drop ((flatText records).length - most)) :
    ∀ offset ∈ Starts records most, offset = (flatText records).length - most := by
  have filled : records ≠ [] := by
    rintro rfl
    cases long
  rintro offset ⟨starts, after, -⟩
  rcases (recordStart_iff bare filled).mp starts with first | ⟨-, here⟩
  · omega
  · by_contra other
    refine unbroken (List.mem_of_getElem? (i := offset - 1 - ((flatText records).length - most)) ?_)
    rw [List.getElem?_drop, ← here]
    exact congrArg ((flatText records)[·]?) (by omega)

/-! ### Tails -/

structure DialogTail (α β : Type) where
  text : List α
  speakerAtStart : β
  startOffset : ℕ
  totalLen : ℕ

variable [DecidableEq α] [Voiced β]

/-- `find("\n")` -/
def firstNewline : List α → Option ℕ
  | [] => none
  | c :: rest => if c = newline then some 0 else (firstNewline rest).map (· + 1)

/-- The tail from an offset on. -/
def tailFrom (records : List (DialogRecord α β)) (offset : ℕ) : DialogTail α β :=
  ⟨(flatText records).drop offset, speakerAt records offset, offset, (flatText records).length⟩

/-- `tail` of records that are there. A negative bound asks for what lies behind the end. -/
def tailAt (records : List (DialogRecord α β)) (maxChars : Option ℤ) : DialogTail α β :=
  let totalLen := (flatText records).length
  match maxChars with
  | none => tailFrom records 0
  | some most =>
    if totalLen ≤ most then tailFrom records 0
    else
      let startRaw := (totalLen - most).toNat
      match firstNewline ((flatText records).drop startRaw) with
      | some found => tailFrom records (startRaw + found + 1)
      | none => tailFrom records startRaw

def Dialog.tail (d : Dialog) (maxChars : Option ℤ) : DialogTail CodePoint JsonText.Document :=
  tailAt (d.records.map DialogEntry.record) maxChars

/-- There is nothing at the end of what could not be read. -/
def DialogReader.tail (reader : DialogReader α β) (maxChars : Option ℤ) : DialogTail α β :=
  match reader.records with
  | none => ⟨[], Voiced.agent, 0, 0⟩
  | some records => tailAt records maxChars

/-- The tail starts with the first record that starts among the last characters, and where none
does with the last characters. -/
def TailMeets (records : List (DialogRecord α β)) (most : ℕ) (tail : DialogTail α β) : Prop :=
  (IsLeast (Starts records most) tail.startOffset ∨
    Starts records most = ∅ ∧ tail.startOffset = (flatText records).length - most) ∧
  tail.text = (flatText records).drop tail.startOffset

/-- The dialog is no longer than the bound, or its last characters have no newline, or they do not
begin with a record and their first newline is not their last character. -/
def CutClean (records : List (DialogRecord α β)) (most : ℕ) : Prop :=
  let cut := (flatText records).length - most
  (flatText records).length ≤ most ∨ newline ∉ (flatText records).drop cut ∨
    ¬ RecordStart records cut ∧ ∃ line rest,
      (flatText records).drop cut = line ++ newline :: rest ∧ newline ∉ line ∧ rest ≠ []

theorem firstNewline_none {text : List α} (unfound : firstNewline text = none) :
    newline ∉ text := by
  induction text with
  | nil => exact List.not_mem_nil
  | cons c rest ih =>
    rw [firstNewline] at unfound
    split at unfound
    · cases unfound
    · rename_i other
      have later := ih (Option.map_eq_none_iff.mp unfound)
      exact List.not_mem_cons_of_ne_of_not_mem (Ne.symm other) later

theorem firstNewline_some {text : List α} {found : ℕ} (first : firstNewline text = some found) :
    ∃ line rest, text = line ++ newline :: rest ∧ newline ∉ line ∧ line.length = found := by
  induction text generalizing found with
  | nil => cases first
  | cons c rest ih =>
    rw [firstNewline] at first
    split at first
    · rename_i here
      obtain rfl := Option.some.inj first
      exact ⟨[], rest, by rw [here]; rfl, List.not_mem_nil, rfl⟩
    · rename_i other
      obtain ⟨index, later, rfl⟩ := Option.map_eq_some_iff.mp first
      obtain ⟨line, after, rfl, bare, rfl⟩ := ih later
      exact ⟨c :: line, after, rfl,
        List.not_mem_cons_of_ne_of_not_mem (Ne.symm other) bare, rfl⟩

/-- The tail starts as it should exactly where the cut is clean. -/
theorem tailAt_meets_iff (bare : ∀ record ∈ records, newline ∉ record.text) (positive : 0 < most) :
    TailMeets records most (tailAt records (some (most : ℤ))) ↔ CutClean records most := by
  unfold TailMeets CutClean tailAt
  dsimp only
  by_cases short : (flatText records).length ≤ most
  · rw [if_pos (by exact_mod_cast short)]
    refine iff_of_true ⟨?_, rfl⟩ (.inl short)
    have cut : (flatText records).length - most = 0 := Nat.sub_eq_zero_of_le short
    by_cases empty : (flatText records).length = 0
    · refine .inr ⟨Set.eq_empty_of_forall_notMem ?_, cut.symm⟩
      rintro offset ⟨-, -, before⟩
      omega
    · have filled : records ≠ [] := by
        rintro rfl
        exact empty rfl
      have first : 0 < records.length := List.length_pos_iff.mpr filled
      exact .inl ⟨⟨⟨0, first, rfl⟩, by omega, by change 0 < _; omega⟩, fun _ _ => Nat.zero_le _⟩
  · have long : most < (flatText records).length := Nat.lt_of_not_le short
    rw [if_neg (by exact_mod_cast short),
      show (((flatText records).length : ℤ) - most).toNat = (flatText records).length - most by omega]
    cases found : firstNewline ((flatText records).drop ((flatText records).length - most)) with
    | none =>
      have unbroken := firstNewline_none found
      refine iff_of_true ⟨?_, rfl⟩ (.inr (.inl unbroken))
      have only := starts_of_bare bare long unbroken
      by_cases starts : (flatText records).length - most ∈ Starts records most
      · exact .inl ⟨starts, fun offset member => (only offset member).ge⟩
      · refine .inr ⟨Set.eq_empty_of_forall_notMem fun offset member => starts ?_, rfl⟩
        exact only offset member ▸ member
    | some index =>
      obtain ⟨line, rest, cut, unbroken, rfl⟩ := firstNewline_some found
      obtain ⟨next, only⟩ := starts_of_newline bare long cut unbroken
      have broken : newline ∈ (flatText records).drop ((flatText records).length - most) := by
        rw [cut]
        simp
      constructor
      · rintro ⟨least | ⟨-, start⟩, -⟩
        · refine .inr (.inr ⟨fun first => ?_, line, rest, cut, unbroken, ?_⟩)
          · have sooner := least.2 ⟨first, le_rfl, by omega⟩
            change _ + line.length + 1 ≤ _ at sooner
            omega
          · rintro rfl
            have before : (flatText records).length - most + line.length + 1 <
              (flatText records).length := least.1.2.2
            have length := congrArg List.length cut
            rw [List.length_drop, List.length_append, List.length_singleton] at length
            omega
        · change _ + line.length + 1 = _ at start
          omega
      · rintro (short' | bare' | ⟨unstarted, line', rest', cut', unbroken', more⟩)
        · exact absurd short' short
        · exact absurd broken bare'
        · obtain ⟨-, rfl⟩ := Lines.first_unique unbroken unbroken' (cut.symm.trans cut')
          refine ⟨.inl ⟨next more, fun offset member => ?_⟩, rfl⟩
          rcases only offset member with same | behind
          · exact absurd (same ▸ member.1) unstarted
          · exact behind

/-! ### Of a dialog, and of its reader -/

theorem Dialog.Laid.bare_records {d : Dialog} (laid : d.Laid) :
    ∀ record ∈ d.records.map DialogEntry.record, newline ∉ record.text := by
  intro record member
  obtain ⟨entry, there, rfl⟩ := List.mem_map.mp member
  exact laid.bare entry.text (List.mem_map_of_mem there)

/-- The tail of a live dialog, and of one that is read back with a line for each record, starts as
it should exactly where the cut is clean. -/
theorem DialogReading.tail_meets_iff (share : ℕ → ℕ) (moves : List DialogMove) (most : ℕ)
    (positive : 0 < most) :
    (TailMeets ((dialogAfter share moves).records.map DialogEntry.record) most
        ((dialogAfter share moves).tail (some most)) ↔
      CutClean ((dialogAfter share moves).records.map DialogEntry.record) most) ∧
    ∀ records : List DialogRecord, (∀ record ∈ records, newline ∉ record.text) →
      (TailMeets records most (DialogReader.tail ⟨some records⟩ (some most)) ↔
        CutClean records most) :=
  ⟨tailAt_meets_iff (followed_after share moves).kept.laid.bare_records positive,
    fun _ bare => tailAt_meets_iff bare positive⟩

/-- The last line is as long as the bound: it is the tail. -/
theorem DialogReading.tail_meets_line :
    TailMeets ((dialogAfter id [.addAgentLine (.ofString "ok")]).records.map DialogEntry.record) 2
      ((dialogAfter id [.addAgentLine (.ofString "ok")]).tail (some 2)) :=
  (DialogReading.tail_meets_iff id [.addAgentLine (.ofString "ok")] 2 (by decide)).1.mpr
    (.inr (.inl (by decide +kernel)))

/-- The marker of the agent, and two lines of one character. -/
def twoLines : Dialog :=
  dialogAfter id [.addAgentLine (.ofString "a"), .addAgentLine (.ofString "b")]

/-- Two lines of one character fill the bound, and only the second is in the tail. -/
theorem DialogReading.tail_drops_line :
    ¬ TailMeets (twoLines.records.map DialogEntry.record) 3 (twoLines.tail (some 3)) := by
  have first : 8 ∈ Starts (twoLines.records.map DialogEntry.record) 3 :=
    ⟨⟨1, by decide +kernel, by decide +kernel⟩, by decide +kernel, by decide +kernel⟩
  have behind : (twoLines.tail (some 3)).startOffset = 10 := by decide +kernel
  rintro ⟨least | ⟨none, -⟩, -⟩
  · have sooner := least.2 first
    rw [behind] at sooner
    omega
  · rw [none] at first
    exact first

end Nelix.Daemon
