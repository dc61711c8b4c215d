import Mathlib.Data.List.TakeWhile
import Nelix.Contracts.Ids
import Nelix.Core.Regex
import Nelix.Core.Text

/-!
# The validators of ids

The patterns of the contracts package, and what each takes. Epochs are checked as generation ids are;
requests have no id that is checked.

## Main results

`validate_ok_iff`: a text with no newline at its end passes the validator of a kind exactly when it is
a complete member of the grammar of that kind, and it is handed on as it is.

`validSessionId_eq_matches`, `validOwnerId_eq_matches`: what the store checks of its strings is what the
patterns match.
-/
namespace Nelix.Contracts
open Core

/-- A class that holds characters only. -/
def charClass (p : Char → Bool) : CodePoint → Bool
  | .char c => p c
  | _ => false

def literal (c : Char) : Regex CodePoint := .run (charClass (· == c)) 1 1

/-- The newline that `$` looks for. -/
def lineFeed : CodePoint := .char '\n'

/-- `<letter>-[0-9a-f]{least,most}` -/
def hexRe (letter : Char) (least most : ℕ) : Regex CodePoint :=
  .all (literal letter) [literal '-', .run (charClass isHexDigit) least most]

def sessionRe : Regex CodePoint := (hexRe 's' 32 32).anchored

def orchRe : Regex CodePoint := (hexRe 'o' 32 32).anchored

def generationRe : Regex CodePoint := (hexRe 'g' 32 32).anchored

/-- `[A-Za-z0-9][A-Za-z0-9._:-]{0,127}` -/
def ownerShape : Regex CodePoint :=
  .seq (.run (charClass isAlnum) 1 1) (.run (charClass isOwnerChar) 0 127)

def ownerRe : Regex CodePoint := ownerShape.anchored

/-- `invalid <kind>: <value!r>` -/
structure InvalidId where
  kind : String
  value : Text
  deriving DecidableEq

def check (value : Text) (rx : Regex CodePoint) (kind : String) : Except InvalidId Text :=
  if rx.doesMatch lineFeed value then .ok value else .error ⟨kind, value⟩

def validateSessionId (value : Text) : Except InvalidId Text := check value sessionRe "session_id"

def validateOrchestrationId (value : Text) : Except InvalidId Text :=
  check value orchRe "orchestration_id"

def validateGenerationId (value : Text) : Except InvalidId Text :=
  check value generationRe "generation_id"

def validateOwnerId (value : Text) : Except InvalidId Text := check value ownerRe "owner_id"

/-- The kinds that have a validator. -/
inductive IdKind
  | session
  | orchestration
  | generation
  | owner
  deriving DecidableEq

def IdKind.validate : IdKind → Text → Except InvalidId Text
  | session => validateSessionId
  | orchestration => validateOrchestrationId
  | generation => validateGenerationId
  | owner => validateOwnerId

/-! ### The grammars -/

/-- A letter, a dash and lowercase hex digits. -/
def IsHexId (letter : Char) (least most : ℕ) (value : Text) : Prop :=
  ∃ digits : List Char, least ≤ digits.length ∧ digits.length ≤ most ∧
    (∀ c ∈ digits, isHexDigit c = true) ∧ value = (letter :: '-' :: digits).map .char

/-- A letter or a digit, and up to 127 more with `.`, `_`, `:` and `-` among them. -/
def IsOwnerId (value : Text) : Prop :=
  ∃ (first : Char) (rest : List Char), isAlnum first = true ∧ rest.length ≤ 127 ∧
    (∀ c ∈ rest, isOwnerChar c = true) ∧ value = (first :: rest).map .char

/-- A complete member of the grammar of the kind. -/
def IdKind.Member : IdKind → Text → Prop
  | session => IsHexId 's' 32 32
  | orchestration => IsHexId 'o' 32 32
  | generation => IsHexId 'g' 32 32
  | owner => IsOwnerId

/-! ### What the patterns spell -/

variable {p : Char → Bool} {letter c : Char} {least most : ℕ} {value word : Text} {kind : IdKind}

/-- A word of a class of characters is made of characters. -/
theorem spells_class :
    (Regex.run (charClass p) least most).Spells word ↔
      ∃ chars : List Char, least ≤ chars.length ∧ chars.length ≤ most ∧ (∀ c ∈ chars, p c = true) ∧
        word = chars.map .char := by
  constructor
  · rintro ⟨low, high, solid⟩
    have chars : ∃ chars : List Char, (∀ c ∈ chars, p c = true) ∧ word = chars.map .char := by
      clear low high
      induction word with
      | nil => exact ⟨[], by simp, rfl⟩
      | cons c word ih =>
        obtain ⟨head, rest⟩ := List.forall_mem_cons.mp solid
        obtain ⟨chars, all, rfl⟩ := ih rest
        cases c with
        | char c => exact ⟨c :: chars, List.forall_mem_cons.mpr ⟨head, all⟩, rfl⟩
        | high _ => cases head
        | low _ => cases head
    obtain ⟨chars, all, rfl⟩ := chars
    rw [List.length_map] at low high
    exact ⟨chars, low, high, all, rfl⟩
  · rintro ⟨chars, low, high, all, rfl⟩
    refine ⟨by rwa [List.length_map], by rwa [List.length_map], ?_⟩
    intro c member
    obtain ⟨c, inside, rfl⟩ := List.mem_map.mp member
    exact all c inside

theorem spells_literal : (literal c).Spells word ↔ word = [.char c] := by
  rw [literal, spells_class]
  constructor
  · rintro ⟨chars, low, high, all, rfl⟩
    obtain ⟨d, rfl⟩ := List.length_eq_one_iff.mp (le_antisymm high low)
    rw [beq_iff_eq.mp (all d (by simp))]
    rfl
  · rintro rfl
    exact ⟨[c], le_refl _, le_refl _, by simp, rfl⟩

theorem spells_hexRe : (hexRe letter least most).Spells value ↔ IsHexId letter least most value := by
  simp only [hexRe, Regex.all, Regex.Spells.eq_4, spells_literal]
  constructor
  · rintro ⟨-, rfl, -, ⟨-, rfl, word, spelled, rfl⟩, rfl⟩
    obtain ⟨digits, low, high, all, rfl⟩ := spells_class.mp spelled
    exact ⟨digits, low, high, all, rfl⟩
  · rintro ⟨digits, low, high, all, rfl⟩
    exact ⟨_, rfl, _, ⟨_, rfl, _, spells_class.mpr ⟨digits, low, high, all, rfl⟩, rfl⟩, rfl⟩

theorem spells_ownerShape : ownerShape.Spells value ↔ IsOwnerId value := by
  simp only [ownerShape, Regex.Spells.eq_4, spells_class]
  constructor
  · rintro ⟨-, ⟨head, low, high, alnum, rfl⟩, -, ⟨rest, -, short, all, rfl⟩, rfl⟩
    obtain ⟨first, rfl⟩ := List.length_eq_one_iff.mp (le_antisymm high low)
    exact ⟨first, rest, alnum first (by simp), short, all, rfl⟩
  · rintro ⟨first, rest, alnum, short, all, rfl⟩
    exact ⟨_, ⟨[first], le_refl _, le_refl _, by simpa using alnum, rfl⟩, _,
      ⟨rest, Nat.zero_le _, short, all, rfl⟩, rfl⟩

theorem plain_hexRe : (hexRe letter least most).Plain := ⟨trivial, trivial, trivial⟩

theorem plain_ownerShape : ownerShape.Plain := ⟨trivial, trivial⟩

/-! ### What the validators take -/

/-- The pattern of the kind, less its anchors. -/
def IdKind.shape : IdKind → Regex CodePoint
  | session => hexRe 's' 32 32
  | orchestration => hexRe 'o' 32 32
  | generation => hexRe 'g' 32 32
  | owner => ownerShape

theorem IdKind.plain_shape (kind : IdKind) : kind.shape.Plain := by
  cases kind with
  | owner => exact plain_ownerShape
  | session | orchestration | generation => exact plain_hexRe

theorem IdKind.spells_shape : kind.shape.Spells value ↔ kind.Member value := by
  cases kind with
  | owner => exact spells_ownerShape
  | session | orchestration | generation => exact spells_hexRe

theorem check_ok_iff {rx : Regex CodePoint} {name : String} :
    check value rx name = .ok word ↔ word = value ∧ rx.doesMatch lineFeed value = true := by
  rw [check]
  split
  case isTrue matched => simp [matched, eq_comm]
  case isFalse refused => simp [refused]

theorem IdKind.validate_ok_iff_matches (kind : IdKind) :
    kind.validate value = .ok word ↔
      word = value ∧ kind.shape.anchored.doesMatch lineFeed value = true := by
  cases kind <;> exact check_ok_iff

theorem IdKind.validate_ok_iff (kind : IdKind) (ending : value.getLast? ≠ some lineFeed) :
    kind.validate value = .ok word ↔ word = value ∧ kind.Member value := by
  rw [validate_ok_iff_matches, Regex.matches_anchored_of_ends kind.plain_shape ending, spells_shape]

/-! ### What the store checks of its strings -/

theorem endsThere_iff {rest : List Char} : endsThere rest = true ↔ rest = [] ∨ rest = ['\n'] := by
  cases rest with
  | nil => simp [endsThere]
  | cons c rest =>
    cases rest with
    | nil =>
      by_cases newline : c = '\n'
      · simp [endsThere, newline]
      · simp [endsThere, newline]
    | cons d rest => simp [endsThere]

/-- The pattern matches a string that is a word of it, or one with a newline behind it. -/
theorem matches_ofString {r : Regex CodePoint} {words : List Char → Prop} (plain : r.Plain)
    (spelled : ∀ t, r.Spells t ↔ ∃ w, words w ∧ t = w.map .char) (value : String) :
    r.anchored.doesMatch lineFeed (Text.ofString value) = true ↔
      ∃ w, words w ∧ ∃ rest, (rest = [] ∨ rest = ['\n']) ∧ value.toList = w ++ rest := by
  have char_inj : Function.Injective CodePoint.char := fun a b same => CodePoint.char.inj same
  rw [Regex.matches_anchored plain]
  constructor
  · rintro ⟨word, here, whole⟩
    obtain ⟨w, member, rfl⟩ := (spelled word).mp here
    rcases whole with whole | whole
    · refine ⟨w, member, [], .inl rfl, List.map_injective_iff.mpr char_inj ?_⟩
      rw [List.append_nil]
      exact whole
    · refine ⟨w, member, ['\n'], .inr rfl, List.map_injective_iff.mpr char_inj ?_⟩
      rw [List.map_append]
      exact whole
  · rintro ⟨w, member, rest, rfl | rfl, same⟩
    · exact ⟨_, (spelled _).mpr ⟨w, member, rfl⟩, .inl (by rw [Text.ofString, same, List.append_nil])⟩
    · exact ⟨_, (spelled _).mpr ⟨w, member, rfl⟩, .inr (by rw [Text.ofString, same, List.map_append]; rfl)⟩

theorem matchesHex32_iff {value : String} :
    matchesHex32 letter value = true ↔
      ∃ w, (∃ digits, digits.length = 32 ∧ (∀ c ∈ digits, isHexDigit c = true) ∧
          w = letter :: '-' :: digits) ∧
        ∃ rest, (rest = [] ∨ rest = ['\n']) ∧ value.toList = w ++ rest := by
  constructor
  · intro valid
    rw [matchesHex32] at valid
    split at valid
    case h_2 => cases valid
    case h_1 first rest shaped =>
      simp only [Bool.and_eq_true, beq_iff_eq, List.all_eq_true] at valid
      obtain ⟨⟨⟨rfl, width⟩, all⟩, ending⟩ := valid
      refine ⟨_, ⟨rest.take 32, width, all, rfl⟩, rest.drop 32, endsThere_iff.mp ending, ?_⟩
      rw [shaped, List.cons_append, List.cons_append, List.take_append_drop]
  · rintro ⟨-, ⟨digits, width, all, rfl⟩, rest, ending, shaped⟩
    have front : (digits ++ rest).take 32 = digits := List.take_left' width
    have behind : (digits ++ rest).drop 32 = rest := List.drop_left' width
    simp only [matchesHex32, shaped, List.cons_append, front, behind, width, beq_self_eq_true,
      Bool.true_and, Bool.and_eq_true, List.all_eq_true]
    exact ⟨all, endsThere_iff.mpr ending⟩

theorem matchesHex32_eq_matches (letter : Char) (value : String) :
    matchesHex32 letter value =
      (hexRe letter 32 32).anchored.doesMatch lineFeed (Text.ofString value) := by
  refine Bool.eq_iff_iff.mpr (matchesHex32_iff.trans (matches_ofString plain_hexRe (fun t => ?_) value).symm)
  rw [spells_hexRe]
  constructor
  · rintro ⟨digits, low, high, all, rfl⟩
    exact ⟨_, ⟨digits, le_antisymm high low, all, rfl⟩, rfl⟩
  · rintro ⟨-, ⟨digits, width, all, rfl⟩, rfl⟩
    exact ⟨digits, width.ge, width.le, all, rfl⟩

theorem validSessionId_eq_matches (value : String) :
    validSessionId value = sessionRe.doesMatch lineFeed (Text.ofString value) :=
  matchesHex32_eq_matches 's' value

theorem validGenerationId_eq_matches (value : String) :
    validGenerationId value = generationRe.doesMatch lineFeed (Text.ofString value) :=
  matchesHex32_eq_matches 'g' value

/-- A newline is none of the owner's characters, so what may follow stops the run. -/
theorem takeWhile_owner {rest ending : List Char} (all : ∀ c ∈ rest, isOwnerChar c = true)
    (stops : ending = [] ∨ ending = ['\n']) : (rest ++ ending).takeWhile isOwnerChar = rest := by
  rw [List.takeWhile_append_of_pos all]
  rcases stops with rfl | rfl
  · simp
  · rw [List.takeWhile_cons_of_neg (by decide), List.append_nil]

theorem validOwnerId_iff {value : String} :
    validOwnerId value = true ↔
      ∃ w, (∃ first rest, isAlnum first = true ∧ rest.length ≤ 127 ∧
          (∀ c ∈ rest, isOwnerChar c = true) ∧ w = first :: rest) ∧
        ∃ rest, (rest = [] ∨ rest = ['\n']) ∧ value.toList = w ++ rest := by
  constructor
  · intro valid
    rw [validOwnerId] at valid
    split at valid
    case h_2 => cases valid
    case h_1 first rest shaped =>
      simp only [Bool.and_eq_true, decide_eq_true_eq] at valid
      obtain ⟨⟨alnum, short⟩, ending⟩ := valid
      refine ⟨_, ⟨first, rest.takeWhile isOwnerChar, alnum, short, ?_, rfl⟩, _,
        endsThere_iff.mp ending, ?_⟩
      · exact fun c member => List.mem_takeWhile_imp member
      · have front : rest.take (rest.takeWhile isOwnerChar).length = rest.takeWhile isOwnerChar :=
          (List.prefix_iff_eq_take.mp (List.takeWhile_prefix _)).symm
        have whole := List.take_append_drop (rest.takeWhile isOwnerChar).length rest
        rw [front] at whole
        rw [shaped, List.cons_append, whole]
  · rintro ⟨-, ⟨first, rest, alnum, short, all, rfl⟩, ending, stops, shaped⟩
    simp only [validOwnerId, shaped, List.cons_append, takeWhile_owner all stops, List.drop_left,
      alnum, short, decide_true, Bool.true_and]
    exact endsThere_iff.mpr stops

theorem validOwnerId_eq_matches (value : String) :
    validOwnerId value = ownerRe.doesMatch lineFeed (Text.ofString value) := by
  refine Bool.eq_iff_iff.mpr
    (validOwnerId_iff.trans (matches_ofString plain_ownerShape (fun t => ?_) value).symm)
  rw [spells_ownerShape]
  constructor
  · rintro ⟨first, rest, alnum, short, all, rfl⟩
    exact ⟨_, ⟨first, rest, alnum, short, all, rfl⟩, rfl⟩
  · rintro ⟨-, ⟨first, rest, alnum, short, all, rfl⟩, rfl⟩
    exact ⟨first, rest, alnum, short, all, rfl⟩

end Nelix.Contracts
