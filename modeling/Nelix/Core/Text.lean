import Mathlib.Data.List.Chain
import Mathlib.Data.Fin.Basic

/-!
# Texts

A Python string is a list of code points, and a code point is a character or one half of a
surrogate pair. The decoders let such halves pass, as the error handler `surrogatepass` does.
-/
namespace Core

inductive CodePoint
  | char (c : Char)
  /-- From U+D800 on. -/
  | high (bits : Fin 1024)
  /-- From U+DC00 on. -/
  | low (bits : Fin 1024)
  deriving DecidableEq

abbrev Text := List CodePoint

namespace CodePoint

def ofNat (n : ℕ) : CodePoint :=
  if n < 0xd800 ∨ 0xe000 ≤ n then .char (Char.ofNat n)
  else if n < 0xdc00 then .high (Fin.ofNat 1024 n)
  else .low (Fin.ofNat 1024 n)

theorem ofNat_high (bits : Fin 1024) : ofNat (0xd800 + bits) = .high bits := by
  have inside := bits.isLt
  have same : Fin.ofNat 1024 (0xd800 + bits) = bits := Fin.ext (by simp [Fin.ofNat]; omega)
  rw [ofNat, if_neg (by omega), if_pos (by omega), same]

theorem ofNat_low (bits : Fin 1024) : ofNat (0xdc00 + bits) = .low bits := by
  have inside := bits.isLt
  have same : Fin.ofNat 1024 (0xdc00 + bits) = bits := Fin.ext (by simp [Fin.ofNat]; omega)
  rw [ofNat, if_neg (by omega), if_neg (by omega), same]

theorem ofNat_char (c : Char) : ofNat c.toNat = .char c := by
  have outside : c.toNat < 0xd800 ∨ 0xe000 ≤ c.toNat := by
    rcases c.valid with below | ⟨above, -⟩
    · exact .inl below
    · exact .inr above
  rw [ofNat, if_pos outside, Char.ofNat_toNat]

/-- The character that two halves make. -/
def joined (h l : Fin 1024) : CodePoint := .char (Char.ofNat (0x10000 + h * 1024 + l))

theorem char_lt (c : Char) : c.toNat < 0x110000 := by
  have valid : c.toNat < 0xd800 ∨ 0xdfff < c.toNat ∧ c.toNat < 0x110000 := c.valid
  omega

theorem joined_char {c : Char} (astral : 0x10000 ≤ c.toNat) :
    ∃ h l, ofNat (0xd800 + (c.toNat - 0x10000) / 1024) = .high h ∧
      ofNat (0xdc00 + (c.toNat - 0x10000) % 1024) = .low l ∧ joined h l = .char c := by
  have bound := char_lt c
  let h : Fin 1024 := ⟨(c.toNat - 0x10000) / 1024, by omega⟩
  let l : Fin 1024 := ⟨(c.toNat - 0x10000) % 1024, by omega⟩
  refine ⟨h, l, ofNat_high h, ofNat_low l, ?_⟩
  have whole : 0x10000 + (c.toNat - 0x10000) / 1024 * 1024 + (c.toNat - 0x10000) % 1024 =
      c.toNat := by omega
  exact congrArg CodePoint.char ((congrArg Char.ofNat whole).trans (Char.ofNat_toNat c))

def isHigh : CodePoint → Bool
  | high _ => true
  | _ => false

def isLow : CodePoint → Bool
  | low _ => true
  | _ => false

end CodePoint

namespace Text

def ofString (s : String) : Text := s.toList.map .char

/-- No two neighbours are the halves of one character. -/
def Unpaired (t : Text) : Prop := t.IsChain fun p q => ¬ (p.isHigh ∧ q.isLow)

instance (t : Text) : Decidable t.Unpaired := inferInstanceAs (Decidable (List.IsChain _ t))

theorem ofString_unpaired (s : String) : (ofString s).Unpaired := by
  refine List.Pairwise.isChain (List.pairwise_map.mpr (List.pairwise_of_forall fun c _ => ?_))
  simp [CodePoint.isHigh]

theorem ofString_injective {s s' : String} (same : ofString s = ofString s') : s = s' := by
  have injective : Function.Injective CodePoint.char := fun _ _ eq => CodePoint.char.inj eq
  exact String.toList_injective (List.map_injective_iff.mpr injective same)

/-- The halves that may be joined are joined, from the left. -/
def joinPairs : List (CodePoint × Bool) → Text
  | (.high h, true) :: (.low l, true) :: rest => .joined h l :: joinPairs rest
  | (p, _) :: rest => p :: joinPairs rest
  | [] => []

/-- Whether an octet goes on with a character of UTF-8. -/
def continues (octet : ℕ) : Bool := 0x80 ≤ octet && octet < 0xc0

def utf8 : List ℕ → Option Text
  | [] => some []
  | a :: rest =>
    if a < 0x80 then (utf8 rest).map (.ofNat a :: ·)
    else if 0xc2 ≤ a ∧ a < 0xe0 then
      match rest with
      | b :: rest =>
        if continues b then (utf8 rest).map (.ofNat (a % 32 * 64 + b % 64) :: ·) else none
      | [] => none
    else if 0xe0 ≤ a ∧ a < 0xf0 then
      match rest with
      | b :: c :: rest =>
        let n := (a % 16 * 64 + b % 64) * 64 + c % 64
        if continues b ∧ continues c ∧ 0x800 ≤ n then (utf8 rest).map (.ofNat n :: ·) else none
      | _ => none
    else if 0xf0 ≤ a ∧ a < 0xf5 then
      match rest with
      | b :: c :: d :: rest =>
        let n := ((a % 8 * 64 + b % 64) * 64 + c % 64) * 64 + d % 64
        if continues b ∧ continues c ∧ continues d ∧ 0x10000 ≤ n ∧ n < 0x110000 then
          (utf8 rest).map (.ofNat n :: ·)
        else none
      | _ => none
    else none

def utf16Units (bigEndian : Bool) : List ℕ → Option (List ℕ)
  | [] => some []
  | [_] => none
  | a :: b :: rest =>
    (utf16Units bigEndian rest).map ((if bigEndian then a * 256 + b else b * 256 + a) :: ·)

def utf16 (bigEndian : Bool) (octets : List ℕ) : Option Text :=
  (utf16Units bigEndian octets).map fun units => joinPairs (units.map fun u => (.ofNat u, true))

def utf32 (bigEndian : Bool) : List ℕ → Option Text
  | [] => some []
  | a :: b :: c :: d :: rest =>
    let n := if bigEndian then ((a * 256 + b) * 256 + c) * 256 + d
      else ((d * 256 + c) * 256 + b) * 256 + a
    if n < 0x110000 then (utf32 bigEndian rest).map (.ofNat n :: ·) else none
  | _ => none

/-- `octets.decode(json.detect_encoding(octets), "surrogatepass")` -/
def decodeOctets (octets : List ℕ) : Option Text :=
  if [0, 0, 0xfe, 0xff].isPrefixOf octets then utf32 true (octets.drop 4)
  else if [0xff, 0xfe, 0, 0].isPrefixOf octets then utf32 false (octets.drop 4)
  else if [0xfe, 0xff].isPrefixOf octets then utf16 true (octets.drop 2)
  else if [0xff, 0xfe].isPrefixOf octets then utf16 false (octets.drop 2)
  else if [0xef, 0xbb, 0xbf].isPrefixOf octets then utf8 (octets.drop 3)
  else
    match octets with
    | [a, b] => if a = 0 then utf16 true octets else if b = 0 then utf16 false octets
      else utf8 octets
    | a :: b :: c :: d :: _ =>
      if a = 0 then if b = 0 then utf32 true octets else utf16 true octets
      else if b = 0 then if c = 0 ∧ d = 0 then utf32 false octets else utf16 false octets
      else utf8 octets
    | _ => utf8 octets

/-- ASCII is its own UTF-8. -/
theorem utf8_ascii {l : List Char} (ascii : ∀ c ∈ l, c.toNat < 128) :
    utf8 (l.map Char.toNat) = some (l.map .char) := by
  induction l with
  | nil => rfl
  | cons c rest ih =>
    have small := ascii c (by simp)
    have later := ih fun c among => ascii c (by simp [among])
    rw [List.map_cons, utf8.eq_def]
    simp only [if_pos small, later, CodePoint.ofNat_char, Option.map_some, List.map_cons]

/-- Two letters of ASCII at the start tell that it is UTF-8. -/
theorem decodeOctets_ascii {a b : Char} {l : List Char} (ascii : ∀ c ∈ a :: b :: l, c.toNat < 128)
    (positive : 0 < a.toNat ∧ 0 < b.toNat) :
    decodeOctets ((a :: b :: l).map Char.toNat) = some ((a :: b :: l).map .char) := by
  have small := ascii a (by simp)
  have noMark : ∀ m ∈ [0, 0xff, 0xfe, 0xef], (m == a.toNat) = false := by
    simp
    omega
  rw [← utf8_ascii ascii]
  simp only [List.map_cons, decodeOctets, List.isPrefixOf, noMark 0 (by simp),
    noMark 0xff (by simp), noMark 0xfe (by simp), noMark 0xef (by simp), Bool.false_and]
  have first : a.toNat ≠ 0 := by omega
  have second : b.toNat ≠ 0 := by omega
  cases l with
  | nil => simp [first, second]
  | cons c l =>
    cases l with
    | nil => simp
    | cons d l => simp [first, second]

end Text

end Core
