import Nelix.Core.Text

/-!
# UTF-8

What is decoded octet by octet, and the code of a character.

## Main results

`utf8_append`: what is appended to a text in UTF-8 is decoded alone.

`utf8_encode`: what is encoded is decoded.
-/
namespace Core.Text

variable {octets more rest : List ℕ} {text : Text} {a b c d : ℕ}

/-! ### The four lengths of a code -/

/-- These octets are the code of one character, whatever follows. -/
def Codes (octets : List ℕ) (p : CodePoint) : Prop := ∀ rest, utf8 (octets ++ rest) = (utf8 rest).map (p :: ·)

theorem codes_one (first : a < 0x80) : Codes [a] (.ofNat a) := by
  intro rest
  show utf8 (a :: rest) = _
  rw [utf8.eq_def]
  dsimp only
  rw [if_pos first]

theorem codes_two (first : 0xc2 ≤ a ∧ a < 0xe0) (second : continues b = true) :
    Codes [a, b] (.ofNat (a % 32 * 64 + b % 64)) := by
  intro rest
  show utf8 (a :: b :: rest) = _
  rw [utf8.eq_def]
  dsimp only
  rw [if_neg (by omega), if_pos first, if_pos second]

theorem codes_three (first : 0xe0 ≤ a ∧ a < 0xf0)
    (later : continues b = true ∧ continues c = true ∧ 0x800 ≤ (a % 16 * 64 + b % 64) * 64 + c % 64) :
    Codes [a, b, c] (.ofNat ((a % 16 * 64 + b % 64) * 64 + c % 64)) := by
  intro rest
  show utf8 (a :: b :: c :: rest) = _
  rw [utf8.eq_def]
  dsimp only
  rw [if_neg (by omega), if_neg (by omega), if_pos first, if_pos later]

theorem codes_four (first : 0xf0 ≤ a ∧ a < 0xf5)
    (later : continues b = true ∧ continues c = true ∧ continues d = true ∧
      0x10000 ≤ ((a % 8 * 64 + b % 64) * 64 + c % 64) * 64 + d % 64 ∧
      ((a % 8 * 64 + b % 64) * 64 + c % 64) * 64 + d % 64 < 0x110000) :
    Codes [a, b, c, d] (.ofNat (((a % 8 * 64 + b % 64) * 64 + c % 64) * 64 + d % 64)) := by
  intro rest
  show utf8 (a :: b :: c :: d :: rest) = _
  rw [utf8.eq_def]
  dsimp only
  rw [if_neg (by omega), if_neg (by omega), if_neg (by omega), if_pos first, if_pos later]

/-- What is decoded begins with the code of a character. -/
theorem codes_of_utf8 (decoded : utf8 (a :: rest) = some text) :
    ∃ code p later text', a :: rest = code ++ later ∧ code ≠ [] ∧ Codes code p ∧ utf8 later = some text' ∧
      text = p :: text' := by
  have taken : ∀ {code p later}, a :: rest = code ++ later → code ≠ [] → Codes code p →
      ∃ code p later text', a :: rest = code ++ later ∧ code ≠ [] ∧ Codes code p ∧ utf8 later = some text' ∧
        text = p :: text' := by
    intro code p later split filled codes
    rw [split, codes later] at decoded
    obtain ⟨text', found, rfl⟩ := Option.map_eq_some_iff.mp decoded
    exact ⟨code, p, later, text', split, filled, codes, found, rfl⟩
  have read := decoded
  rw [utf8.eq_def] at read
  dsimp only at read
  split_ifs at read with one two three four
  · exact taken List.singleton_append.symm (List.cons_ne_nil _ _) (codes_one one)
  · rcases rest with _ | ⟨b, later⟩
    · cases read
    · dsimp only at read
      split_ifs at read with second
      have split : a :: b :: later = [a, b] ++ later := rfl
      exact taken split (List.cons_ne_nil _ _) (codes_two two second)
  · rcases rest with _ | ⟨b, _ | ⟨c, later⟩⟩
    · cases read
    · cases read
    · dsimp only at read
      split_ifs at read with others
      have split : a :: b :: c :: later = [a, b, c] ++ later := rfl
      exact taken split (List.cons_ne_nil _ _) (codes_three three others)
  · rcases rest with _ | ⟨b, _ | ⟨c, _ | ⟨d, later⟩⟩⟩
    · cases read
    · cases read
    · cases read
    · dsimp only at read
      split_ifs at read with others
      have split : a :: b :: c :: d :: later = [a, b, c, d] ++ later := rfl
      exact taken split (List.cons_ne_nil _ _) (codes_four four others)

/-- What is appended is decoded alone. -/
theorem utf8_append (decoded : utf8 octets = some text) (more : List ℕ) :
    utf8 (octets ++ more) = (utf8 more).map (text ++ ·) := by
  induction size : octets.length using Nat.strong_induction_on generalizing octets text with
  | _ n ih =>
    cases octets with
    | nil =>
      obtain rfl : [] = text := Option.some.inj decoded
      exact Option.map_id'.symm
    | cons a rest =>
      obtain ⟨code, p, later, text', split, filled, codes, found, rfl⟩ := codes_of_utf8 decoded
      have shorter : later.length < n := by
        have positive := List.length_pos_iff.mpr filled
        rw [← size, split, List.length_append]
        omega
      rw [split, List.append_assoc, codes, ih later.length shorter found rfl, Option.map_map]
      rfl

/-! ### Encoding -/

/-- The code of a character. -/
def encodeChar (c : Char) : List ℕ :=
  let n := c.toNat
  if n < 0x80 then [n]
  else if n < 0x800 then [0xc0 + n / 64, 0x80 + n % 64]
  else if n < 0x10000 then [0xe0 + n / 4096, 0x80 + n / 64 % 64, 0x80 + n % 64]
  else [0xf0 + n / 262144, 0x80 + n / 4096 % 64, 0x80 + n / 64 % 64, 0x80 + n % 64]

theorem continues_of_lt {n : ℕ} (small : n < 64) : continues (0x80 + n) = true := by
  simp [continues]
  omega

theorem codes_encodeChar (c : Char) : Codes (encodeChar c) (.char c) := by
  have bound := CodePoint.char_lt c
  have named := CodePoint.ofNat_char c
  unfold encodeChar
  dsimp only
  split_ifs with one two three
  · rw [← named]
    exact codes_one one
  · have whole : (0xc0 + c.toNat / 64) % 32 * 64 + (0x80 + c.toNat % 64) % 64 = c.toNat := by omega
    have codes := codes_two (a := 0xc0 + c.toNat / 64) (b := 0x80 + c.toNat % 64) (by omega)
      (continues_of_lt (by omega))
    rwa [whole, named] at codes
  · have whole : ((0xe0 + c.toNat / 4096) % 16 * 64 + (0x80 + c.toNat / 64 % 64) % 64) * 64 +
        (0x80 + c.toNat % 64) % 64 = c.toNat := by omega
    have codes := codes_three (a := 0xe0 + c.toNat / 4096) (b := 0x80 + c.toNat / 64 % 64)
      (c := 0x80 + c.toNat % 64) (by omega)
      ⟨continues_of_lt (by omega), continues_of_lt (by omega), by omega⟩
    rwa [whole, named] at codes
  · have whole : (((0xf0 + c.toNat / 262144) % 8 * 64 + (0x80 + c.toNat / 4096 % 64) % 64) * 64 +
        (0x80 + c.toNat / 64 % 64) % 64) * 64 + (0x80 + c.toNat % 64) % 64 = c.toNat := by omega
    have codes := codes_four (a := 0xf0 + c.toNat / 262144) (b := 0x80 + c.toNat / 4096 % 64)
      (c := 0x80 + c.toNat / 64 % 64) (d := 0x80 + c.toNat % 64) (by omega)
      ⟨continues_of_lt (by omega), continues_of_lt (by omega), continues_of_lt (by omega), by omega, by omega⟩
    rwa [whole, named] at codes

/-- Each octet is one. -/
theorem encodeChar_lt {c : Char} : ∀ octet ∈ encodeChar c, octet < 256 := by
  have bound := CodePoint.char_lt c
  unfold encodeChar
  dsimp only
  split_ifs <;> simp <;> omega

/-- What is encoded is decoded. -/
theorem utf8_encode (s : List Char) : utf8 (s.flatMap encodeChar) = some (s.map .char) := by
  induction s with
  | nil => rfl
  | cons c s ih =>
    rw [List.flatMap_cons, codes_encodeChar, ih]
    rfl

end Core.Text
