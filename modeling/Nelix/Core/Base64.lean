import Mathlib.Data.List.Basic

/-!
# URL-safe base64

Octets are natural numbers below 256. The decoder is the lenient one of Python's `binascii`: what
is not in the alphabet is skipped, and only the number of sextets can be wrong.
-/
namespace Core.Base64

/-- The letter of a sextet; 62 and 63 are the URL-safe ones. -/
def letter (sextet : ℕ) : Char :=
  if sextet < 26 then Char.ofNat (65 + sextet)
  else if sextet < 52 then Char.ofNat (97 + (sextet - 26))
  else if sextet < 62 then Char.ofNat (48 + (sextet - 52))
  else if sextet = 62 then '-'
  else '_'

/-- `base64.urlsafe_b64encode(octets)` without the padding that `rstrip("=")` removes. -/
def encode : List ℕ → List Char
  | [] => []
  | [a] => [letter (a / 4), letter (a % 4 * 16)]
  | [a, b] => [letter (a / 4), letter (a % 4 * 16 + b / 16), letter (b % 16 * 4)]
  | a :: b :: c :: rest =>
    letter (a / 4) :: letter (a % 4 * 16 + b / 16) :: letter (b % 16 * 4 + c / 64) ::
      letter (c % 64) :: encode rest

/-- The sextet of a letter, of either alphabet. -/
def sextet? (c : Char) : Option ℕ :=
  if 'A' ≤ c ∧ c ≤ 'Z' then some (c.toNat - 65)
  else if 'a' ≤ c ∧ c ≤ 'z' then some (c.toNat - 97 + 26)
  else if '0' ≤ c ∧ c ≤ '9' then some (c.toNat - 48 + 52)
  else if c = '-' ∨ c = '+' then some 62
  else if c = '_' ∨ c = '/' then some 63
  else none

/-- `a2b_base64` in the middle of its input: `quad` sextets of the present four were read, `left`
holds the bits that are not in an octet yet, and `pads` signs of padding came last. -/
def scan (quad left pads : ℕ) : List Char → Option (List ℕ)
  | [] => if quad = 0 then some [] else none
  | c :: rest =>
    if c = '=' then
      -- enough padding ends the input, whatever follows
      if 2 ≤ quad ∧ 4 ≤ quad + pads + 1 then some []
      else scan quad left (if 2 ≤ quad then pads + 1 else pads) rest
    else
      match sextet? c with
      | none => scan quad left pads rest
      | some s =>
        match quad with
        | 0 => scan 1 s 0 rest
        | 1 => (scan 2 (s % 16) 0 rest).map ((left * 4 + s / 16) :: ·)
        | 2 => (scan 3 (s % 4) 0 rest).map ((left * 16 + s / 4) :: ·)
        | _ => (scan 0 0 0 rest).map ((left * 64 + s) :: ·)

/-- `base64.urlsafe_b64decode(letters)` -/
def decode (letters : List Char) : Option (List ℕ) := scan 0 0 0 letters

/-- `"=" * (-len(letters) % 4)` -/
def padding (length : ℕ) : List Char := List.replicate ((4 - length % 4) % 4) '='

theorem sextet?_letter {s : ℕ} (small : s < 64) :
    letter s ≠ '=' ∧ sextet? (letter s) = some s := by
  revert s
  decide

section Letters

variable {s : ℕ} (small : s < 64) (left pads : ℕ) (rest : List Char)
include small

theorem scan_first : scan 0 left pads (letter s :: rest) = scan 1 s 0 rest := by
  obtain ⟨noPad, found⟩ := sextet?_letter small
  simp only [scan, if_neg noPad, found]

theorem scan_second : scan 1 left pads (letter s :: rest) =
    (scan 2 (s % 16) 0 rest).map ((left * 4 + s / 16) :: ·) := by
  obtain ⟨noPad, found⟩ := sextet?_letter small
  simp only [scan, if_neg noPad, found]

theorem scan_third : scan 2 left pads (letter s :: rest) =
    (scan 3 (s % 4) 0 rest).map ((left * 16 + s / 4) :: ·) := by
  obtain ⟨noPad, found⟩ := sextet?_letter small
  simp only [scan, if_neg noPad, found]

theorem scan_fourth : scan 3 left pads (letter s :: rest) =
    (scan 0 0 0 rest).map ((left * 64 + s) :: ·) := by
  obtain ⟨noPad, found⟩ := sextet?_letter small
  simp only [scan, if_neg noPad, found]

end Letters

/-- What was encoded is decoded when the padding is put back. -/
theorem decode_encode {octets : List ℕ} (small : ∀ o ∈ octets, o < 256) :
    decode (encode octets ++ padding (encode octets).length) = some octets := by
  unfold decode
  induction octets using encode.induct with
  | case1 => decide
  | case2 a =>
    have bound : a < 256 := small a (by simp)
    have octet : a / 4 * 4 + a % 4 * 16 / 16 = a := by omega
    simp only [encode, List.cons_append, List.nil_append]
    rw [scan_first (by omega), scan_second (by omega), octet]
    rfl
  | case3 a b =>
    have bounds : a < 256 ∧ b < 256 := ⟨small a (by simp), small b (by simp)⟩
    have first : a / 4 * 4 + (a % 4 * 16 + b / 16) / 16 = a := by omega
    have second : (a % 4 * 16 + b / 16) % 16 * 16 + b % 16 * 4 / 4 = b := by omega
    simp only [encode, List.cons_append, List.nil_append]
    rw [scan_first (by omega), scan_second (by omega), scan_third (by omega), first, second]
    rfl
  | case4 a b c rest ih =>
    have bounds : a < 256 ∧ b < 256 ∧ c < 256 :=
      ⟨small a (by simp), small b (by simp), small c (by simp)⟩
    have later := ih fun o among => small o (by simp [among])
    have pads : padding (encode (a :: b :: c :: rest)).length = padding (encode rest).length := by
      simp only [encode, padding, List.length_cons]
      congr 1
      omega
    have first : a / 4 * 4 + (a % 4 * 16 + b / 16) / 16 = a := by omega
    have second : (a % 4 * 16 + b / 16) % 16 * 16 + (b % 16 * 4 + c / 64) / 4 = b := by omega
    have third : (b % 16 * 4 + c / 64) % 4 * 64 + c % 64 = c := by omega
    rw [pads, encode]
    simp only [List.cons_append]
    rw [scan_first (by omega), scan_second (by omega), scan_third (by omega),
      scan_fourth (by omega), later, first, second, third]
    rfl

/-- Encoding makes nothing shorter. -/
theorem length_le_encode (octets : List ℕ) : octets.length ≤ (encode octets).length := by
  induction octets using encode.induct with
  | case1 => exact Nat.le_refl _
  | case2 a => simp [encode]
  | case3 a b => simp [encode]
  | case4 a b c rest ih =>
    simp only [encode, List.length_cons]
    omega

/-- The alphabet is ASCII. -/
theorem encode_ascii {octets : List ℕ} (small : ∀ o ∈ octets, o < 256) :
    ∀ c ∈ encode octets, c.toNat < 128 := by
  have ascii : ∀ s < 64, (letter s).toNat < 128 := by decide
  induction octets using encode.induct with
  | case1 => simp [encode]
  | case2 a =>
    have bound : a < 256 := small a (by simp)
    simp only [encode, List.mem_cons, List.not_mem_nil, or_false, forall_eq_or_imp, forall_eq]
    exact ⟨ascii _ (by omega), ascii _ (by omega)⟩
  | case3 a b =>
    have bounds : a < 256 ∧ b < 256 := ⟨small a (by simp), small b (by simp)⟩
    simp only [encode, List.mem_cons, List.not_mem_nil, or_false, forall_eq_or_imp, forall_eq]
    exact ⟨ascii _ (by omega), ascii _ (by omega), ascii _ (by omega)⟩
  | case4 a b c rest ih =>
    have bounds : a < 256 ∧ b < 256 ∧ c < 256 :=
      ⟨small a (by simp), small b (by simp), small c (by simp)⟩
    simp only [encode, List.mem_cons, forall_eq_or_imp]
    exact ⟨ascii _ (by omega), ascii _ (by omega), ascii _ (by omega), ascii _ (by omega),
      ih fun o among => small o (by simp [among])⟩

end Core.Base64
