import Nelix.Core.JsonText

/-!
# What is written is read

`Reads` says that a reader that stands before what was written reads the value and stops behind
it. It holds of texts without paired halves and of numbers, and passes to lists and objects.
-/
namespace Core.JsonText

/-! ### Strings -/

/-- What the scanner makes of the escape of a code point. -/
def units : CodePoint → List (CodePoint × Bool)
  | .char c =>
    if (shortEscapes.lookup c).isSome ∨ (' ' ≤ c ∧ c ≤ '~') then [(.char c, false)]
    else if c.toNat < 0x10000 then [(.char c, true)]
    else [(.ofNat (0xd800 + (c.toNat - 0x10000) / 1024), true),
      (.ofNat (0xdc00 + (c.toNat - 0x10000) % 1024), true)]
  | p => [(p, true)]

theorem hexDigits?_written {n : ℕ} (small : n < 0x10000) :
    hexDigits? (hexDigit (n / 4096)) (hexDigit (n / 256 % 16)) (hexDigit (n / 16 % 16))
      (hexDigit (n % 16)) = some n := by
  have digit : ∀ d < 16, hexDigit? (hexDigit d) = some d := by decide
  simp only [hexDigits?, digit (n / 4096) (by omega), digit (n / 256 % 16) (by omega),
    digit (n / 16 % 16) (by omega), digit (n % 16) (by omega)]
  simp only [Option.bind_eq_bind, Option.bind_some, Option.pure_def, Option.some.injEq]
  omega

theorem scanString_unicode {n : ℕ} (small : n < 0x10000) (s : Text) :
    scanString ((unicodeEscape n).map .char ++ s) =
      (scanString s).map fun r => ((.ofNat n, true) :: r.1, r.2) := by
  simp only [unicodeEscape, List.map_cons, List.map_nil, List.cons_append, List.nil_append]
  rw [scanString.eq_def]
  simp only [hexDigits?_written small]
  rfl

/-- A character that needs no escape. -/
theorem scanString_plain {c : Char} (quote : c ≠ '"') (slash : c ≠ '\\') (large : ¬ c.toNat < 0x20)
    (s : Text) : scanString (.char c :: s) =
      (scanString s).map fun r => ((.char c, false) :: r.1, r.2) := by
  rw [scanString.eq_def]
  simp only [if_neg quote, if_neg slash, if_neg large]

theorem scanString_short {c e : Char} (found : shortEscapes.lookup c = some e) (s : Text) :
    scanString (.char '\\' :: .char e :: s) =
      (scanString s).map fun r => ((.char c, false) :: r.1, r.2) := by
  have letters : ∀ pair ∈ shortEscapes, pair.2 ≠ 'u' ∧ unescape? pair.2 = some pair.1 := by decide
  obtain ⟨before, after, here, -⟩ := List.lookup_eq_some_iff.mp found
  obtain ⟨other, back⟩ := letters (c, e) (by simp [here])
  rw [scanString.eq_def]
  simp only [if_neg other, back]
  rfl

theorem scanString_escape (p : CodePoint) (s : Text) :
    scanString ((escape p).map .char ++ s) =
      (scanString s).map fun r => (units p ++ r.1, r.2) := by
  cases p with
  | high bits =>
    have small : 0xd800 + bits.val < 0x10000 := by omega
    rw [escape, scanString_unicode small, CodePoint.ofNat_high]
    rfl
  | low bits =>
    have small : 0xdc00 + bits.val < 0x10000 := by omega
    rw [escape, scanString_unicode small, CodePoint.ofNat_low]
    rfl
  | char c =>
    cases found : shortEscapes.lookup c with
    | some e =>
      have written : escape (.char c) = ['\\', e] := by simp only [escape, found]
      have unit : units (.char c) = [(.char c, false)] := by simp [units, found]
      rw [written, unit]
      exact scanString_short found s
    | none =>
      by_cases printable : ' ' ≤ c ∧ c ≤ '~'
      · have written : escape (.char c) = [c] := by simp only [escape, found, if_pos printable]
        have unit : units (.char c) = [(.char c, false)] := by simp only [units, printable, or_true, and_self, if_true]
        -- what has no short escape is neither the quote nor the backslash
        have quote : c ≠ '"' := by
          rintro rfl
          cases found
        have slash : c ≠ '\\' := by
          rintro rfl
          cases found
        have large : ¬ c.toNat < 0x20 := by
          have least : ' '.toNat ≤ c.toNat := printable.1
          exact Nat.not_lt.mpr least
        rw [written, unit]
        exact scanString_plain quote slash large s
      · have long : ¬ ((shortEscapes.lookup c).isSome ∨ (' ' ≤ c ∧ c ≤ '~')) := by
          simpa [found] using printable
        simp only [escape, units, found, if_neg printable]
        rw [← found, if_neg long]
        split
        · rename_i small
          rw [scanString_unicode small, CodePoint.ofNat_char]
          rfl
        · have bound : c.toNat < 0x110000 := CodePoint.char_lt c
          rw [List.map_append, List.append_assoc, scanString_unicode (by omega),
            scanString_unicode (by omega), Option.map_map]
          rfl

theorem scanString_text (t rest : Text) :
    scanString ((t.flatMap escape).map .char ++ .char '"' :: rest) = some (t.flatMap units, rest) := by
  induction t with
  | nil =>
    rw [scanString.eq_def]
    rfl
  | cons p t ih =>
    rw [List.flatMap_cons, List.map_append, List.append_assoc, scanString_escape, ih]
    rfl

theorem joinPairs_cons {p : CodePoint} {escaped : Bool} {rest : List (CodePoint × Bool)}
    (apart : p.isHigh = true → ∀ q ∈ rest.head?, q.1.isLow = false) :
    Text.joinPairs ((p, escaped) :: rest) = p :: Text.joinPairs rest := by
  rw [Text.joinPairs.eq_def]
  split
  · rename_i h l rest' same
    cases same
    cases apart rfl _ rfl
  · rename_i same
    cases same
    rfl
  · rename_i same
    cases same

/-- What a code point is written as begins with a low half only if it is one. -/
theorem head_units (p : CodePoint) : ∃ first rest, units p = first :: rest ∧
    (first.1.isLow = true → p.isLow = true) := by
  cases p with
  | high bits => exact ⟨_, _, rfl, nofun⟩
  | low bits => exact ⟨_, _, rfl, fun _ => rfl⟩
  | char c =>
    unfold units
    dsimp only
    split
    · exact ⟨_, _, rfl, nofun⟩
    · split
      · exact ⟨_, _, rfl, nofun⟩
      · rename_i large
        obtain ⟨h, l, first, -, -⟩ := CodePoint.joined_char (Nat.le_of_not_lt large)
        exact ⟨_, _, rfl, by rw [first]; nofun⟩

theorem joinPairs_unit {p : CodePoint} {rest : List (CodePoint × Bool)}
    (apart : p.isHigh = true → ∀ q ∈ rest.head?, q.1.isLow = false) :
    Text.joinPairs (units p ++ rest) = p :: Text.joinPairs rest := by
  cases p with
  | high bits => exact joinPairs_cons apart
  | low bits => exact joinPairs_cons nofun
  | char c =>
    unfold units
    dsimp only
    split
    · exact joinPairs_cons nofun
    · split
      · exact joinPairs_cons nofun
      · -- the two halves come back as the character they were made of
        rename_i large
        obtain ⟨h, l, first, second, whole⟩ := CodePoint.joined_char (Nat.le_of_not_lt large)
        rw [first, second, List.cons_append, List.cons_append, List.nil_append, Text.joinPairs, whole]

/-- Halves that were not neighbours are not joined. -/
theorem joinPairs_units {t : Text} (unpaired : t.Unpaired) :
    Text.joinPairs (t.flatMap units) = t := by
  induction t with
  | nil => rfl
  | cons p t ih =>
    rw [List.flatMap_cons, joinPairs_unit, ih unpaired.tail]
    intro isHigh q here
    cases t with
    | nil => cases here
    | cons p' t =>
      obtain ⟨first, rest, written, low⟩ := head_units p'
      rw [List.flatMap_cons, written, List.cons_append, List.head?_cons, Option.mem_some] at here
      subst here
      have apart := (List.isChain_cons_cons.mp unpaired).1
      by_contra isLow
      exact apart ⟨isHigh, low (Bool.not_eq_false _ ▸ isLow)⟩

theorem readString_text {t : Text} (unpaired : t.Unpaired) (rest : Text) :
    readString ((t.flatMap escape).map .char ++ .char '"' :: rest) = some (t, rest) := by
  rw [readString, scanString_text, Option.map_some, joinPairs_units unpaired]

/-! ### Numbers -/

/-- What may stand behind a value. -/
def Stops (rest : Text) : Prop :=
  ∀ p ∈ rest.head?, p = .char ',' ∨ p = .char '}' ∨ p = .char ']'

theorem spanDigits_append (digits : List Char) (all : ∀ c ∈ digits, c.isDigit = true) {rest : Text}
    (stops : Stops rest) : spanDigits (digits.map .char ++ rest) = (digits, rest) := by
  induction digits with
  | nil =>
    cases rest with
    | nil => rfl
    | cons p rest =>
      rcases stops p rfl with rfl | rfl | rfl <;> simp [spanDigits]
  | cons c digits ih =>
    have digit := all c (by simp)
    have later := ih fun c among => all c (by simp [among])
    rw [List.map_cons, List.cons_append, spanDigits, if_pos digit, later]

theorem readFraction_stops {rest : Text} (stops : Stops rest) : readFraction rest = ([], rest) := by
  cases rest with
  | nil => rfl
  | cons p rest => rcases stops p rfl with rfl | rfl | rfl <;> rfl

theorem readExponent_stops {rest : Text} (stops : Stops rest) : readExponent rest = ([], rest) := by
  cases rest with
  | nil => rfl
  | cons p rest => rcases stops p rfl with rfl | rfl | rfl <;> rfl

/-- No leading zero: only the digits of zero begin with one. -/
theorem toDigits_head (n : ℕ) : ∃ first rest, Nat.toDigits 10 n = first :: rest ∧
    (first = '0' → rest = []) := by
  induction n using Nat.strong_induction_on with
  | _ n ih =>
    by_cases small : n < 10
    · exact ⟨_, _, Nat.toDigits_of_lt_base small, fun _ => rfl⟩
    · have large : 10 ≤ n := Nat.le_of_not_lt small
      obtain ⟨first, rest, shorter, zero⟩ := ih (n / 10) (by omega)
      refine ⟨first, rest ++ [(n % 10).digitChar], ?_, fun isZero => ?_⟩
      · rw [Nat.toDigits_of_base_le (by decide) large, shorter, List.cons_append]
      · -- a quotient written as zero is zero
        exfalso
        have value := Nat.ofDigitChars_ten_toDigits (n := n / 10)
        rw [shorter, zero isZero, isZero] at value
        have zero : Nat.ofDigitChars 10 ['0'] 0 = 0 := by decide
        omega

theorem readWhole_written (n : ℕ) {rest : Text} (stops : Stops rest) :
    readWhole ((Nat.toDigits 10 n).map .char ++ rest) = (Nat.toDigits 10 n, rest) := by
  have spanned := spanDigits_append (Nat.toDigits 10 n)
    (fun c among => Nat.isDigit_of_mem_toDigits (by decide) (by decide) among) stops
  obtain ⟨first, more, written, zero⟩ := toDigits_head n
  rw [written] at spanned ⊢
  by_cases isZero : first = '0'
  · rw [zero isZero, isZero]
    rfl
  · rw [← spanned, readWhole.eq_def]
    split
    · rename_i same
      cases same
      exact absurd rfl isZero
    · rfl

theorem readNumber_written {n : ℤ} {written : List Char} (done : writeInt n = some written)
    (short : Short n) (rest : Text) (stops : Stops rest) :
    readNumber (written.map .char ++ rest) = some (.int n short, rest) := by
  simp only [writeInt, if_pos short, Option.some.injEq] at done
  subst done
  have whole := readWhole_written n.natAbs stops
  have value := Nat.ofDigitChars_ten_toDigits (n := n.natAbs)
  have filled : Nat.toDigits 10 n.natAbs ≠ [] := Nat.toDigits_ne_nil
  by_cases negative : n < 0
  · have sign : readSign ((('-' :: Nat.toDigits 10 n.natAbs).map .char) ++ rest) =
        (['-'], (Nat.toDigits 10 n.natAbs).map .char ++ rest) := rfl
    have same : -(n.natAbs : ℤ) = n := by omega
    rw [if_pos negative]
    simp only [readNumber, sign, whole, readFraction_stops stops, readExponent_stops stops, value,
      same]
    simp [filled, short]
  · have sign : readSign ((Nat.toDigits 10 n.natAbs).map .char ++ rest) =
        ([], (Nat.toDigits 10 n.natAbs).map .char ++ rest) := by
      obtain ⟨first, more, written, -⟩ := toDigits_head n.natAbs
      have digit : first.isDigit = true := Nat.isDigit_of_mem_toDigits (b := 10) (n := n.natAbs)
        (by decide) (by decide) (by simp [written])
      rw [written, readSign.eq_def]
      split
      · rename_i same
        cases same
        cases digit
      · rfl
    have same : (n.natAbs : ℤ) = n := by omega
    rw [if_neg negative]
    simp only [readNumber, sign, whole, readFraction_stops stops, readExponent_stops stops, value]
    simp [filled, same, short]

/-! ### Values -/

theorem skip_first {c : Char} (solid : c ∉ [' ', '\t', '\n', '\r']) (s : Text) :
    skip (.char c :: s) = .char c :: s := by
  rw [skip, if_neg]
  simpa using solid

/-- It begins with neither a blank nor a closing bracket. -/
def Begins (written : List Char) : Prop :=
  ∃ first tail, written = first :: tail ∧ first ∉ [' ', '\t', '\n', '\r', '}', ']']

theorem Begins.append {written : List Char} (begins : Begins written) (more : List Char) :
    Begins (written ++ more) := by
  obtain ⟨first, tail, rfl, solid⟩ := begins
  exact ⟨first, tail ++ more, rfl, solid⟩

theorem Begins.skipped {written : List Char} (begins : Begins written) (s : Text) :
    skip (written.map .char ++ s) = written.map .char ++ s := by
  obtain ⟨first, tail, rfl, solid⟩ := begins
  refine skip_first (fun blank => solid ?_) _
  simp only [List.mem_cons, List.not_mem_nil, or_false] at blank ⊢
  grind

/-- ASCII, and no zero. -/
def Plain (written : List Char) : Prop := ∀ c ∈ written, 0 < c.toNat ∧ c.toNat < 128

theorem Plain.append {l l' : List Char} (first : Plain l) (second : Plain l') : Plain (l ++ l') := by
  intro c among
  rcases List.mem_append.mp among with here | here
  · exact first c here
  · exact second c here

theorem Plain.cons {c : Char} {l : List Char} (first : 0 < c.toNat ∧ c.toNat < 128)
    (rest : Plain l) : Plain (c :: l) := by
  intro d among
  rcases List.mem_cons.mp among with rfl | here
  · exact first
  · exact rest d here

/-- ASCII without controls. -/
def Printable (written : List Char) : Prop := ∀ c ∈ written, 0x20 ≤ c.toNat ∧ c.toNat < 0x7f

theorem Printable.plain {written : List Char} (printable : Printable written) : Plain written := by
  intro c among
  have here := printable c among
  omega

theorem Printable.append {l l' : List Char} (first : Printable l) (second : Printable l') :
    Printable (l ++ l') := by
  intro c among
  rcases List.mem_append.mp among with here | here
  · exact first c here
  · exact second c here

theorem Printable.cons {c : Char} {l : List Char} (first : 0x20 ≤ c.toNat ∧ c.toNat < 0x7f)
    (rest : Printable l) : Printable (c :: l) := by
  intro d among
  rcases List.mem_cons.mp among with rfl | here
  · exact first
  · exact rest d here

theorem printable_unicodeEscape {n : ℕ} (small : n < 0x10000) : Printable (unicodeEscape n) := by
  have digit : ∀ d < 16, 0x20 ≤ (hexDigit d).toNat ∧ (hexDigit d).toNat < 0x7f := by decide
  exact .cons (by decide) (.cons (by decide) (.cons (digit _ (by omega)) (.cons (digit _ (by omega))
    (.cons (digit _ (by omega)) (.cons (digit _ (by omega)) nofun)))))

theorem printable_escape (p : CodePoint) : Printable (escape p) := by
  cases p with
  | high bits => exact printable_unicodeEscape (by omega)
  | low bits => exact printable_unicodeEscape (by omega)
  | char c =>
    unfold escape
    dsimp only
    split
    · rename_i e found
      have letters : ∀ pair ∈ shortEscapes, 0x20 ≤ pair.2.toNat ∧ pair.2.toNat < 0x7f := by decide
      obtain ⟨before, after, here, -⟩ := List.lookup_eq_some_iff.mp found
      exact .cons (by decide) (.cons (letters (c, e) (by simp [here])) nofun)
    · split
      · rename_i printable
        have least : 0x20 ≤ c.toNat := printable.1
        have most : c.toNat ≤ 0x7e := printable.2
        exact .cons (by omega) nofun
      · split
        · rename_i small
          exact printable_unicodeEscape small
        · have bound := CodePoint.char_lt c
          exact (printable_unicodeEscape (by omega)).append (printable_unicodeEscape (by omega))

theorem printable_writeText (t : Text) : Printable (writeText t) := by
  refine .cons (by decide) (Printable.append ?_ (.cons (by decide) nofun))
  intro c among
  obtain ⟨p, -, here⟩ := List.mem_flatMap.mp among
  exact printable_escape p c here

theorem plain_writeText (t : Text) : Plain (writeText t) := (printable_writeText t).plain

theorem printable_toDigits (n : ℕ) : Printable (Nat.toDigits 10 n) := by
  intro c among
  have digit : c.isDigit = true := Nat.isDigit_of_mem_toDigits (by decide) (by decide) among
  have range : 48 ≤ c.toNat ∧ c.toNat ≤ 57 := Char.isDigit_iff_toNat.mp digit
  omega

theorem plain_writeInt {n : ℤ} {written : List Char} (done : writeInt n = some written) :
    Plain written := by
  have digits := (printable_toDigits n.natAbs).plain
  simp only [writeInt, Option.ite_none_right_eq_some, Option.some.injEq] at done
  obtain ⟨-, rfl⟩ := done
  split
  · exact .cons (by decide) digits
  · exact digits

theorem plain_separated {items : List (List Char)} (all : ∀ item ∈ items, Plain item) :
    Plain (separated items) := by
  induction items with
  | nil => exact nofun
  | cons item rest ih =>
    have first := all item (by simp)
    cases rest with
    | nil => exact first
    | cons next rest =>
      exact first.append (.cons (by decide) (ih fun item among => all item (by simp [among])))

/-- A reader before what was written reads the value and stops behind it. -/
structure Reads (room : ℕ) (written : List Char) (document : Document) : Prop where
  begins : Begins written
  plain : Plain written
  reads : ∀ fuel rest, 2 * written.length ≤ fuel → Stops rest →
    readValue fuel room (written.map .char ++ rest) = some (document, rest)

theorem Reads.text (room : ℕ) {t : Text} (unpaired : t.Unpaired) :
    Reads room (writeText t) (.text t) := by
  refine ⟨⟨'"', _, rfl, by decide⟩, plain_writeText t, fun fuel rest enough _ => ?_⟩
  cases fuel with
  | zero => simp [writeText] at enough
  | succ fuel =>
    have read := readString_text unpaired rest
    simp only [writeText, List.map_cons, List.map_append, List.map_nil, List.cons_append,
      List.append_assoc, List.nil_append]
    rw [readValue.eq_def]
    simp only [read, Option.map_some]

/-- A word of JSON begins with no digit. -/
theorem readConstant_digit {c : Char} (digit : c.isDigit = true) (s : Text) :
    readConstant (.char c :: s) = none ∧ readConstant (.char '-' :: .char c :: s) = none := by
  have letters : ['n', 't', 'f', 'N', 'I', '-'].all (!Char.isDigit ·) = true := by decide
  have apart : ∀ l ∈ ['n', 't', 'f', 'N', 'I', '-'], l ≠ c := by
    rintro l among rfl
    have letter := List.all_eq_true.mp letters l among
    rw [digit] at letter
    cases letter
  simp only [List.mem_cons, List.not_mem_nil, or_false, forall_eq_or_imp, forall_eq] at apart
  obtain ⟨n, t, f, nan, inf, minus⟩ := apart
  constructor <;>
    simp [readConstant, constants, Text.ofString, n, t, f, nan, inf, minus]

theorem readValue_number {c : Char} {s : Text} (other : c ∉ ['"', '{', '['])
    (word : readConstant (.char c :: s) = none) (fuel room : ℕ) :
    readValue (fuel + 1) room (.char c :: s) = readNumber (.char c :: s) := by
  simp only [List.mem_cons, List.not_mem_nil, or_false, not_or] at other
  rw [readValue.eq_def]
  dsimp only
  split
  · rename_i same
    cases same
    exact absurd rfl other.1
  · rename_i same
    cases same
    exact absurd rfl other.2.1
  · rename_i same
    cases same
    exact absurd rfl other.2.2
  · rw [word]
    rfl

theorem Reads.int (room : ℕ) {n : ℤ} {written : List Char} (done : writeInt n = some written)
    (short : Short n) : Reads room written (.int n short) := by
  have read := fun rest stops => readNumber_written done short rest stops
  obtain ⟨first, more, digits, -⟩ := toDigits_head n.natAbs
  have digit : first.isDigit = true := Nat.isDigit_of_mem_toDigits (b := 10) (n := n.natAbs)
    (by decide) (by decide) (by simp [digits])
  have begins : written = '-' :: first :: more ∨ written = first :: more := by
    simp only [writeInt, if_pos short, Option.some.injEq] at done
    rw [← done, digits]
    split
    · exact .inl rfl
    · exact .inr rfl
  have signs : ['"', '{', '[', ' ', '\t', '\n', '\r', '}', ']'].all (!Char.isDigit ·) = true := by decide
  have plain : ∀ c ∈ ['"', '{', '[', ' ', '\t', '\n', '\r', '}', ']'], c ≠ first := by
    rintro c among rfl
    have sign := List.all_eq_true.mp signs c among
    rw [digit] at sign
    cases sign
  have ascii := plain_writeInt done
  rcases begins with rfl | rfl
  · refine ⟨⟨'-', _, rfl, by decide⟩, ascii, fun fuel rest enough stops => ?_⟩
    cases fuel with
    | zero => simp at enough
    | succ fuel =>
      exact (readValue_number (by decide) (readConstant_digit digit _).2 fuel room).trans
        (read rest stops)
  · refine ⟨⟨first, _, rfl, fun among => plain first (by grind) rfl⟩, ascii,
      fun fuel rest enough stops => ?_⟩
    cases fuel with
    | zero => simp at enough
    | succ fuel =>
      exact (readValue_number (fun among => plain first (by grind) rfl)
        (readConstant_digit digit _).1 fuel room).trans (read rest stops)

section Containers

variable {room : ℕ}

theorem separated_cons (item next : List Char) (rest : List (List Char)) :
    separated (item :: next :: rest) = item ++ ',' :: separated (next :: rest) := rfl

theorem stops_before {c : Char} (stop : c = ',' ∨ c = '}' ∨ c = ']') (rest : Text) :
    Stops (.char c :: rest) := by
  rintro p ⟨⟩
  simpa using stop

theorem Begins.several {written : List Char} (begins : Begins written)
    (others : List (List Char)) : Begins (separated (written :: others)) := by
  cases others with
  | nil => exact begins
  | cons next rest => exact begins.append _

theorem readElements_written {items : List (List Char × Document)} (filled : items ≠ [])
    (all : ∀ item ∈ items, Reads room item.1 item.2) (fuel : ℕ)
    (enough : 2 * (separated (items.map Prod.fst)).length + 1 ≤ fuel) (rest : Text) :
    readElements fuel room ((separated (items.map Prod.fst)).map .char ++ .char ']' :: rest) =
      some (items.map Prod.snd, rest) := by
  induction items generalizing fuel with
  | nil => exact absurd rfl filled
  | cons item items ih =>
    have first := all item (by simp)
    cases fuel with
    | zero => simp at enough
    | succ fuel =>
      rw [readElements.eq_def]
      cases items with
      | nil =>
        simp only [List.map_cons, List.map_nil, separated] at enough ⊢
        rw [first.reads fuel _ (by omega) (stops_before (by simp) rest)]
        rfl
      | cons next items =>
        have later := ih (by simp) (fun item among => all item (by simp [among])) fuel
        have second := all next (by simp)
        simp only [List.map_cons] at enough later ⊢
        simp only [separated_cons, List.length_append, List.length_cons] at enough
        simp only [separated_cons, List.map_append, List.map_cons, List.append_assoc,
          List.cons_append]
        rw [first.reads fuel _ (by omega) (stops_before (by simp) _)]
        have solid : ∀ s, skip ((separated (next.1 :: items.map Prod.fst)).map .char ++ s) =
            (separated (next.1 :: items.map Prod.fst)).map .char ++ s := (second.begins.several _).skipped
        have rested : 2 * (separated (next.1 :: items.map Prod.fst)).length + 1 ≤ fuel := by omega
        simp only [skip_first (show ',' ∉ [' ', '\t', '\n', '\r'] by decide), solid, later rested,
          Option.bind_eq_bind, Option.bind_some]
        rfl

theorem readValue_list (fuel : ℕ) {s : Text} (more : ∀ rest, skip s ≠ .char ']' :: rest) :
    readValue (fuel + 1) (room + 1) (.char '[' :: s) =
      (readElements fuel room (skip s)).map fun r => (.list r.1, r.2) := by
  rw [readValue.eq_def]
  dsimp only
  split
  · rename_i same
    simp at same
  · rename_i same
    simp at same
  · rename_i rest same
    obtain rfl : s = rest := (List.cons.inj same).2
    split
    · rename_i after closed
      exact absurd closed (more after)
    · rfl
  · rename_i other
    exact (other s rfl).elim

theorem Begins.closes {written : List Char} (begins : Begins written) {c : Char}
    (closing : c = '}' ∨ c = ']') (s rest : Text) :
    skip (written.map .char ++ s) ≠ .char c :: rest := by
  rw [begins.skipped]
  obtain ⟨first, tail, rfl, solid⟩ := begins
  intro same
  cases same
  simp at solid
  grind

theorem Reads.list {items : List (List Char × Document)}
    (all : ∀ item ∈ items, Reads room item.1 item.2) :
    Reads (room + 1) (writeList (items.map Prod.fst)) (.list (items.map Prod.snd)) := by
  have ascii : Plain (separated (items.map Prod.fst)) := by
    refine plain_separated fun written among => ?_
    obtain ⟨item, here, rfl⟩ := List.mem_map.mp among
    exact (all item here).plain
  refine ⟨⟨'[', _, rfl, by decide⟩, .cons (by decide) (ascii.append (.cons (by decide) nofun)),
    fun fuel rest enough _ => ?_⟩
  simp only [writeList, List.length_cons, List.length_append, List.length_nil] at enough
  simp only [writeList, List.map_cons, List.map_append, List.map_nil, List.cons_append,
    List.append_assoc, List.nil_append]
  cases fuel with
  | zero => omega
  | succ fuel =>
    cases items with
    | nil => rfl
    | cons item items =>
      have read := readElements_written (by simp) all fuel (by omega) rest
      have begins := (all item (by simp)).begins.several (items.map Prod.fst)
      rw [List.map_cons] at read ⊢
      rw [readValue_list fuel (begins.closes (.inr rfl) _), begins.skipped, read]
      rfl

/-- Only the keys decide. -/
theorem sortedKeys_map {α β : Type*} (f : α → β) (fields : List (String × α)) :
    sortedKeys (fields.map fun field => (field.1, f field.2)) =
      (sortedKeys fields).map fun field => (field.1, f field.2) :=
  (List.map_insertionSort (fun a b : String × α => a.1 ≤ b.1) (fun a b : String × β => a.1 ≤ b.1)
    (fun field => (field.1, f field.2)) fields fun _ _ _ _ => Iff.rfl).symm

theorem sortedKeys_perm {α : Type*} (fields : List (String × α)) :
    (sortedKeys fields).Perm fields := List.perm_insertionSort _ fields

/-- A field: its key, and its value as it is written and as it is read. -/
abbrev Field := String × List Char × Document

def Field.written (field : Field) : List Char := writeField (field.1, field.2.1)

def Field.read (field : Field) : Text × Document := (Text.ofString field.1, field.2.2)

theorem Field.begins (field : Field) : Begins field.written := ⟨'"', _, rfl, by decide⟩

/-- The reader of members before a field: it reads the key, and goes on with the value. -/
theorem readMembers_field (fuel : ℕ) (field : Field) (rest : Text)
    (reads : Reads room field.2.1 field.2.2) (enough : 2 * field.written.length ≤ fuel)
    (stops : Stops rest) :
    readMembers (fuel + 1) room (field.written.map .char ++ rest) =
      match skip rest with
      | .char '}' :: rest => return ([field.read], rest)
      | .char ',' :: rest => do
        let (fields, rest) ← readMembers fuel room (skip rest)
        return (field.read :: fields, rest)
      | _ => none := by
  have key := readString_text (Text.ofString_unpaired field.1)
    (.char ':' :: (field.2.1.map .char ++ rest))
  simp only [Field.written, writeField, writeText, List.length_append, List.length_cons] at enough
  simp only [Field.written, writeField, writeText, List.map_append, List.map_cons,
    List.cons_append, List.append_assoc, List.nil_append]
  rw [readMembers.eq_def]
  simp only [key, Option.bind_eq_bind, Option.bind_some,
    skip_first (show ':' ∉ [' ', '\t', '\n', '\r'] by decide), reads.begins.skipped,
    reads.reads fuel rest (by omega) stops]
  rfl

theorem readMembers_written {fields : List Field} (filled : fields ≠ [])
    (all : ∀ field ∈ fields, Reads room field.2.1 field.2.2) (fuel : ℕ)
    (enough : 2 * (separated (fields.map Field.written)).length + 1 ≤ fuel) (rest : Text) :
    readMembers fuel room ((separated (fields.map Field.written)).map .char ++ .char '}' :: rest) =
      some (fields.map Field.read, rest) := by
  induction fields generalizing fuel with
  | nil => exact absurd rfl filled
  | cons field fields ih =>
    have first := all field (by simp)
    cases fuel with
    | zero => simp at enough
    | succ fuel =>
      cases fields with
      | nil =>
        simp only [List.map_cons, List.map_nil, separated] at enough ⊢
        rw [readMembers_field fuel field _ first (by omega) (stops_before (by simp) rest),
          skip_first (by decide)]
        rfl
      | cons next fields =>
        have later := ih (by simp) (fun field among => all field (by simp [among])) fuel
        simp only [List.map_cons] at enough later ⊢
        simp only [separated_cons, List.length_append, List.length_cons] at enough
        simp only [separated_cons, List.map_append, List.map_cons, List.append_assoc,
          List.cons_append]
        have solid : ∀ s, skip ((separated (next.written :: fields.map Field.written)).map .char ++ s) =
            (separated (next.written :: fields.map Field.written)).map .char ++ s :=
          (next.begins.several _).skipped
        rw [readMembers_field fuel field _ first (by omega) (stops_before (by simp) _),
          skip_first (by decide)]
        simp only [solid, later (by omega)]
        rfl

theorem readValue_object (fuel : ℕ) {s : Text} (more : ∀ rest, skip s ≠ .char '}' :: rest) :
    readValue (fuel + 1) (room + 1) (.char '{' :: s) =
      (readMembers fuel room (skip s)).map fun r => (.object r.1, r.2) := by
  rw [readValue.eq_def]
  dsimp only
  split
  · rename_i same
    simp at same
  · rename_i rest same
    obtain rfl : s = rest := (List.cons.inj same).2
    split
    · rename_i after closed
      exact absurd closed (more after)
    · rfl
  · rename_i same
    simp at same
  · rename_i other _
    exact (other s rfl).elim

/-- What is read is sorted as it was written. -/
theorem Reads.object {fields : List Field}
    (all : ∀ field ∈ fields, Reads room field.2.1 field.2.2) :
    Reads (room + 1) (writeObject (fields.map fun field => (field.1, field.2.1)))
      (.object ((sortedKeys fields).map Field.read)) := by
  have sorted : (sortedKeys (fields.map fun field => (field.1, field.2.1))).map writeField =
      (sortedKeys fields).map Field.written := by
    rw [sortedKeys_map Prod.fst, List.map_map]
    rfl
  have within : ∀ field ∈ sortedKeys fields, Reads room field.2.1 field.2.2 := fun field among =>
    all field ((sortedKeys_perm fields).mem_iff.mp among)
  have ascii : Plain (separated ((sortedKeys fields).map Field.written)) := by
    refine plain_separated fun written among => ?_
    obtain ⟨field, here, rfl⟩ := List.mem_map.mp among
    exact (plain_writeText _).append (.cons (by decide) (within field here).plain)
  rw [writeObject, sorted]
  refine ⟨⟨'{', _, rfl, by decide⟩, .cons (by decide) (ascii.append (.cons (by decide) nofun)),
    fun fuel rest enough _ => ?_⟩
  simp only [List.length_cons, List.length_append, List.length_nil] at enough
  simp only [List.map_cons, List.map_append, List.map_nil, List.cons_append,
    List.append_assoc, List.nil_append]
  cases fuel with
  | zero => omega
  | succ fuel =>
    cases here : sortedKeys fields with
    | nil => rfl
    | cons field fields =>
      rw [here] at enough within
      have read := readMembers_written (by simp) within fuel (by omega) rest
      have begins := (Field.begins field).several (fields.map Field.written)
      rw [List.map_cons] at read ⊢
      rw [readValue_object fuel (begins.closes (.inl rfl) _), begins.skipped, read]
      rfl

end Containers

/-! ### Lengths -/

theorem length_le_writeText (t : Text) : t.length + 2 ≤ (writeText t).length := by
  have escaped : t.length ≤ (t.flatMap escape).length := by
    induction t with
    | nil => exact Nat.le_refl _
    | cons p t ih =>
      have some : 1 ≤ (escape p).length := by
        cases p with
        | high bits => simp [escape, unicodeEscape]
        | low bits => simp [escape, unicodeEscape]
        | char c =>
          unfold escape
          dsimp only
          split
          · simp
          · split_ifs <;> simp [unicodeEscape]
      rw [List.flatMap_cons, List.length_cons, List.length_append]
      omega
  simp only [writeText, List.length_cons, List.length_append, List.length_nil]
  omega

theorem length_le_separated {item : List Char} {items : List (List Char)} (among : item ∈ items) :
    item.length ≤ (separated items).length := by
  induction items with
  | nil => cases among
  | cons first rest ih =>
    cases rest with
    | nil =>
      cases List.mem_singleton.mp among
      exact Nat.le_refl _
    | cons next rest =>
      rw [separated_cons, List.length_append, List.length_cons]
      rcases List.mem_cons.mp among with rfl | later
      · omega
      · have shorter := ih later
        omega

/-- An object is longer than each of its values. -/
theorem length_le_writeObject (field : String × List Char) {fields : List (String × List Char)}
    (among : field ∈ fields) : field.2.length + 2 ≤ (writeObject fields).length := by
  have member : writeField field ∈ (sortedKeys fields).map writeField :=
    List.mem_map_of_mem ((sortedKeys_perm fields).mem_iff.mpr among)
  have inside := length_le_separated member
  simp only [writeField, List.length_append, List.length_cons] at inside
  simp only [writeObject, List.length_cons, List.length_append, List.length_nil]
  omega

/-- What was written in ASCII and reads as a value is loaded as that value. -/
theorem loads_written {room : ℕ} {written : List Char} {document : Document}
    (reads : Reads room written document) (long : 2 ≤ written.length) : loads room (written.map Char.toNat) = some document := by
  match written, long with
  | a :: b :: rest, _ =>
    have decoded : Text.decodeOctets ((a :: b :: rest).map Char.toNat) =
        some ((a :: b :: rest).map .char) :=
      Text.decodeOctets_ascii (fun c among => (reads.plain c among).2)
        ⟨(reads.plain a (by simp)).1, (reads.plain b (by simp)).1⟩
    have start := reads.begins.skipped []
    have read := reads.reads (2 * ((a :: b :: rest).map CodePoint.char).length + 2) [] (by simp)
      (by rintro p ⟨⟩)
    rw [List.append_nil] at start read
    simp only [loads, decoded, start, read, Option.bind_eq_bind, Option.bind_some]
    rfl

end Core.JsonText
