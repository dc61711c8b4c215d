import Nelix.Core.Text
import Mathlib.Data.List.Sort
import Mathlib.Data.String.Basic

/-!
# JSON texts

The compact writer of Python's `json`, with sorted keys and ASCII only, and its reader. A number
of more digits than the interpreter converts is refused on both sides, and so is, by the reader,
what is nested deeper than the recursion limit has room for.
-/
namespace Core.JsonText

/-- `sys.get_int_max_str_digits()` -/
def maxDigits : ℕ := 4300

/-- The interpreter converts such a number from and to its digits. -/
def Short (n : ℤ) : Prop := (Nat.toDigits 10 n.natAbs).length ≤ maxDigits

instance (n : ℤ) : Decidable (Short n) :=
  inferInstanceAs (Decidable ((Nat.toDigits 10 n.natAbs).length ≤ maxDigits))

/-- A decoded value. -/
inductive Document
  | null
  | bool (value : Bool)
  | int (value : ℤ) (short : Short value)
  | float (literal : List Char)
  | text (value : Text)
  | list (items : List Document)
  | object (fields : List (Text × Document))

/-! ### Writing -/

def hexDigit (n : ℕ) : Char := if n < 10 then Char.ofNat (48 + n) else Char.ofNat (87 + n)

/-- `\uXXXX` -/
def unicodeEscape (n : ℕ) : List Char :=
  ['\\', 'u', hexDigit (n / 4096), hexDigit (n / 256 % 16), hexDigit (n / 16 % 16), hexDigit (n % 16)]

/-- The characters that have an escape of one letter. -/
def shortEscapes : List (Char × Char) :=
  [('"', '"'), ('\\', '\\'), ('\n', 'n'), ('\r', 'r'), ('\t', 't'), ('\x08', 'b'), ('\x0c', 'f')]

def escape : CodePoint → List Char
  | .char c =>
    match shortEscapes.lookup c with
    | some e => ['\\', e]
    | none =>
      if ' ' ≤ c ∧ c ≤ '~' then [c]
      else if c.toNat < 0x10000 then unicodeEscape c.toNat
      else unicodeEscape (0xd800 + (c.toNat - 0x10000) / 1024) ++
        unicodeEscape (0xdc00 + (c.toNat - 0x10000) % 1024)
  | .high bits => unicodeEscape (0xd800 + bits)
  | .low bits => unicodeEscape (0xdc00 + bits)

def writeText (t : Text) : List Char := '"' :: (t.flatMap escape ++ ['"'])

/-- None where Python raises `ValueError`. -/
def writeInt (n : ℤ) : Option (List Char) :=
  let digits := Nat.toDigits 10 n.natAbs
  if Short n then some (if n < 0 then '-' :: digits else digits) else none

def separated : List (List Char) → List Char
  | [] => []
  | [item] => item
  | item :: rest => item ++ ',' :: separated rest

def writeList (items : List (List Char)) : List Char := '[' :: (separated items ++ [']'])

/-- Sorted by key, as `sort_keys` has it. -/
def sortedKeys {α : Type*} (fields : List (String × α)) : List (String × α) :=
  fields.insertionSort fun a b => a.1 ≤ b.1

def writeField (field : String × List Char) : List Char :=
  writeText (Text.ofString field.1) ++ ':' :: field.2

def writeObject (fields : List (String × List Char)) : List Char :=
  '{' :: (separated ((sortedKeys fields).map writeField) ++ ['}'])

/-! ### Reading -/

def skip : Text → Text
  | .char c :: rest =>
    if c = ' ' ∨ c = '\t' ∨ c = '\n' ∨ c = '\r' then skip rest else .char c :: rest
  | s => s

def hexDigit? (c : Char) : Option ℕ :=
  if '0' ≤ c ∧ c ≤ '9' then some (c.toNat - 48)
  else if 'a' ≤ c ∧ c ≤ 'f' then some (c.toNat - 87)
  else if 'A' ≤ c ∧ c ≤ 'F' then some (c.toNat - 55)
  else none

def hexDigits? (a b c d : Char) : Option ℕ := do
  return ((← hexDigit? a) * 16 + (← hexDigit? b)) * 256 + (← hexDigit? c) * 16 + (← hexDigit? d)

/-- What a letter after a backslash stands for. -/
def unescape? (e : Char) : Option Char :=
  ((('/', '/') :: shortEscapes).find? fun pair => pair.2 = e).map Prod.fst

/-- The code points up to the closing quote, each with whether it was escaped by its number, and
what comes after. -/
def scanString : Text → Option (List (CodePoint × Bool) × Text)
  | [] => none
  | .char c :: rest =>
    if c = '"' then some ([], rest)
    else if c = '\\' then
      match rest with
      | .char e :: rest =>
        if e = 'u' then
          match rest with
          | .char a :: .char b :: .char c :: .char d :: rest =>
            match hexDigits? a b c d with
            | some n => (scanString rest).map fun r => ((.ofNat n, true) :: r.1, r.2)
            | none => none
          | _ => none
        else
          match unescape? e with
          | some c => (scanString rest).map fun r => ((.char c, false) :: r.1, r.2)
          | none => none
      | _ => none
    -- a control character has to be escaped
    else if c.toNat < 0x20 then none
    else (scanString rest).map fun r => ((.char c, false) :: r.1, r.2)
  | p :: rest => (scanString rest).map fun r => ((p, false) :: r.1, r.2)

/-- The string whose opening quote was read: two halves escaped side by side are one character. -/
def readString (s : Text) : Option (Text × Text) :=
  (scanString s).map fun r => (Text.joinPairs r.1, r.2)

def spanDigits : Text → List Char × Text
  | .char c :: rest =>
    if c.isDigit then (c :: (spanDigits rest).1, (spanDigits rest).2) else ([], .char c :: rest)
  | s => ([], s)

/-- Digits after a point, if there are any. -/
def readFraction (s : Text) : List Char × Text :=
  match s with
  | .char '.' :: rest =>
    let (digits, after) := spanDigits rest
    if digits = [] then ([], s) else ('.' :: digits, after)
  | _ => ([], s)

def readExponent (s : Text) : List Char × Text :=
  match s with
  | .char e :: rest =>
    if e = 'e' ∨ e = 'E' then
      let (sign, unsigned) : List Char × Text :=
        match rest with
        | .char '-' :: rest => (['-'], rest)
        | .char '+' :: rest => (['+'], rest)
        | _ => ([], rest)
      let (digits, after) := spanDigits unsigned
      if digits = [] then ([], s) else (e :: (sign ++ digits), after)
    else ([], s)
  | _ => ([], s)

def readSign (s : Text) : List Char × Text :=
  match s with
  | .char '-' :: rest => (['-'], rest)
  | _ => ([], s)

/-- A zero is the only digit then. -/
def readWhole (s : Text) : List Char × Text :=
  match s with
  | .char '0' :: rest => (['0'], rest)
  | _ => spanDigits s

/-- A literal has no leading zeros, so that its digits are those of the number. -/
def readNumber (s : Text) : Option (Document × Text) :=
  let sign := readSign s
  let whole := readWhole sign.2
  let fraction := readFraction whole.2
  let exponent := readExponent fraction.2
  let magnitude : ℤ := Nat.ofDigitChars 10 whole.1 0
  let n := if sign.1 = [] then magnitude else -magnitude
  if whole.1 = [] then none
  else if fraction.1 = [] ∧ exponent.1 = [] then
    if short : Short n then some (.int n short, exponent.2) else none
  else some (.float (sign.1 ++ whole.1 ++ fraction.1 ++ exponent.1), exponent.2)

/-- The words of JSON, and the ones Python adds. -/
def constants : List (String × Document) :=
  [("null", .null), ("true", .bool true), ("false", .bool false), ("NaN", .float "NaN".toList),
    ("Infinity", .float "Infinity".toList), ("-Infinity", .float "-Infinity".toList)]

def readConstant (s : Text) : Option (Document × Text) :=
  constants.findSome? fun constant =>
    if (Text.ofString constant.1).isPrefixOf s then some (constant.2, s.drop constant.1.length)
    else none

mutual

/-- `scan_once`. Of two calls in a row at least one has read a code point more, so that a fuel of
twice the length lasts. -/
def readValue (fuel room : ℕ) (s : Text) : Option (Document × Text) :=
  match fuel with
  | 0 => none
  | fuel + 1 =>
    match s with
    | .char '"' :: rest => (readString rest).map fun r => (.text r.1, r.2)
    | .char '{' :: rest =>
      match room with
      | 0 => none
      | room + 1 =>
        match skip rest with
        | .char '}' :: rest => some (.object [], rest)
        | rest => (readMembers fuel room rest).map fun r => (.object r.1, r.2)
    | .char '[' :: rest =>
      match room with
      | 0 => none
      | room + 1 =>
        match skip rest with
        | .char ']' :: rest => some (.list [], rest)
        | rest => (readElements fuel room rest).map fun r => (.list r.1, r.2)
    | s => (readConstant s).orElse fun _ => readNumber s

def readMembers (fuel room : ℕ) (s : Text) : Option (List (Text × Document) × Text) :=
  match fuel with
  | 0 => none
  | fuel + 1 =>
    match s with
    | .char '"' :: rest => do
      let (key, rest) ← readString rest
      match skip rest with
      | .char ':' :: rest =>
        let (value, rest) ← readValue fuel room (skip rest)
        match skip rest with
        | .char '}' :: rest => return ([(key, value)], rest)
        | .char ',' :: rest =>
          let (fields, rest) ← readMembers fuel room (skip rest)
          return ((key, value) :: fields, rest)
        | _ => none
      | _ => none
    | _ => none

def readElements (fuel room : ℕ) (s : Text) : Option (List Document × Text) :=
  match fuel with
  | 0 => none
  | fuel + 1 => do
    let (value, rest) ← readValue fuel room s
    match skip rest with
    | .char ']' :: rest => return ([value], rest)
    | .char ',' :: rest =>
      let (items, rest) ← readElements fuel room (skip rest)
      return (value :: items, rest)
    | _ => none

end

/-- `json.loads(octets)`; none where it raises. -/
def loads (room : ℕ) (octets : List ℕ) : Option Document := do
  let text ← Text.decodeOctets octets
  let (document, rest) ← readValue (2 * text.length + 2) room (skip text)
  if skip rest = [] then return document
  none

end Core.JsonText
