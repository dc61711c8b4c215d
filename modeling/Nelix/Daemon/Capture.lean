import Mathlib.Algebra.Order.Ring.Rat
import Mathlib.Data.List.Induction

/-!
# The timed capture

The log of a session's chunks, each behind a header with its time and its length, and the reader of
such a log.

## Main results

`capture_read`: what is read back are the chunks that were not empty, in order.
-/
namespace Nelix.Daemon

/-- A float, as far as it can be written. The sign of a zero shows. -/
inductive PyFloat
  | finite (negative : Bool) (size : ℚ)
  | inf (negative : Bool)
  | nan
deriving DecidableEq

/-! ### Numbers in text -/

/-- The nearest whole number, and the even one of two. -/
def roundEven (size : ℚ) : ℕ :=
  let low := size.floor.toNat
  let rest := size - low
  if rest < 1 / 2 ∨ rest = 1 / 2 ∧ low % 2 = 0 then low else low + 1

/-- Six digits behind the point. -/
def sixDigits (n : ℕ) : List Char :=
  List.replicate (6 - (Nat.toDigits 10 n).length) '0' ++ Nat.toDigits 10 n

/-- `f"{x:.6f}"` -/
def fixed : PyFloat → List Char
  | .finite negative size =>
    let micros := roundEven (size * 1000000)
    (if negative then ['-'] else []) ++
      (Nat.toDigits 10 (micros / 1000000) ++ '.' :: sixDigits (micros % 1000000))
  | .inf negative => (if negative then ['-'] else []) ++ ['i', 'n', 'f']
  | .nan => ['n', 'a', 'n']

/-- `encode()` of a text in ASCII -/
def ascii (text : List Char) : List UInt8 := text.map fun c => UInt8.ofNat c.toNat

/-- Digits, with single underscores between them. -/
def digitsOf (s : List Char) : Option ℕ :=
  let pieces := s.splitOnP (· = '_')
  if pieces.all fun piece => piece ≠ [] && piece.all Char.isDigit then
    some (Nat.ofDigitChars 10 pieces.flatten 0)
  else none

/-- `int(b)` of bytes without whitespace -/
def intOf (b : List UInt8) : Option ℤ :=
  match b.map fun c => Char.ofNat c.toNat with
  | '-' :: digits => (digitsOf digits).map fun n => -(n : ℤ)
  | '+' :: digits => (digitsOf digits).map Int.ofNat
  | digits => (digitsOf digits).map Int.ofNat

/-- `float(b)`. It reads what was written with a fixed number of digits. -/
structure FloatReader where
  float : List UInt8 → Option PyFloat
  float_fixed : ∀ x, (float (ascii (fixed x))).isSome = true

/-! ### Bytes -/

/-- A place in bytes of this length, for a number that may count from the end. -/
def place (length : ℕ) (i : ℤ) : ℕ := if i < 0 then (i + length).toNat else min i.toNat length

/-- `data[i:j]` -/
def slice (data : List UInt8) (i j : ℤ) : List UInt8 :=
  (data.drop (place data.length i)).take (place data.length j - place data.length i)

/-- `data.index(b, pos)` -/
def indexFrom (data : List UInt8) (b : UInt8) (pos : ℤ) : Option ℕ :=
  ((data.drop (place data.length pos)).idxOf? b).map (place data.length pos + ·)

/-- The whitespace of bytes. -/
def isBlank (b : UInt8) : Bool := 9 ≤ b && b ≤ 13 || b = 32

/-- `b.split()` -/
def splitBlank (b : List UInt8) : List (List UInt8) := (b.splitOnP isBlank).filter (· ≠ [])

/-! ### Writing -/

/-- `_write_record` -/
def writeRecord (offset : PyFloat) (data : List UInt8) : List UInt8 :=
  ascii (fixed offset ++ ' ' :: Nat.toDigits 10 data.length ++ ['\n']) ++ data

/-- `CaptureWriter`, whose clock may show anything; what lies between two readings is a float. -/
structure CaptureWriter (τ : Type*) where
  start : Option τ := none
  file : List UInt8 := []

variable {τ : Type*} (since : τ → τ → PyFloat)

/-- `record`, when the clock shows `now` -/
def CaptureWriter.record (w : CaptureWriter τ) (now : τ) (data : List UInt8) : CaptureWriter τ :=
  if data = [] then w
  else
    let start := w.start.getD now
    { start := some start, file := w.file ++ writeRecord (since now start) data }

/-- The log of these chunks, each at its time. -/
def captured (chunks : List (τ × List UInt8)) : CaptureWriter τ :=
  chunks.foldl (fun w chunk => w.record since chunk.1 chunk.2) {}

/-! ### Reading -/

/-- How a reader ends; `unfinished` is short of steps. -/
inductive CaptureEnd
  | done
  | raised
  | unfinished
deriving DecidableEq

/-- The loop of `read_capture` from `pos` on, for so many turns. -/
def readFrom (f : FloatReader) (data : List UInt8) : ℕ → ℤ → List (PyFloat × List UInt8) × CaptureEnd
  | 0, _ => ([], .unfinished)
  | turns + 1, pos =>
    if pos < data.length then
      match indexFrom data 10 pos with
      | none => ([], .raised)
      | some nl =>
        match splitBlank (slice data pos nl) with
        | [offsetS, lenS] =>
          match f.float offsetS, intOf lenS with
          | some offset, some count =>
            let start : ℤ := nl + 1
            let rest := readFrom f data turns (start + count)
            ((offset, slice data start (start + count)) :: rest.1, rest.2)
          | _, _ => ([], .raised)
        | _ => ([], .raised)
    else ([], .done)

/-- `read_capture` -/
def readCapture (f : FloatReader) (data : List UInt8) (turns : ℕ) :
    List (PyFloat × List UInt8) × CaptureEnd := readFrom f data turns 0

/-! ### What a header looks like -/

section Header
variable {c : Char} {n : ℕ} {left right rest b : List UInt8} {t : List Char}

/-- The character is written as one byte, and is no whitespace. -/
def Inked (c : Char) : Prop := c.toNat < 128 ∧ isBlank (UInt8.ofNat c.toNat) = false

instance : DecidablePred Inked := fun c =>
  inferInstanceAs (Decidable (c.toNat < 128 ∧ isBlank (UInt8.ofNat c.toNat) = false))

theorem inked_digit (digit : c.isDigit = true) : Inked c := by
  have bounds : 48 ≤ c.toNat ∧ c.toNat ≤ 57 := by
    rw [Char.isDigit, Bool.and_eq_true, decide_eq_true_eq, decide_eq_true_eq] at digit
    exact ⟨UInt32.le_iff_toNat_le.mp digit.1, UInt32.le_iff_toNat_le.mp digit.2⟩
  have each : ∀ n < 58, 48 ≤ n → isBlank (UInt8.ofNat n) = false := by decide
  exact ⟨by omega, each _ (by omega) bounds.1⟩

theorem digit_of_toDigits (member : c ∈ Nat.toDigits 10 n) : c.isDigit = true :=
  Nat.isDigit_of_mem_toDigits (by decide) (by decide) member

theorem inked_fixed (x : PyFloat) : ∀ c ∈ fixed x, Inked c := by
  intro c member
  have sign : ∀ negative : Bool, c ∈ (if negative then ['-'] else []) → Inked c := by
    intro negative inside
    split at inside
    · rw [List.mem_singleton.mp inside]
      decide
    · cases inside
  cases x with
  | finite negative size =>
    rcases List.mem_append.mp member with first | number
    · exact sign negative first
    · rcases List.mem_append.mp number with whole | point
      · exact inked_digit (digit_of_toDigits whole)
      · rcases List.mem_cons.mp point with rfl | part
        · decide
        · rcases List.mem_append.mp part with zero | digits
          · rw [List.eq_of_mem_replicate zero]
            decide
          · exact inked_digit (digit_of_toDigits digits)
  | inf negative =>
    rcases List.mem_append.mp member with first | letters
    · exact sign negative first
    · simp only [List.mem_cons, List.not_mem_nil, or_false] at letters
      rcases letters with rfl | rfl | rfl <;> decide
  | nan =>
    simp only [fixed, List.mem_cons, List.not_mem_nil, or_false] at member
    rcases member with rfl | rfl | rfl <;> decide

theorem fixed_ne_nil (x : PyFloat) : fixed x ≠ [] := by
  cases x with
  | finite negative size => simp [fixed]
  | inf negative => simp [fixed]
  | nan => simp [fixed]

theorem ascii_inked (all : ∀ c ∈ t, Inked c) : ∀ b ∈ ascii t, isBlank b = false := by
  intro b member
  obtain ⟨c, inside, rfl⟩ := List.mem_map.mp member
  exact (all c inside).2

/-- Two words with a blank between them. -/
theorem splitBlank_pair (first : ∀ b ∈ left, isBlank b = false) (filled : left ≠ [])
    (second : ∀ b ∈ right, isBlank b = false) (filled' : right ≠ []) :
    splitBlank (left ++ 32 :: right) = [left, right] := by
  rw [splitBlank, List.splitOnP_append_cons_of_forall_mem first _ rfl, List.splitOnP_eq_singleton second]
  simp [filled, filled']

theorem chars_ascii (all : ∀ c ∈ t, Inked c) : (ascii t).map (fun b => Char.ofNat b.toNat) = t := by
  rw [ascii, List.map_map]
  conv_rhs => rw [← List.map_id t]
  refine List.map_congr_left fun c member => ?_
  have small := (all c member).1
  rw [Function.comp_apply, UInt8.toNat_ofNat', Nat.mod_eq_of_lt (by omega), Char.ofNat_toNat, id]

/-- A length that is written is read. -/
theorem intOf_length (n : ℕ) : intOf (ascii (Nat.toDigits 10 n)) = some (n : ℤ) := by
  have digits : ∀ c ∈ Nat.toDigits 10 n, c.isDigit = true := fun c => digit_of_toDigits
  have bare : ∀ c ∈ Nat.toDigits 10 n, c ≠ '_' := by
    rintro c member rfl
    cases digits _ member
  have pieces : (Nat.toDigits 10 n).splitOnP (· = '_') = [Nat.toDigits 10 n] :=
    List.splitOnP_eq_singleton fun c member => by simpa using bare c member
  have whole : (Nat.toDigits 10 n).all Char.isDigit = true := List.all_eq_true.mpr digits
  have read : digitsOf (Nat.toDigits 10 n) = some n := by
    rw [digitsOf, pieces]
    simp [whole, Nat.toDigits_ne_nil, Nat.ofDigitChars_ten_toDigits]
  rw [intOf, chars_ascii fun c member => inked_digit (digits c member)]
  split
  · rename_i same
    cases digits '-' (same ▸ List.mem_cons_self ..)
  · rename_i same
    cases digits '+' (same ▸ List.mem_cons_self ..)
  · rw [read]
    rfl

end Header

/-! ### Reading what was written -/

section Reading
variable {pre mid post : List UInt8}

theorem place_le {length n : ℕ} (within : n ≤ length) : place length (n : ℤ) = n := by
  rw [place, if_neg (by omega), Int.toNat_natCast, Nat.min_eq_left within]

theorem slice_mid {j : ℤ} (upTo : j = (pre.length + mid.length : ℕ)) :
    slice (pre ++ (mid ++ post)) pre.length j = mid := by
  have inside : pre.length + mid.length ≤ (pre ++ (mid ++ post)).length := by
    simp only [List.length_append]
    omega
  rw [upTo, slice, place_le (n := pre.length) (by omega), place_le inside, List.drop_left, Nat.add_sub_cancel_left,
    List.take_left]

theorem idxOf?_first {b : UInt8} (bare : b ∉ mid) : (mid ++ b :: post).idxOf? b = some mid.length := by
  induction mid with
  | nil => simp [List.idxOf?_cons]
  | cons c mid ih =>
    have other : c ≠ b := fun same => bare (same ▸ List.mem_cons_self ..)
    have later := ih fun member => bare (List.mem_cons_of_mem _ member)
    rw [List.cons_append, List.idxOf?_cons, if_neg (by simpa using other), later]
    rfl

theorem indexFrom_first {b : UInt8} (bare : b ∉ mid) :
    indexFrom (pre ++ (mid ++ b :: post)) b pre.length = some (pre.length + mid.length) := by
  rw [indexFrom, place_le (by simp), List.drop_left, idxOf?_first bare, Option.map_some]

/-- One record is read, and the reader goes on behind it. -/
theorem readFrom_record {f : FloatReader} {offset x : PyFloat}
    (stamped : f.float (ascii (fixed offset)) = some x) (data : List UInt8) (turns : ℕ) :
    readFrom f (pre ++ (writeRecord offset data ++ post)) (turns + 1) pre.length =
      let rest := readFrom f (pre ++ (writeRecord offset data ++ post)) turns
        (pre ++ writeRecord offset data).length
      ((x, data) :: rest.1, rest.2) := by
  have first := ascii_inked (inked_fixed offset)
  have second := ascii_inked fun c member => inked_digit (digit_of_toDigits (n := data.length) member)
  generalize stamp : ascii (fixed offset) = left at first stamped
  generalize size : ascii (Nat.toDigits 10 data.length) = right at second
  have filled : left ≠ [] := by
    rw [← stamp]
    exact fun none_ => fixed_ne_nil offset (List.map_eq_nil_iff.mp none_)
  have filled' : right ≠ [] := by
    rw [← size]
    exact fun none_ => Nat.toDigits_ne_nil (List.map_eq_nil_iff.mp none_)
  have cut : writeRecord offset data = (left ++ 32 :: right) ++ 10 :: data := by
    rw [writeRecord, ascii, List.map_append, List.map_append, List.map_cons, ← ascii, ← ascii, stamp, size]
    simp
  have bare : (10 : UInt8) ∉ left ++ 32 :: right := by
    intro member
    rcases List.mem_append.mp member with inside | behind
    · cases first 10 inside
    · rcases List.mem_cons.mp behind with blank | inside
      · cases blank
      · cases second 10 inside
  have whole : pre ++ (writeRecord offset data ++ post) =
      pre ++ ((left ++ 32 :: right) ++ 10 :: (data ++ post)) := by rw [cut]; simp
  have later : pre ++ ((left ++ 32 :: right) ++ 10 :: (data ++ post)) =
      (pre ++ (left ++ 32 :: right) ++ [10]) ++ (data ++ post) := by simp
  have more : (pre.length : ℤ) < (pre ++ (writeRecord offset data ++ post)).length := by
    rw [cut]
    simp only [List.length_append, List.length_cons]
    omega
  have read := intOf_length data.length
  rw [size] at read
  rw [readFrom, if_pos more, whole, indexFrom_first bare]
  dsimp only
  rw [slice_mid rfl, splitBlank_pair first filled second filled']
  dsimp only
  rw [stamped, read]
  have start : ((pre.length + (left ++ 32 :: right).length : ℕ) : ℤ) + 1 =
      ((pre ++ (left ++ 32 :: right) ++ [10]).length : ℕ) := by
    simp only [List.length_append, List.length_cons, List.length_nil]
    omega
  dsimp only
  rw [start, later, slice_mid (by rw [Nat.cast_add])]
  have end_ : ((pre ++ (left ++ 32 :: right) ++ [10]).length : ℤ) + data.length =
      (pre ++ writeRecord offset data).length := by
    rw [cut]
    simp only [List.length_append, List.length_cons, List.length_nil]
    omega
  rw [end_]

/-- What is read from the records of these chunks. -/
theorem readFrom_records (f : FloatReader) (pre : List UInt8) (records : List (PyFloat × List UInt8))
    (turns : ℕ) (enough : records.length < turns) :
    (readFrom f (pre ++ records.flatMap fun r => writeRecord r.1 r.2) turns pre.length).2 = .done ∧
      (readFrom f (pre ++ records.flatMap fun r => writeRecord r.1 r.2) turns pre.length).1.map Prod.snd =
        records.map Prod.snd := by
  induction records generalizing pre turns with
  | nil =>
    cases turns with
    | zero => cases enough
    | succ turns =>
      rw [List.flatMap_nil, List.append_nil, readFrom, if_neg (by simp)]
      exact ⟨rfl, rfl⟩
  | cons r records ih =>
    cases turns with
    | zero => cases enough
    | succ turns =>
      have later := ih (pre ++ writeRecord r.1 r.2) turns (Nat.lt_of_succ_lt_succ enough)
      rw [List.append_assoc] at later
      obtain ⟨x, stamped⟩ := Option.isSome_iff_exists.mp (f.float_fixed r.1)
      rw [List.flatMap_cons, readFrom_record stamped]
      exact ⟨later.1, congrArg (r.2 :: ·) later.2⟩

end Reading

/-! ### The round trip -/

/-- The records that the writer has made of these chunks. -/
theorem captured_append (chunks : List (τ × List UInt8)) : ∃ records : List (PyFloat × List UInt8),
    (captured since chunks).file = records.flatMap (fun r => writeRecord r.1 r.2) ∧
      records.map Prod.snd = (chunks.map Prod.snd).filter (· ≠ []) := by
  induction chunks using List.reverseRecOn with
  | nil => exact ⟨[], rfl, rfl⟩
  | append_singleton chunks chunk ih =>
    obtain ⟨records, file, payloads⟩ := ih
    rw [captured, List.foldl_append, ← captured, List.foldl_cons, List.foldl_nil, CaptureWriter.record,
      List.map_append, List.filter_append, List.map_singleton]
    by_cases empty : chunk.2 = []
    · refine ⟨records, by rw [if_pos empty, file], ?_⟩
      rw [payloads, empty]
      simp
    · refine ⟨records ++ [(since chunk.1 ((captured since chunks).start.getD chunk.1), chunk.2)], ?_, ?_⟩
      · rw [if_neg empty, List.flatMap_append, ← file]
        simp
      · rw [List.map_append, payloads, List.filter_cons_of_pos (by simpa using empty)]
        rfl

theorem flatten_filter {α : Type*} (pieces : List (List α)) [DecidableEq α] :
    (pieces.filter (· ≠ [])).flatten = pieces.flatten := by
  induction pieces with
  | nil => rfl
  | cons piece pieces ih =>
    by_cases empty : piece = []
    · rw [List.filter_cons_of_neg (by simpa using empty), ih, empty, List.flatten_cons, List.nil_append]
    · rw [List.filter_cons_of_pos (by simpa using empty), List.flatten_cons, List.flatten_cons, ih]

/-- For all chunks at any times: the reader comes to the end, what it has read are the chunks that were
not empty, in order, and together they are the raw stream. -/
theorem capture_read (f : FloatReader) (chunks : List (τ × List UInt8)) (turns : ℕ)
    (enough : ((chunks.map Prod.snd).filter (· ≠ [])).length < turns) :
    (readCapture f (captured since chunks).file turns).2 = .done ∧
      (readCapture f (captured since chunks).file turns).1.map Prod.snd =
        (chunks.map Prod.snd).filter (· ≠ []) ∧
      ((readCapture f (captured since chunks).file turns).1.map Prod.snd).flatten =
        (chunks.map Prod.snd).flatten := by
  obtain ⟨records, file, payloads⟩ := captured_append since chunks
  have count : records.length < turns := by rwa [← payloads, List.length_map] at enough
  have read := readFrom_records f [] records turns count
  rw [List.nil_append, ← file] at read
  refine ⟨read.1, read.2.trans payloads, ?_⟩
  rw [readCapture, show ((0 : ℤ)) = (([] : List UInt8).length : ℤ) from rfl, read.2, payloads, flatten_filter]

/-- A reader that knows two numbers. -/
def twoTimes : FloatReader where
  float b :=
    if b = ascii "0.000000".toList then some (.finite false 0)
    else if b = ascii "0.250000".toList then some (.finite false (1 / 4))
    else some .nan
  float_fixed x := by
    split
    · rfl
    · split <;> rfl

theorem capture_read_lines :
    (readCapture twoTimes (captured (fun now start : ℚ => .finite false (now - start))
        [(7, [10]), (7, []), (29 / 4, [48, 32, 10])]).file 3) =
      ([(.finite false 0, [10]), (.finite false (1 / 4), [48, 32, 10])], .done) ∧
    (readCapture twoTimes (captured (fun now start : ℚ => .finite false (now - start))
        [(7, [10]), (7, []), (29 / 4, [48, 32, 10])]).file 3).1.map Prod.snd = [[10], [48, 32, 10]] :=
  ⟨by decide +kernel, (capture_read _ twoTimes _ 3 (by decide)).2.1⟩

end Nelix.Daemon
