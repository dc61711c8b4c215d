import Nelix.Core.Whitespace

/-!
# Patterns

What `re` finds in a text, and what it puts in place of it. A pattern looks at a place, that is at
the character before it and at the text from there on, and tells how far it reaches and what it
found; an empty match is none.

## Main results

`finditer_line`: a pattern that is anchored at the starts of lines passes over a line on which it
finds nothing.

`sub_append`: what stands on two sides of a border that no match reaches over is replaced apart.

`sub_run`: a pattern that ends with a run of solid characters takes a run that it takes to its end.
-/
namespace Core

/-- The tables behind `\d` and `\w`. -/
structure Unicode where
  digit : CodePoint → Bool
  word : CodePoint → Bool
  digit_ascii : ∀ c : Char, c.toNat < 128 → digit (.char c) = c.isDigit
  word_ascii : ∀ c : Char, c.toNat < 128 → word (.char c) = (c.isAlphanum || c = '_')
  digit_word : ∀ c, digit c = true → word c = true
  word_solid : ∀ c, word c = true → c.isSpace = false
  digit_dingbat : ∀ c : Char, 0x2700 ≤ c.toNat ∧ c.toNat ≤ 0x27bf → digit (.char c) = false

namespace Unicode

def asciiDigit : CodePoint → Bool
  | .char c => c.toNat < 128 && c.isDigit
  | _ => false

def asciiWord : CodePoint → Bool
  | .char c => c.toNat < 128 && (c.isAlphanum || c = '_')
  | _ => false

theorem asciiDigit_of_small (c : Char) (small : c.toNat < 128) :
    asciiDigit (.char c) = c.isDigit := by
  simp [asciiDigit, small]

theorem asciiWord_of_small (c : Char) (small : c.toNat < 128) :
    asciiWord (.char c) = (c.isAlphanum || c = '_') := by
  simp [asciiWord, small]

theorem asciiWord_of_digit (c : CodePoint) (digit : asciiDigit c = true) : asciiWord c = true := by
  cases c <;> simp_all [asciiDigit, asciiWord, Char.isAlphanum]

theorem solid_of_asciiWord (c : CodePoint) (word : asciiWord c = true) : c.isSpace = false := by
  cases c with
  | char c =>
    rw [asciiWord, Bool.and_eq_true, decide_eq_true_eq] at word
    have each : ∀ n < 128, ((Char.ofNat n).isAlphanum || Char.ofNat n = '_') = true →
        (CodePoint.char (Char.ofNat n)).isSpace = false := by decide +kernel
    simpa only [Char.ofNat_toNat] using
      each c.toNat word.1 (by simpa only [Char.ofNat_toNat] using word.2)
  | high _ => cases word
  | low _ => cases word

theorem asciiDigit_of_dingbat (c : Char) (dingbat : 0x2700 ≤ c.toNat ∧ c.toNat ≤ 0x27bf) :
    asciiDigit (.char c) = false := by
  have large : ¬ c.toNat < 128 := by omega
  simp [asciiDigit, large]

/-- Tables that know ASCII only. -/
def ascii : Unicode where
  digit := asciiDigit
  word := asciiWord
  digit_ascii := asciiDigit_of_small
  word_ascii := asciiWord_of_small
  digit_word := asciiWord_of_digit
  word_solid := solid_of_asciiWord
  digit_dingbat := asciiDigit_of_dingbat

variable (u : Unicode) {c : CodePoint}

theorem digit_solid (digit : u.digit c = true) : c.isSpace = false :=
  u.word_solid c (u.digit_word c digit)

end Unicode

abbrev Pattern (α β : Type*) := Option α → List α → Option (ℕ × β)

variable {α β : Type*}

theorem getLast?_cons_or (c : α) (text : List α) (before : Option α) :
    (c :: text).getLast?.or before = text.getLast?.or (some c) := by
  rw [List.getLast?_cons]
  cases text.getLast? <;> rfl

/-! ### Where a run stops -/

section Stops
variable {q : α → Bool} {left right : List α} {bar : α}

theorem takeWhile_stop (stops : q bar = false) :
    (left ++ bar :: right).takeWhile q = left.takeWhile q := by
  induction left with
  | nil => rw [List.nil_append, List.takeWhile_cons_of_neg (by simp [stops])]; rfl
  | cons c left ih => rw [List.cons_append, List.takeWhile_cons, List.takeWhile_cons, ih]

theorem dropWhile_stop (stops : q bar = false) :
    (left ++ bar :: right).dropWhile q = left.dropWhile q ++ bar :: right := by
  induction left with
  | nil => rw [List.nil_append, List.dropWhile_cons_of_neg (by simp [stops])]; rfl
  | cons c left ih =>
    rw [List.cons_append, List.dropWhile_cons, List.dropWhile_cons, ih]
    split <;> rfl

end Stops

/-- What is found from left to right, each with its place. The first number is how much of a match is
left to be passed over, the second is where the text begins. -/
def finditer (p : Pattern α β) : Option α → ℕ → ℕ → List α → List (ℕ × β)
  | _, _, _, [] => []
  | _, n + 1, i, c :: rest => finditer p (some c) n (i + 1) rest
  | before, 0, i, c :: rest =>
    match p before (c :: rest) with
    | some (n + 1, found) => (i, found) :: finditer p (some c) n (i + 1) rest
    | _ => finditer p (some c) 0 (i + 1) rest

/-- `p.sub(…, text)`, where the pattern tells what stands in for the match. -/
def sub (p : Pattern α (List α)) : Option α → ℕ → List α → List α
  | _, _, [] => []
  | _, n + 1, c :: rest => sub p (some c) n rest
  | before, 0, c :: rest =>
    match p before (c :: rest) with
    | some (n + 1, stand) => stand ++ sub p (some c) n rest
    | _ => c :: sub p (some c) 0 rest

/-- `p.search(text)` -/
def search (p : Pattern α β) (text : List α) : Bool := !(finditer p none 0 0 text).isEmpty

/-! ### Finding -/

section Finding
variable {p : Pattern α β} {before : Option α} {text rest line : List α} {n i : ℕ} {found : β} {nl c : α}

theorem finditer_hit (hit : p before (c :: rest) = some (n + 1, found)) :
    finditer p before 0 i (c :: rest) = (i, found) :: finditer p (some c) n (i + 1) rest := by
  rw [finditer, hit]

theorem finditer_miss (miss : p before (c :: rest) = none) :
    finditer p before 0 i (c :: rest) = finditer p (some c) 0 (i + 1) rest := by
  rw [finditer, miss]

/-- What is passed over matters by its last character only. -/
theorem finditer_skip (inside : n ≤ text.length) :
    finditer p before n i text =
      finditer p ((text.take n).getLast?.or before) 0 (i + n) (text.drop n) := by
  induction n generalizing before i text with
  | zero => rfl
  | succ n ih =>
    cases text with
    | nil => cases inside
    | cons c rest =>
      rw [finditer, ih (Nat.le_of_succ_le_succ inside), List.take_succ_cons, List.drop_succ_cons,
        getLast?_cons_or, show i + 1 + n = i + (n + 1) by omega]

/-- Behind a match the search goes on. -/
theorem finditer_match (hit : p before text = some (n + 1, found)) (inside : n + 1 ≤ text.length) :
    finditer p before 0 i text =
      (i, found) :: finditer p (text.take (n + 1)).getLast? 0 (i + (n + 1)) (text.drop (n + 1)) := by
  cases text with
  | nil => cases inside
  | cons c rest =>
    rw [finditer_hit hit, finditer_skip (Nat.le_of_succ_le_succ inside), List.take_succ_cons,
      List.drop_succ_cons, List.getLast?_cons, show i + 1 + n = i + (n + 1) by omega]
    cases (rest.take n).getLast? <;> rfl

/-- What is found does not depend on where the text begins. -/
theorem finditer_found (i j : ℕ) :
    (finditer p before n i text).map Prod.snd = (finditer p before n j text).map Prod.snd := by
  induction text generalizing before n i j with
  | nil => rw [finditer, finditer]
  | cons c rest ih =>
    cases n with
    | succ n => rw [finditer, finditer, ih]
    | zero =>
      rw [finditer, finditer]
      split
      · rw [List.map_cons, List.map_cons, ih]
      · exact ih ..

theorem finditer_place {m : ℕ × β} (member : m ∈ finditer p before n i text) : i ≤ m.1 := by
  induction text generalizing before n i with
  | nil =>
    rw [finditer] at member
    cases member
  | cons c rest ih =>
    cases n with
    | succ n =>
      rw [finditer] at member
      exact (Nat.le_succ i).trans (ih member)
    | zero =>
      rw [finditer] at member
      split at member
      · rcases List.mem_cons.mp member with rfl | later
        · exact le_rfl
        · exact (Nat.le_succ i).trans (ih later)
      · exact (Nat.le_succ i).trans (ih member)

/-- A pattern that finds something finds it somewhere. -/
theorem exists_of_finditer (some' : finditer p before n i text ≠ []) :
    ∃ before' more, more <:+ text ∧ (p before' more).isSome := by
  induction text generalizing before n i with
  | nil => rw [finditer] at some'; exact absurd rfl some'
  | cons c rest ih =>
    have later {before' : Option α} {n' i' : ℕ} (filled : finditer p before' n' i' rest ≠ []) :
        ∃ before' more, more <:+ c :: rest ∧ (p before' more).isSome := by
      obtain ⟨before', more, tail, hit⟩ := ih filled
      exact ⟨before', more, tail.trans (List.suffix_cons ..), hit⟩
    cases n with
    | succ n => exact later (by rwa [finditer] at some')
    | zero =>
      cases hit : p before (c :: rest) with
      | none =>
        rw [finditer_miss hit] at some'
        exact later some'
      | some match' => exact ⟨before, c :: rest, List.suffix_rfl, by rw [hit]; rfl⟩

/-- The pattern finds nothing but at the start of a line. -/
def Anchored (nl : α) (p : Pattern α β) : Prop :=
  (∀ c text, c ≠ nl → p (some c) text = none) ∧ ∀ text, p none text = p (some nl) text

theorem finditer_inside (anchored : Anchored nl p) (bare : nl ∉ line) (inside : c ≠ nl) :
    finditer p (some c) 0 i (line ++ nl :: rest) =
      finditer p (some nl) 0 (i + line.length + 1) rest := by
  induction line generalizing c i with
  | nil => exact finditer_miss (anchored.1 c _ inside)
  | cons d line ih =>
    obtain ⟨other, bare'⟩ := not_or.mp (mt List.mem_cons.mpr bare)
    rw [List.cons_append, finditer_miss (anchored.1 c _ inside), ih bare' (Ne.symm other),
      List.length_cons, show i + 1 + line.length + 1 = i + (line.length + 1) + 1 by omega]

/-- A line on which nothing begins is passed over. -/
theorem finditer_line (anchored : Anchored nl p) (bare : nl ∉ line)
    (miss : p (some nl) (line ++ nl :: rest) = none) :
    finditer p (some nl) 0 i (line ++ nl :: rest) =
      finditer p (some nl) 0 (i + line.length + 1) rest := by
  cases line with
  | nil => exact finditer_miss miss
  | cons c line =>
    obtain ⟨other, bare'⟩ := not_or.mp (mt List.mem_cons.mpr bare)
    have first : p (some nl) (c :: (line ++ nl :: rest)) = none := miss
    rw [List.cons_append, finditer_miss first, finditer_inside anchored bare' (Ne.symm other),
      List.length_cons, show i + 1 + line.length + 1 = i + (line.length + 1) + 1 by omega]

theorem finditer_start (anchored : Anchored nl p) :
    finditer p none 0 i text = finditer p (some nl) 0 i text := by
  cases text with
  | nil => rfl
  | cons c rest => rw [finditer, finditer, anchored.2]

end Finding

/-! ### Replacing -/

section Replacing
variable {α : Type*} {p : Pattern α (List α)} {before : Option α} {left right : List α} {n : ℕ}

/-- No match that begins in the text reaches over its end, and none is made or broken by what is behind
it. -/
def Contained (p : Pattern α (List α)) (left right : List α) : Prop :=
  ∀ before part, part ≠ [] → part <:+ left →
    p before (part ++ right) = p before part ∧ ∀ m ∈ p before part, m.1 ≤ part.length

/-- What stands on two sides of a border that no match reaches over is replaced apart. -/
theorem sub_append (contained : Contained p left right) (inside : n ≤ left.length) :
    sub p before n (left ++ right) =
      sub p before n left ++ sub p (left.getLast?.or before) 0 right := by
  induction left generalizing before n with
  | nil =>
    obtain rfl : n = 0 := by simpa using inside
    rw [List.nil_append, sub, List.nil_append]
    rfl
  | cons c left ih =>
    have later : Contained p left right := fun before part filled tail =>
      contained before part filled (tail.trans (List.suffix_cons ..))
    rw [getLast?_cons_or]
    cases n with
    | succ n => rw [List.cons_append, sub, sub, ih later (Nat.le_of_succ_le_succ inside)]
    | zero =>
      obtain ⟨same, short⟩ := contained before (c :: left) (List.cons_ne_nil _ _) List.suffix_rfl
      rw [List.cons_append] at same
      rw [List.cons_append, sub, sub, same]
      split
      next n stand hit =>
        have reach := short _ hit
        rw [ih later (Nat.le_of_succ_le_succ reach), List.append_assoc]
      next => rw [ih later (Nat.zero_le _), List.cons_append]

/-- A character that no match can reach over stays where it is. -/
theorem sub_bar {bar : α} (contained : Contained p left (bar :: right))
    (miss : ∀ before, p before (bar :: right) = none) :
    sub p before 0 (left ++ bar :: right) = sub p before 0 left ++ bar :: sub p (some bar) 0 right := by
  rw [sub_append contained (Nat.zero_le _), sub, miss]

/-- The character before the text matters for a match that begins with the text only. -/
theorem sub_before {before' : Option α} {text : List α} (same : p before text = p before' text) :
    sub p before 0 text = sub p before' 0 text := by
  cases text with
  | nil => rw [sub, sub]
  | cons c rest => rw [sub, sub, same]

/-- What is put out is characters of the text or of what stands in for a match. -/
theorem sub_forall {q : α → Prop} {text : List α} (each : ∀ c ∈ text, q c)
    (stands : ∀ before part, part <:+ text → ∀ m ∈ p before part, ∀ c ∈ m.2, q c) :
    ∀ c ∈ sub p before n text, q c := by
  induction text generalizing before n with
  | nil =>
    rw [sub]
    exact nofun
  | cons d rest ih =>
    have later {before' : Option α} {n' : ℕ} : ∀ c ∈ sub p before' n' rest, q c :=
      ih (fun c inside => each c (List.mem_cons_of_mem _ inside))
        fun before part tail => stands before part (tail.trans (List.suffix_cons ..))
    cases n with
    | succ n =>
      rw [sub]
      exact later
    | zero =>
      rw [sub]
      split
      next n stand hit =>
        intro c inside
        rcases List.mem_append.mp inside with here | behind
        · exact stands before _ List.suffix_rfl _ hit c here
        · exact later c behind
      next =>
        intro c inside
        rcases List.mem_cons.mp inside with rfl | behind
        · exact each c (List.mem_cons_self ..)
        · exact later c behind

theorem sub_ne_nil {text : List α} (filled : text ≠ [])
    (stands : ∀ m ∈ p before text, m.2 ≠ []) : sub p before 0 text ≠ [] := by
  obtain ⟨c, rest, rfl⟩ := List.exists_cons_of_ne_nil filled
  rw [sub]
  split
  next n stand hit => exact List.append_ne_nil_of_left_ne_nil (stands _ hit) _
  next => exact List.cons_ne_nil _ _

end Replacing

/-! ### Patterns that end with a run -/

section Runs

/-- A head and then a run of solid characters, as in `head(\S+)`. -/
def runPattern (solid : α → Bool) (head : Option α → List α → Option ℕ) (stand : List α → List α) :
    Pattern α (List α) := fun before text =>
  (head before text).bind fun n =>
    if ((text.drop n).takeWhile solid).isEmpty then none
    else some (n + ((text.drop n).takeWhile solid).length, stand (text.take n))

/-- Whether a match that begins in the text takes the character behind it. -/
def takes (p : Pattern α β) (probe : α) : Option α → ℕ → List α → Bool
  | _, n, [] => 0 < n
  | _, n + 1, c :: rest => takes p probe (some c) n rest
  | before, 0, c :: rest =>
    match p before (c :: rest ++ [probe]) with
    | some (n + 1, _) => takes p probe (some c) n rest
    | _ => takes p probe (some c) 0 rest

/-- What is put out for the text with the character behind it, up to that character. -/
def subBefore (p : Pattern α (List α)) (probe : α) : Option α → ℕ → List α → List α
  | _, _, [] => []
  | _, n + 1, c :: rest => subBefore p probe (some c) n rest
  | before, 0, c :: rest =>
    match p before (c :: rest ++ [probe]) with
    | some (n + 1, stand) => stand ++ subBefore p probe (some c) n rest
    | _ => c :: subBefore p probe (some c) 0 rest

/-- Nothing is taken where every match ends in the text. -/
theorem takes_false {p : Pattern α β} {probe : α} {before : Option α} {left : List α} {n : ℕ}
    (short : ∀ before part, part ≠ [] → part <:+ left →
      ∀ m ∈ p before (part ++ [probe]), m.1 ≤ part.length) (inside : n ≤ left.length) :
    takes p probe before n left = false := by
  induction left generalizing before n with
  | nil =>
    obtain rfl : n = 0 := by simpa using inside
    simp [takes]
  | cons c left ih =>
    have later {before' : Option α} {n' : ℕ} (inside' : n' ≤ left.length) :
        takes p probe before' n' left = false :=
      ih (fun before part filled tail => short before part filled (tail.trans (List.suffix_cons ..)))
        inside'
    cases n with
    | succ n =>
      rw [takes]
      exact later (Nat.le_of_succ_le_succ inside)
    | zero =>
      rw [takes]
      split
      next n found hit =>
        have reach := short before (c :: left) (List.cons_ne_nil _ _) List.suffix_rfl _ hit
        exact later (Nat.le_of_succ_le_succ reach)
      next => exact later (Nat.zero_le _)

variable {solid : α → Bool} {head : Option α → List α → Option ℕ} {stand : List α → List α}
  {probe : α} {before : Option α} {left right part : List α} {n g : ℕ}

/-- Heads that begin in the text end in it, whatever is behind it. -/
def Blind (head : Option α → List α → Option ℕ) (probe : α) (left right : List α) : Prop :=
  ∀ before part, part ≠ [] → part <:+ left →
    head before (part ++ right) = head before (part ++ [probe]) ∧
      ∀ n ∈ head before (part ++ right), n ≤ part.length

theorem run_over (here : head before (part ++ right) = some g) (inside : g ≤ part.length)
    (all : ∀ c ∈ part.drop g, solid c = true) (first : right.takeWhile solid ≠ []) :
    runPattern solid head stand before (part ++ right) =
      some (part.length + (right.takeWhile solid).length, stand (part.take g)) := by
  have run : ((part ++ right).drop g).takeWhile solid = part.drop g ++ right.takeWhile solid := by
    rw [List.drop_append_of_le_length inside, List.takeWhile_append_of_pos all]
  have filled : (part.drop g ++ right.takeWhile solid).isEmpty = false := by
    simp [first]
  rw [runPattern, here, Option.bind_some, run, filled, List.take_append_of_le_length inside,
    List.length_append, List.length_drop, if_neg (by simp)]
  congr 2
  omega

theorem takeWhile_lt (stops : ∃ c ∈ part, solid c = false) :
    (part.takeWhile solid).length < part.length := by
  refine lt_of_le_of_ne (List.takeWhile_prefix _).length_le fun same => ?_
  obtain ⟨c, member, other⟩ := stops
  have whole := (List.takeWhile_prefix solid).eq_of_length same
  rw [← whole] at member
  have yes := List.mem_takeWhile_imp member
  rw [other] at yes
  cases yes

theorem run_within (stand : List α → List α) (here : head before (part ++ right) = some g) (inside : g ≤ part.length)
    (stops : ∃ c ∈ part.drop g, solid c = false) :
    runPattern solid head stand before (part ++ right) =
        (if ((part.drop g).takeWhile solid).isEmpty then none
        else some (g + ((part.drop g).takeWhile solid).length, stand (part.take g))) ∧
      g + ((part.drop g).takeWhile solid).length < part.length := by
  have short := takeWhile_lt stops
  have run : ((part ++ right).drop g).takeWhile solid = (part.drop g).takeWhile solid := by
    rw [List.drop_append_of_le_length inside, List.takeWhile_append, if_neg (by omega)]
  rw [List.length_drop] at short
  refine ⟨?_, by omega⟩
  rw [runPattern, here, Option.bind_some, run, List.take_append_of_le_length inside]

/-- Behind a head that stays in the text, the run stops in front of a character that is not solid. -/
theorem run_stop {bar : α} {more : List α} (same : head before (part ++ bar :: more) = head before part)
    (inside : ∀ g ∈ head before part, g ≤ part.length) (stops : solid bar = false) :
    runPattern solid head stand before (part ++ bar :: more) = runPattern solid head stand before part := by
  rw [runPattern, runPattern, same]
  cases here : head before part with
  | none => rfl
  | some g =>
    rw [Option.bind_some, Option.bind_some, List.drop_append_of_le_length (inside g here),
      takeWhile_stop stops, List.take_append_of_le_length (inside g here)]

theorem run_le {m : ℕ × List α} (inside : ∀ g ∈ head before part, g ≤ part.length)
    (found : m ∈ runPattern solid head stand before part) :
    m.1 ≤ part.length ∧ ∃ g, m.2 = stand (part.take g) := by
  obtain ⟨g, here, found⟩ := Option.bind_eq_some_iff.mp found
  have reach := inside g here
  have run : ((part.drop g).takeWhile solid).length ≤ (part.drop g).length :=
    (List.takeWhile_prefix _).length_le
  rw [List.length_drop] at run
  split at found
  · cases found
  · cases found
    exact ⟨by dsimp only; omega, g, rfl⟩

theorem takes_over : takes (runPattern solid head stand) probe before (left.length + n + 1) left = true := by
  induction left generalizing before with
  | nil => simp [takes]
  | cons c left ih =>
    rw [List.length_cons, show left.length + 1 + n + 1 = left.length + n + 1 + 1 by omega, takes, ih]

theorem subBefore_over : subBefore (runPattern solid head stand) probe before (left.length + n) left = [] := by
  induction left generalizing before with
  | nil => rw [subBefore]
  | cons c left ih =>
    rw [List.length_cons, show left.length + 1 + n = left.length + n + 1 by omega, subBefore, ih]

theorem sub_over : sub (runPattern solid head stand) before (left.length + n) (left ++ right) =
    sub (runPattern solid head stand) (left.getLast?.or before) n right := by
  induction left generalizing before with
  | nil => rw [List.length_nil, Nat.zero_add, List.nil_append]; rfl
  | cons c left ih =>
    rw [getLast?_cons_or, List.length_cons, List.cons_append,
      show left.length + 1 + n = left.length + n + 1 by omega, sub, ih]

/-- A run that is taken is taken to its end. -/
theorem sub_run (blind : Blind head probe left right) (solid' : solid probe = true)
    (first : right.takeWhile solid ≠ []) (inside : n ≤ left.length) :
    sub (runPattern solid head stand) before n (left ++ right) =
      subBefore (runPattern solid head stand) probe before n left ++
        if takes (runPattern solid head stand) probe before n left then
          sub (runPattern solid head stand) (right.takeWhile solid).getLast? 0 (right.dropWhile solid)
        else sub (runPattern solid head stand) (left.getLast?.or before) 0 right := by
  induction left generalizing before n with
  | nil =>
    obtain rfl : n = 0 := by simpa using inside
    rw [subBefore, takes, if_neg (by simp)]
    rfl
  | cons c left ih =>
    have later : Blind head probe left right := fun before part filled tail =>
      blind before part filled (tail.trans (List.suffix_cons ..))
    rw [getLast?_cons_or]
    cases n with
    | succ n => rw [List.cons_append, sub, subBefore, takes, ih later (Nat.le_of_succ_le_succ inside)]
    | zero =>
      obtain ⟨same, short⟩ := blind before (c :: left) (List.cons_ne_nil _ _) List.suffix_rfl
      rw [List.cons_append, sub, subBefore, takes, ← List.cons_append]
      cases here : head before (c :: left ++ right) with
      | none =>
        have none' : runPattern solid head stand before (c :: left ++ right) = none := by
          rw [runPattern, here, Option.bind_none]
        have none'' : runPattern solid head stand before (c :: left ++ [probe]) = none := by
          rw [runPattern, ← same, here, Option.bind_none]
        rw [none', none'']
        dsimp only
        rw [ih later (Nat.zero_le _), List.cons_append]
      | some g =>
        have reach := short g here
        have here' := same.symm.trans here
        by_cases all : ∀ d ∈ (c :: left).drop g, solid d = true
        · -- The run goes on behind the text.
          have probe' : [probe].takeWhile solid = [probe] := by simp [solid']
          rw [run_over here reach all first, run_over here' reach all (by rw [probe']; exact List.cons_ne_nil _ _),
            probe', List.length_cons, List.length_singleton]
          obtain ⟨m, run⟩ : ∃ m, (right.takeWhile solid).length = m + 1 :=
            ⟨_, (Nat.succ_pred_eq_of_pos (List.length_pos_iff.mpr first)).symm⟩
          rw [run, show left.length + 1 + (m + 1) = left.length + (m + 1) + 1 by omega]
          dsimp only
          have behind : sub (runPattern solid head stand) (left.getLast?.or (some c)) (m + 1) right =
              sub (runPattern solid head stand) (right.takeWhile solid).getLast? 0
                (right.dropWhile solid) := by
            have whole : right = right.takeWhile solid ++ right.dropWhile solid :=
              List.takeWhile_append_dropWhile.symm
            have last : (right.takeWhile solid).getLast?.or (left.getLast?.or (some c)) =
                (right.takeWhile solid).getLast? := by
              obtain ⟨d, more, cut⟩ := List.exists_cons_of_ne_nil first
              rw [cut, List.getLast?_cons, Option.some_or]
            calc sub (runPattern solid head stand) (left.getLast?.or (some c)) (m + 1) right
                = sub (runPattern solid head stand) (left.getLast?.or (some c))
                    ((right.takeWhile solid).length + 0)
                    (right.takeWhile solid ++ right.dropWhile solid) := by rw [← whole, run]
              _ = _ := by rw [sub_over, last]
          rw [subBefore_over, if_pos (takes_over (n := 0)), sub_over, List.append_nil, behind]
        · push Not at all
          obtain ⟨d, member, other⟩ := all
          have stops : ∃ d ∈ (c :: left).drop g, solid d = false :=
            ⟨d, member, Bool.eq_false_of_not_eq_true other⟩
          obtain ⟨within, before'⟩ := run_within stand here reach stops
          obtain ⟨within', -⟩ := run_within stand here' reach stops
          rw [within, within']
          cases empty : (((c :: left).drop g).takeWhile solid).isEmpty with
          | true =>
            rw [if_pos rfl]
            dsimp only
            rw [ih later (Nat.zero_le _), List.cons_append]
          | false =>
            rw [if_neg Bool.false_ne_true]
            have filled : 0 < (((c :: left).drop g).takeWhile solid).length :=
              List.length_pos_iff.mpr (List.isEmpty_eq_false_iff.mp empty)
            obtain ⟨m, run⟩ : ∃ m, g + (((c :: left).drop g).takeWhile solid).length = m + 1 :=
              ⟨g + (((c :: left).drop g).takeWhile solid).length - 1, by omega⟩
            rw [run, List.length_cons] at before'
            rw [run]
            dsimp only
            rw [ih later (by omega), List.append_assoc]
/-- A text whose end is not taken keeps its last character. -/
theorem subBefore_last (blind : Blind head probe left [probe]) (solid' : solid probe = true)
    (inside : n < left.length)
    (stays : takes (runPattern solid head stand) probe before n left = false) :
    (subBefore (runPattern solid head stand) probe before n left).getLast? = left.getLast? := by
  induction left generalizing before n with
  | nil => cases inside
  | cons c left ih =>
    have later : Blind head probe left [probe] := fun before part filled tail =>
      blind before part filled (tail.trans (List.suffix_cons ..))
    have kept {before' : Option α} {n' : ℕ} (inside' : n' < left.length)
        (stays' : takes (runPattern solid head stand) probe before' n' left = false) (out : List α) :
        (out ++ subBefore (runPattern solid head stand) probe before' n' left).getLast? =
          (c :: left).getLast? := by
      have filled : left ≠ [] := List.ne_nil_of_length_pos (by omega)
      obtain ⟨d, left', rfl⟩ := List.exists_cons_of_ne_nil filled
      rw [List.getLast?_append, ih later inside' stays', List.getLast?_cons, List.getLast?_cons_cons,
        List.getLast?_cons, Option.some_or]
    cases n with
    | succ n =>
      rw [subBefore]
      rw [takes] at stays
      exact kept (Nat.lt_of_succ_lt_succ inside) stays []
    | zero =>
      rw [subBefore]
      rw [takes] at stays
      have copied (stays' : takes (runPattern solid head stand) probe (some c) 0 left = false) :
          (c :: subBefore (runPattern solid head stand) probe (some c) 0 left).getLast? =
            (c :: left).getLast? := by
        by_cases alone : left = []
        · rw [alone, subBefore]
        · exact kept (List.length_pos_iff.mpr alone) stays' [c]
      cases hit : runPattern solid head stand before (c :: left ++ [probe]) with
      | none =>
        rw [hit] at stays
        exact copied stays
      | some m =>
        obtain ⟨m, out⟩ := m
        rw [hit] at stays
        cases m with
        | zero => exact copied stays
        | succ m =>
          refine kept ?_ stays out
          by_contra beyond
          obtain ⟨k, rfl⟩ : ∃ k, m = left.length + k := ⟨m - left.length, by omega⟩
          obtain ⟨same, short⟩ := blind before (c :: left) (List.cons_ne_nil _ _) List.suffix_rfl
          cases k with
          | succ k =>
            have taken : takes (runPattern solid head stand) probe (some c) (left.length + k + 1) left = true :=
              takes_over
            rw [show left.length + (k + 1) = left.length + k + 1 from rfl] at stays
            dsimp only at stays
            rw [taken] at stays
            cases stays
          | zero =>
            -- The match would end with the text, though the character behind it is solid.
            cases here : head before (c :: left ++ [probe]) with
            | none =>
              rw [runPattern, here] at hit
              cases hit
            | some g =>
              have reach := short g here
              by_cases all : ∀ d ∈ (c :: left).drop g, solid d = true
              · have probe' : [probe].takeWhile solid = [probe] := by simp [solid']
                rw [run_over here reach all (by rw [probe']; exact List.cons_ne_nil _ _), probe'] at hit
                have size := congrArg Prod.fst (Option.some.inj hit)
                simp at size
              · push Not at all
                obtain ⟨d, member, other⟩ := all
                obtain ⟨within, before'⟩ := run_within stand here reach
                  ⟨d, member, Bool.eq_false_of_not_eq_true other⟩
                rw [within] at hit
                split at hit
                · cases hit
                · have size := congrArg Prod.fst (Option.some.inj hit)
                  rw [List.length_cons] at before'
                  dsimp only at size
                  omega

/-- A solid text whose end is taken wherever it stands alone is taken behind any other text: what begins
before it either ends before it or goes on over its end. -/
theorem takes_behind {last : List α} (solid' : solid probe = true) (all : ∀ c ∈ last, solid c = true)
    (alone : ∀ before, takes (runPattern solid head stand) probe before 0 last = true)
    (blind : Blind head probe (left ++ last) [probe]) (inside : n ≤ left.length) :
    takes (runPattern solid head stand) probe before n (left ++ last) = true := by
  induction left generalizing before n with
  | nil =>
    obtain rfl : n = 0 := by simpa using inside
    exact alone before
  | cons c left ih =>
    have later : Blind head probe (left ++ last) [probe] := fun before part filled tail =>
      blind before part filled (tail.trans (List.suffix_cons ..))
    cases n with
    | succ n =>
      rw [List.cons_append, takes]
      exact ih later (Nat.le_of_succ_le_succ inside)
    | zero =>
      obtain ⟨-, short⟩ := blind before (c :: left ++ last) (List.cons_ne_nil _ _) List.suffix_rfl
      rw [List.cons_append] at short
      rw [List.cons_append, takes]
      cases here : head before (c :: (left ++ last) ++ [probe]) with
      | none =>
        rw [runPattern, here, Option.bind_none]
        exact ih later (Nat.zero_le _)
      | some g =>
        have reach := short g here
        by_cases beyond : ∀ d ∈ (c :: (left ++ last)).drop g, solid d = true
        · have probe' : [probe].takeWhile solid = [probe] := by simp [solid']
          rw [run_over here reach beyond (by rw [probe']; exact List.cons_ne_nil _ _), probe',
            List.length_singleton, List.length_cons]
          exact takes_over (n := 0)
        · push Not at beyond
          obtain ⟨d, member, other⟩ := beyond
          have stops : ∃ d ∈ (c :: (left ++ last)).drop g, solid d = false :=
            ⟨d, member, Bool.eq_false_of_not_eq_true other⟩
          obtain ⟨within, -⟩ := run_within stand here reach stops
          rw [within]
          cases empty : (((c :: (left ++ last)).drop g).takeWhile solid).isEmpty with
          | true =>
            rw [if_pos rfl]
            exact ih later (Nat.zero_le _)
          | false =>
            rw [if_neg Bool.false_ne_true]
            have filled : 0 < (((c :: (left ++ last)).drop g).takeWhile solid).length :=
              List.length_pos_iff.mpr (List.isEmpty_eq_false_iff.mp empty)
            -- The run stops before the solid text.
            have before' : g + (((c :: (left ++ last)).drop g).takeWhile solid).length ≤
                (c :: left).length := by
              rw [← List.cons_append] at member ⊢
              have early : g ≤ (c :: left).length := by
                by_contra late
                have none' : (c :: left).drop g = [] := List.drop_eq_nil_of_le (by omega)
                rw [List.drop_append, none', List.nil_append] at member
                exact other (all d (List.mem_of_mem_drop member))
              rw [List.drop_append_of_le_length early] at member ⊢
              have among : d ∈ (c :: left).drop g :=
                (List.mem_append.mp member).resolve_right fun behind => other (all d behind)
              have short' := takeWhile_lt ⟨d, among, Bool.eq_false_of_not_eq_true other⟩
              rw [List.takeWhile_append, if_neg (by omega)]
              rw [List.length_drop] at short'
              omega
            obtain ⟨m, run⟩ : ∃ m, g + (((c :: (left ++ last)).drop g).takeWhile solid).length = m + 1 :=
              ⟨g + (((c :: (left ++ last)).drop g).takeWhile solid).length - 1, by omega⟩
            rw [run, List.length_cons] at before'
            rw [run]
            exact ih later (by omega)
end Runs

end Core
