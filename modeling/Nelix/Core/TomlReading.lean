import Nelix.Core.JsonText
import Nelix.Core.ScanLines
import Nelix.Core.Toml

/-!
# Reading TOML

The grammar of TOML 1.0. Numbers, booleans, dates and times are words, of which only the place is known.

## Main results

`line_local`: a line is read the same wherever it stands.

`line_agree`: there are always enough steps.
-/
namespace Core.Toml
open Scanner

variable {σ : Type}

/-! ### Characters -/

def isControl (c : Char) : Bool := c.toNat < 32 || c.toNat = 127

def isWs (c : Char) : Bool := c = ' ' || c = '\t'

/-- What a key is made of that has no quotes. -/
def isBare (c : Char) : Bool := c.isAlphanum || c = '-' || c = '_'

def isQuote (c : Char) : Bool := c = '"' || c = '\''

/-- What may stand in a comment. -/
def isShown (c : Char) : Bool := !isControl c || c = '\t'

def skipWs : Scanner Unit := do
  let _ ← span isWs
  pure ()

/-- White space and ends of lines, and comments where they may stand, up to something else. -/
def blanks (comments : Bool) : Bool → Scanner Unit
  | _, [] => none
  | true, c :: r => if c = '\n' then blanks comments false r else if isShown c then blanks comments true r else none
  | false, c :: r =>
    if isWs c || c = '\n' then blanks comments false r
    else if comments && c = '#' then blanks comments true r
    else if c = '\r' then none
    else some ((), c :: r)

/-! ### Strings -/

/-- So many hexadecimal digits. -/
def hex : ℕ → ℕ → Scanner ℕ
  | 0, n => pure n
  | k + 1, n => do
    let c ← item
    match JsonText.hexDigit? c with
    | some d => hex k (n * 16 + d)
    | none => fail

def unicode (k : ℕ) : Scanner (List Char) := do
  let n ← hex k 0
  if n.isValidChar then pure [Char.ofNat n] else fail

def shortEscapes : List (Char × Char) :=
  [('b', '\x08'), ('t', '\t'), ('n', '\n'), ('f', '\x0c'), ('r', '\r'), ('"', '"'), ('\\', '\\')]

/-- What stands behind a backslash. -/
def escape (multi : Bool) : Scanner (List Char) := do
  let c ← item
  if (multi && (isWs c || c = '\n')) = true then
    if c = '\n' then do
      blanks false false
      pure []
    else do
      skipWs
      exactly '\n'
      blanks false false
      pure []
  else if c = 'u' then unicode 4
  else if c = 'U' then unicode 8
  else
    match shortEscapes.lookup c with
    | some d => pure [d]
    | none => fail

/-- One character of a string, or what an escape stands for. -/
def stringPiece (delim : Char) (multi : Bool) (c : Char) : Scanner (List Char) :=
  if c = '\\' ∧ delim = '"' then escape multi
  else if isShown c = true ∨ multi = true ∧ c = '\n' then pure [c]
  else fail

/-- A string up to its end, which is one quote or the third in a row; so many were just read. -/
def stringBody (delim : Char) (multi : Bool) : ℕ → ℕ → Scanner (List Char)
  | 0, _ => fail
  | n + 1, quotes => do
    let c ← item
    if c = delim then
      if multi = true ∧ quotes < 2 then stringBody delim multi n (quotes + 1) else pure []
    else do
      let piece ← stringPiece delim multi c
      let rest ← stringBody delim multi n 0
      pure (List.replicate quotes delim ++ piece ++ rest)

/-- Up to two quotes before the last three belong to the string. -/
def trailing (delim : Char) : Scanner (List Char) := do
  let c ← peek
  if c = delim then do
    exactly delim
    let c ← peek
    if c = delim then do
      exactly delim
      pure [delim, delim]
    else pure [delim]
  else pure []

/-- A new line behind the opening quotes is no part of the string. -/
def skipFirstLine : Scanner Unit := do
  let c ← peek
  if c = '\n' then exactly '\n' else pure ()

def quoted (n : ℕ) (delim : Char) : Scanner String := do
  exactly delim
  let c ← peek
  if c = delim then do
    exactly delim
    let c ← peek
    if c = delim then do
      exactly delim
      skipFirstLine
      let body ← stringBody delim true n 0
      let extra ← trailing delim
      pure (String.ofList (body ++ extra))
    else pure ""
  else do
    let body ← stringBody delim false n 0
    pure (String.ofList body)

/-! ### Keys -/

def keyPart (n : ℕ) : Scanner String := do
  let c ← peek
  if isBare c = true then do
    let part ← span isBare
    pure (String.ofList part)
  else if isQuote c = true then do
    exactly c
    let part ← stringBody c false n 0
    pure (String.ofList part)
  else fail

def keyRest : ℕ → List String → String → Scanner Key
  | 0, _, _ => fail
  | n + 1, parents, stem => do
    let c ← peek
    if c = '.' then do
      exactly '.'
      skipWs
      let part ← keyPart n
      skipWs
      keyRest n (parents ++ [stem]) part
    else pure ⟨parents, stem⟩

def key (n : ℕ) : Scanner Key := do
  let part ← keyPart n
  skipWs
  keyRest n [] part

/-! ### Values -/

/-- What is written in one word, on one line. -/
structure Words (σ : Type) where
  scan : Scanner σ
  isLocal : Local scan scan
  isTight : Tight scan

def keyValue (n : ℕ) (value : Scanner (Toml σ)) : Scanner (Key × Toml σ) := do
  let k ← key n
  exactly '='
  skipWs
  let v ← value
  pure (k, v)

def arrayItems (value : Scanner (Toml σ)) : ℕ → List (Toml σ) → Scanner (List (Toml σ))
  | 0, _ => fail
  | n + 1, items => do
    let v ← value
    blanks true false
    let c ← item
    if c = ']' then pure (items ++ [v])
    else if c = ',' then do
      blanks true false
      let d ← peek
      if d = ']' then do
        exactly ']'
        pure (items ++ [v])
      else arrayItems value n (items ++ [v])
    else fail

def arrayOf (value : Scanner (Toml σ)) (n : ℕ) : Scanner (List (Toml σ)) := do
  exactly '['
  blanks true false
  let c ← peek
  if c = ']' then do
    exactly ']'
    pure []
  else arrayItems value n []

def isClosed : Toml σ → Bool
  | .array _ | .table _ => true
  | _ => false

/-- Adds an entry to an inline table. -/
def addInline (entries : Entries σ) (frozen : List (List String)) (k : Key) (v : Toml σ) : Option (Entries σ) :=
  if frozen.any (fun closed => closed.isPrefixOf k.path) = true then none
  else nest false (define k.stem v) k.parents entries

def inlineItems (value : Scanner (Toml σ)) : ℕ → Entries σ → List (List String) → Scanner (Entries σ)
  | 0, _, _ => fail
  | n + 1, entries, frozen => do
    let pair ← keyValue (n + 1) value
    match addInline entries frozen pair.1 pair.2 with
    | none => fail
    | some entries => do
      skipWs
      let c ← item
      if c = '}' then pure entries
      else if c = ',' then do
        skipWs
        inlineItems value n entries (if isClosed pair.2 then pair.1.path :: frozen else frozen)
      else fail

def inlineTable (value : Scanner (Toml σ)) (n : ℕ) : Scanner (Entries σ) := do
  exactly '{'
  skipWs
  let c ← peek
  if c = '}' then do
    exactly '}'
    pure []
  else inlineItems value n [] []

section Reading
variable (words : Words σ)

def value : ℕ → Scanner (Toml σ)
  | 0 => fail
  | n + 1 => do
    let c ← peek
    if isQuote c = true then do
      let s ← quoted n c
      pure (.string s)
    else if c = '[' then do
      let items ← arrayOf (value n) n
      pure (.array items)
    else if c = '{' then do
      let entries ← inlineTable (value n) n
      pure (.table entries)
    else do
      let word ← words.scan
      pure (.scalar word)

/-! ### Documents -/

def comment : Scanner Unit := do
  let c ← peek
  if c = '#' then do
    exactly '#'
    let _ ← span isShown
    pure ()
  else pure ()

def header (n : ℕ) : Scanner (Statement σ) := do
  exactly '['
  let c ← peek
  if c = '[' then do
    exactly '['
    skipWs
    let k ← key n
    exactly ']'
    exactly ']'
    pure (.listHeader k)
  else do
    skipWs
    let k ← key n
    exactly ']'
    pure (.header k)

def statement (n : ℕ) : Scanner (Option (Statement σ)) := do
  let c ← peek
  if isBare c = true ∨ isQuote c = true then do
    let pair ← keyValue n (value words n)
    pure (some (.keyValue pair.1 pair.2))
  else if c = '[' then do
    let statement ← header n
    pure (some statement)
  else pure none

/-- A line, which may go on for some lines. -/
def line (n : ℕ) : Scanner (Option (Statement σ)) := do
  skipWs
  let statement ← statement words n
  skipWs
  comment
  pure statement

/-- `s.replace("\r\n", "\n")` -/
def unixLines : List Char → List Char
  | [] => []
  | [c] => [c]
  | c :: d :: s => if c = '\r' ∧ d = '\n' then '\n' :: unixLines s else c :: unixLines (d :: s)

/-- The statements of a text. The last line need not be ended. -/
def statements (text : List Char) : Option (List (Statement σ)) :=
  readLines (line words) (unixLines text ++ ['\n'])

/-- What the statements define, one after another. -/
def run : Output σ → List (Statement σ) → Option (Output σ)
  | o, [] => some o
  | o, statement :: rest => (o.apply statement).bind fun o => run o rest

def load (text : String) : Option (Entries σ) :=
  ((statements words text.toList).bind (run {})).map Output.data

end Reading

/-! ### Reading in another text -/

section Locality
variable {n m k : ℕ} {words : Words σ} {elem elem' : Scanner (Toml σ)}

theorem skipWs_local : Local skipWs skipWs :=
  (Local.span (by decide) (by decide)).bind fun _ => Local.pure

/-- What stops behind white space stops at a character, which stays what it is. -/
theorem blanks_local (comments : Bool) (inside : Bool) : Local (blanks comments inside) (blanks comments inside) := by
  intro s a r read
  induction s generalizing inside with
  | nil => cases inside <;> cases read
  | cons d s ih =>
    have longer : ∀ {inside'}, d ≠ '\r' → blanks comments inside' s = some (a, r) →
        (∀ r', blanks comments inside (d :: r') = blanks comments inside' r') →
        ∃ c, d :: s = c ++ r ∧ '\r' ∉ c ∧
          ∀ r', lineOf r' = lineOf r → blanks comments inside (c ++ r') = some (a, r') := by
      intro inside' plain read step
      obtain ⟨c, rfl, none, elsewhere⟩ := ih inside' read
      refine ⟨d :: c, rfl, by simp [none, plain.symm], fun r' same => ?_⟩
      rw [List.cons_append, step]
      exact elsewhere r' same
    cases inside with
    | true =>
      rw [blanks] at read
      split_ifs at read with line shown
      · exact longer (by rintro rfl; cases line) read fun r' => by rw [blanks, if_pos line]
      · refine longer ?_ read fun r' => by rw [blanks, if_neg line, if_pos shown]
        rintro rfl
        cases shown
    | false =>
      rw [blanks] at read
      split_ifs at read with blank hash line
      · refine longer ?_ read fun r' => by rw [blanks, if_pos blank]
        rintro rfl
        cases blank
      · refine longer ?_ read fun r' => by rw [blanks, if_neg blank, if_pos hash]
        rintro rfl
        simp at hash
      · obtain ⟨rfl, rfl⟩ := Prod.mk.inj (Option.some.inj read)
        refine ⟨[], rfl, List.not_mem_nil, fun r' same => ?_⟩
        -- the character is on the line
        have here : r'.headD '\n' = d := lineOf_headD same
        cases r' with
        | nil =>
          obtain rfl : '\n' = d := here
          simp at blank
        | cons d' r' =>
          obtain rfl : d' = d := here
          rw [List.nil_append, blanks, if_neg blank, if_neg hash, if_neg line]

theorem hex_local (k n : ℕ) : Local (hex k n) (hex k n) := by
  induction k generalizing n with
  | zero => exact Local.pure
  | succ k ih =>
    refine Local.item.bind fun c => ?_
    cases JsonText.hexDigit? c with
    | some d => exact ih _
    | none => exact Local.fail

theorem unicode_local (k : ℕ) : Local (unicode k) (unicode k) :=
  (hex_local k 0).bind fun _ => Local.ite (fun _ => Local.pure) fun _ => Local.fail

theorem escape_local (multi : Bool) : Local (escape multi) (escape multi) := by
  refine Local.item.bind fun c => Local.ite (fun _ => Local.ite (fun _ => ?_) fun _ => ?_) fun _ => ?_
  · exact (blanks_local false false).bind fun _ => Local.pure
  · exact skipWs_local.bind fun _ => (Local.exactly _).bind fun _ => (blanks_local false false).bind fun _ =>
      Local.pure
  · refine Local.ite (fun _ => unicode_local 4) fun _ => Local.ite (fun _ => unicode_local 8) fun _ => ?_
    cases shortEscapes.lookup c with
    | some d => exact Local.pure
    | none => exact Local.fail

theorem stringPiece_local (delim : Char) (multi : Bool) (c : Char) :
    Local (stringPiece delim multi c) (stringPiece delim multi c) :=
  Local.ite (fun _ => escape_local multi) fun _ => Local.ite (fun _ => Local.pure) fun _ => Local.fail

theorem stringBody_local (delim : Char) (multi : Bool) (quotes : ℕ) (more : n ≤ m) :
    Local (stringBody delim multi n quotes) (stringBody delim multi m quotes) := by
  induction n generalizing m quotes with
  | zero => exact Local.fail
  | succ n ih =>
    obtain ⟨m, rfl⟩ := Nat.exists_eq_succ_of_ne_zero (Nat.ne_zero_of_lt more)
    have fewer : n ≤ m := Nat.le_of_succ_le_succ more
    refine Local.item.bind fun c => Local.ite (fun _ => ?_) fun _ => ?_
    · exact Local.ite (fun _ => ih (quotes + 1) fewer) fun _ => Local.pure
    · exact (stringPiece_local delim multi c).bind fun _ => (ih 0 fewer).bind fun _ => Local.pure

theorem trailing_local (delim : Char) : Local (trailing delim) (trailing delim) :=
  Local.peek.bind fun _ => Local.ite
    (fun _ => (Local.exactly _).bind fun _ => Local.peek.bind fun _ =>
      Local.ite (fun _ => (Local.exactly _).bind fun _ => Local.pure) fun _ => Local.pure)
    fun _ => Local.pure

theorem skipFirstLine_local : Local skipFirstLine skipFirstLine :=
  Local.peek.bind fun _ => Local.ite (fun _ => Local.exactly _) fun _ => Local.pure

theorem quoted_local (delim : Char) (more : n ≤ m) : Local (quoted n delim) (quoted m delim) := by
  refine (Local.exactly _).bind fun _ => Local.peek.bind fun c => Local.ite (fun _ => ?_) fun _ => ?_
  · refine (Local.exactly _).bind fun _ => Local.peek.bind fun c => Local.ite (fun _ => ?_) fun _ => Local.pure
    exact (Local.exactly _).bind fun _ => skipFirstLine_local.bind fun _ =>
      (stringBody_local delim true 0 more).bind fun _ => (trailing_local delim).bind fun _ => Local.pure
  · exact (stringBody_local delim false 0 more).bind fun _ => Local.pure

theorem keyPart_local (more : n ≤ m) : Local (keyPart n) (keyPart m) := by
  refine Local.peek.bind fun c => Local.ite (fun _ => ?_) fun _ => Local.ite (fun _ => ?_) fun _ => Local.fail
  · exact (Local.span (by decide) (by decide)).bind fun _ => Local.pure
  · exact (Local.exactly _).bind fun _ => (stringBody_local c false 0 more).bind fun _ => Local.pure

theorem keyRest_local (parents : List String) (stem : String) (more : n ≤ m) :
    Local (keyRest n parents stem) (keyRest m parents stem) := by
  induction n generalizing m parents stem with
  | zero => exact Local.fail
  | succ n ih =>
    obtain ⟨m, rfl⟩ := Nat.exists_eq_succ_of_ne_zero (Nat.ne_zero_of_lt more)
    have fewer : n ≤ m := Nat.le_of_succ_le_succ more
    refine Local.peek.bind fun c => Local.ite (fun _ => ?_) fun _ => Local.pure
    exact (Local.exactly _).bind fun _ => skipWs_local.bind fun _ => (keyPart_local fewer).bind fun part =>
      skipWs_local.bind fun _ => ih (parents ++ [stem]) part fewer

theorem key_local (more : n ≤ m) : Local (key n) (key m) :=
  (keyPart_local more).bind fun part => skipWs_local.bind fun _ => keyRest_local [] part more

theorem keyValue_local (more : n ≤ m) (each : Local elem elem') :
    Local (keyValue n elem) (keyValue m elem') :=
  (key_local more).bind fun _ => (Local.exactly _).bind fun _ => skipWs_local.bind fun _ =>
    each.bind fun _ => Local.pure

theorem arrayItems_local (items : List (Toml σ)) (more : n ≤ m) (each : Local elem elem') :
    Local (arrayItems elem n items) (arrayItems elem' m items) := by
  induction n generalizing m items with
  | zero => exact Local.fail
  | succ n ih =>
    obtain ⟨m, rfl⟩ := Nat.exists_eq_succ_of_ne_zero (Nat.ne_zero_of_lt more)
    have fewer : n ≤ m := Nat.le_of_succ_le_succ more
    refine each.bind fun v => (blanks_local true false).bind fun _ => Local.item.bind fun c =>
      Local.ite (fun _ => Local.pure) fun _ => Local.ite (fun _ => ?_) fun _ => Local.fail
    refine (blanks_local true false).bind fun _ => Local.peek.bind fun d => Local.ite (fun _ => ?_) fun _ => ?_
    · exact (Local.exactly _).bind fun _ => Local.pure
    · exact ih (items ++ [v]) fewer

theorem arrayOf_local (more : n ≤ m) (each : Local elem elem') : Local (arrayOf elem n) (arrayOf elem' m) :=
  (Local.exactly _).bind fun _ => (blanks_local true false).bind fun _ => Local.peek.bind fun _ =>
    Local.ite (fun _ => (Local.exactly _).bind fun _ => Local.pure) fun _ => arrayItems_local [] more each

theorem inlineItems_local (entries : Entries σ) (frozen : List (List String)) (more : n ≤ m)
    (each : Local elem elem') : Local (inlineItems elem n entries frozen) (inlineItems elem' m entries frozen) := by
  induction n generalizing m entries frozen with
  | zero => exact Local.fail
  | succ n ih =>
    obtain ⟨m, rfl⟩ := Nat.exists_eq_succ_of_ne_zero (Nat.ne_zero_of_lt more)
    have fewer : n ≤ m := Nat.le_of_succ_le_succ more
    refine (keyValue_local more each).bind fun pair => ?_
    cases addInline entries frozen pair.1 pair.2 with
    | none => exact Local.fail
    | some entries =>
      refine skipWs_local.bind fun _ => Local.item.bind fun c => Local.ite (fun _ => Local.pure) fun _ =>
        Local.ite (fun _ => ?_) fun _ => Local.fail
      exact skipWs_local.bind fun _ => ih _ _ fewer

theorem inlineTable_local (more : n ≤ m) (each : Local elem elem') :
    Local (inlineTable elem n) (inlineTable elem' m) :=
  (Local.exactly _).bind fun _ => skipWs_local.bind fun _ => Local.peek.bind fun _ =>
    Local.ite (fun _ => (Local.exactly _).bind fun _ => Local.pure) fun _ => inlineItems_local [] [] more each

theorem value_local (more : n ≤ m) : Local (value words n) (value words m) := by
  induction n generalizing m with
  | zero => exact Local.fail
  | succ n ih =>
    obtain ⟨m, rfl⟩ := Nat.exists_eq_succ_of_ne_zero (Nat.ne_zero_of_lt more)
    have fewer : n ≤ m := Nat.le_of_succ_le_succ more
    refine Local.peek.bind fun c => Local.ite (fun _ => ?_) fun _ => Local.ite (fun _ => ?_) fun _ =>
      Local.ite (fun _ => ?_) fun _ => ?_
    · exact (quoted_local c fewer).bind fun _ => Local.pure
    · exact (arrayOf_local fewer (ih fewer)).bind fun _ => Local.pure
    · exact (inlineTable_local fewer (ih fewer)).bind fun _ => Local.pure
    · exact words.isLocal.bind fun _ => Local.pure

theorem comment_local : Local comment comment :=
  Local.peek.bind fun _ => Local.ite
    (fun _ => (Local.exactly _).bind fun _ => (Local.span (by decide) (by decide)).bind fun _ => Local.pure)
    fun _ => Local.pure

theorem header_local (more : n ≤ m) : Local (header n : Scanner (Statement σ)) (header m) := by
  refine (Local.exactly _).bind fun _ => Local.peek.bind fun c => Local.ite (fun _ => ?_) fun _ => ?_
  · exact (Local.exactly _).bind fun _ => skipWs_local.bind fun _ => (key_local more).bind fun _ =>
      (Local.exactly _).bind fun _ => (Local.exactly _).bind fun _ => Local.pure
  · exact skipWs_local.bind fun _ => (key_local more).bind fun _ => (Local.exactly _).bind fun _ => Local.pure

theorem statement_local (more : n ≤ m) : Local (statement words n) (statement words m) := by
  refine Local.peek.bind fun c => Local.ite (fun _ => ?_) fun _ => Local.ite (fun _ => ?_) fun _ => Local.pure
  · exact (keyValue_local more (value_local more)).bind fun _ => Local.pure
  · exact (header_local more).bind fun _ => Local.pure

theorem line_local (more : n ≤ m) : Local (line words n) (line words m) :=
  skipWs_local.bind fun _ => (statement_local more).bind fun _ => skipWs_local.bind fun _ =>
    comment_local.bind fun _ => Local.pure

end Locality

/-! ### Enough steps -/

section Steps
variable {n m k : ℕ} {words : Words σ} {elem elem' : Scanner (Toml σ)}

theorem stringBody_agree (delim : Char) (multi : Bool) (quotes : ℕ) :
    Agree n (stringBody delim multi n quotes) (stringBody delim multi (n + 1) quotes) := by
  induction n generalizing quotes with
  | zero => exact Agree.zero
  | succ n ih =>
    refine Agree.item_bind fun c => Agree.ite (Agree.ite (ih _) (Agree.refl _)) ?_
    exact (Agree.refl _).bind (stringPiece_local delim multi c) fun _ =>
      (ih 0).bind (stringBody_local delim multi 0 le_rfl) fun _ => Agree.refl _

theorem quoted_agree (delim : Char) : Agree (n + 1) (quoted n delim) (quoted (n + 1) delim) := by
  refine Agree.exactly_bind ((Agree.refl _).bind Local.peek fun c => Agree.ite ?_ ?_)
  · refine (Agree.refl _).bind (Local.exactly _) fun _ => (Agree.refl _).bind Local.peek fun c =>
      Agree.ite ?_ (Agree.refl _)
    exact (Agree.refl _).bind (Local.exactly _) fun _ => (Agree.refl _).bind skipFirstLine_local fun _ =>
      (stringBody_agree delim true 0).bind (stringBody_local delim true 0 le_rfl) fun _ => Agree.refl _
  · exact (stringBody_agree delim false 0).bind (stringBody_local delim false 0 le_rfl) fun _ => Agree.refl _

theorem keyPart_agree : Agree (n + 1) (keyPart n) (keyPart (n + 1)) := by
  refine (Agree.refl _).bind Local.peek fun c => Agree.ite (Agree.refl _) (Agree.ite ?_ (Agree.refl _))
  exact Agree.exactly_bind ((stringBody_agree c false 0).bind (stringBody_local c false 0 le_rfl) fun _ =>
    Agree.refl _)

theorem keyRest_agree (parents : List String) (stem : String) :
    Agree n (keyRest n parents stem) (keyRest (n + 1) parents stem) := by
  induction n generalizing parents stem with
  | zero => exact Agree.zero
  | succ n ih =>
    refine (Agree.refl _).bind Local.peek fun c => Agree.ite (Agree.exactly_bind ?_) (Agree.refl _)
    exact (Agree.refl _).bind skipWs_local fun _ =>
      (keyPart_agree.mono (Nat.le_succ n)).bind (keyPart_local le_rfl) fun part =>
        (Agree.refl _).bind skipWs_local fun _ => ih _ part

theorem key_agree : Agree n (key n) (key (n + 1)) :=
  (keyPart_agree.mono (Nat.le_succ n)).bind (keyPart_local le_rfl) fun part =>
    (Agree.refl _).bind skipWs_local fun _ => keyRest_agree [] part

theorem keyValue_agree (each : Agree n elem elem') (isLocal : Local elem elem) :
    Agree n (keyValue n elem) (keyValue (n + 1) elem') :=
  key_agree.bind (key_local le_rfl) fun _ => (Agree.refl _).bind (Local.exactly _) fun _ =>
    (Agree.refl _).bind skipWs_local fun _ => each.bind isLocal fun _ => Agree.refl _

theorem arrayItems_agree (items : List (Toml σ)) (each : Agree n elem elem') (isLocal : Local elem elem) :
    Agree n (arrayItems elem n items) (arrayItems elem' (n + 1) items) := by
  induction n generalizing items with
  | zero => exact Agree.zero
  | succ n ih =>
    refine each.bind isLocal fun v => (Agree.refl _).bind (blanks_local true false) fun _ =>
      Agree.item_bind fun c => Agree.ite (Agree.refl _) (Agree.ite ?_ (Agree.refl _))
    exact (Agree.refl _).bind (blanks_local true false) fun _ => (Agree.refl _).bind Local.peek fun d =>
      Agree.ite (Agree.refl _) (ih _ (each.mono (Nat.le_succ n)))

theorem inlineItems_agree (entries : Entries σ) (frozen : List (List String)) (each : Agree n elem elem')
    (isLocal : Local elem elem) :
    Agree n (inlineItems elem n entries frozen) (inlineItems elem' (n + 1) entries frozen) := by
  induction n generalizing entries frozen with
  | zero => exact Agree.zero
  | succ n ih =>
    refine (keyValue_agree each isLocal).bind (keyValue_local le_rfl isLocal) fun pair => ?_
    cases addInline entries frozen pair.1 pair.2 with
    | none => exact Agree.refl _
    | some entries =>
      refine (Agree.refl _).bind skipWs_local fun _ => Agree.item_bind fun c => Agree.ite (Agree.refl _)
        (Agree.ite ?_ (Agree.refl _))
      exact (Agree.refl _).bind skipWs_local fun _ => ih _ _ (each.mono (Nat.le_succ n))

theorem value_agree : Agree n (value words n) (value words (n + 1)) := by
  induction n with
  | zero => exact Agree.zero
  | succ n ih =>
    have inner : Local (value words n) (value words n) := value_local le_rfl
    refine (Agree.refl _).bind Local.peek fun c => Agree.ite ?_ (Agree.ite ?_ (Agree.ite ?_ (Agree.refl _)))
    · exact (quoted_agree c).bind (quoted_local c le_rfl) fun _ => Agree.refl _
    · refine Agree.bind ?_ (arrayOf_local le_rfl inner) fun _ => Agree.refl _
      exact Agree.exactly_bind ((Agree.refl _).bind (blanks_local true false) fun _ =>
        (Agree.refl _).bind Local.peek fun _ => Agree.ite (Agree.refl _) (arrayItems_agree [] ih inner))
    · refine Agree.bind ?_ (inlineTable_local le_rfl inner) fun _ => Agree.refl _
      exact Agree.exactly_bind ((Agree.refl _).bind skipWs_local fun _ =>
        (Agree.refl _).bind Local.peek fun _ => Agree.ite (Agree.refl _) (inlineItems_agree [] [] ih inner))

theorem header_agree : Agree n (header n : Scanner (Statement σ)) (header (n + 1)) := by
  refine (Agree.refl _).bind (Local.exactly _) fun _ => (Agree.refl _).bind Local.peek fun c => Agree.ite ?_ ?_
  · exact (Agree.refl _).bind (Local.exactly _) fun _ => (Agree.refl _).bind skipWs_local fun _ =>
      key_agree.bind (key_local le_rfl) fun _ => Agree.refl _
  · exact (Agree.refl _).bind skipWs_local fun _ => key_agree.bind (key_local le_rfl) fun _ => Agree.refl _

theorem line_agree : Agree n (line words n) (line words (n + 1)) := by
  refine (Agree.refl _).bind skipWs_local fun _ => Agree.bind ?_ (statement_local le_rfl) fun _ => Agree.refl _
  refine (Agree.refl _).bind Local.peek fun c => Agree.ite ?_ (Agree.ite ?_ (Agree.refl _))
  · exact (keyValue_agree value_agree (value_local le_rfl)).bind (keyValue_local le_rfl (value_local le_rfl))
      fun _ => Agree.refl _
  · exact header_agree.bind (header_local le_rfl) fun _ => Agree.refl _

end Steps

end Core.Toml
