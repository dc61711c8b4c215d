import Nelix.Core.Patterns
import Nelix.Core.Lines
import Nelix.Daemon.Observation

/-!
# Modals of the Claude driver

A frame that shows a numbered menu: which options are read off it, and which of its rows tell one
modal from another.

## Main results

`numberedOptions_block`: rows that are no numbered entries leave the options below them as they are.

`numberedOptions_above`: the options of a numbered entry are found wherever it is.
-/
namespace Nelix.Daemon

open Core

/-- The line feed. -/
def lf : CodePoint := .char '\n'

/-- Rows as one text. -/
def joinRows (rows : List Text) : Text := List.intercalate [lf] rows

/-- `text.split("\n")` -/
def rowsOf (text : Text) : List Text := text.splitOn lf

/-! ### Options -/

/-- `[❯>]` -/
def isCursor (c : CodePoint) : Bool := c = .char '❯' || c = .char '>'

/-- What `^\s*[❯>]?\s*(\d+)\.` reads. The classes are disjoint, so that there is nothing to try again. -/
structure NumberHead where
  cursor : Option CodePoint
  /-- Where the number is. -/
  offset : ℕ
  digits : Text
  /-- What is behind the period. -/
  rest : Text
  deriving DecidableEq

section Options
variable (u : Unicode)

def numberHead (text : Text) : Option NumberHead :=
  let solid := text.dropWhile CodePoint.isSpace
  let cursor := solid.head?.filter isCursor
  let number := (solid.drop cursor.toList.length).dropWhile CodePoint.isSpace
  match number.takeWhile u.digit, number.dropWhile u.digit with
  | d :: digits, .char '.' :: rest =>
    some { cursor, offset := text.length - number.length, digits := d :: digits, rest }
  | _, _ => none

/-- What follows the whitespace of `\s+\S`. -/
def solidBehind (rest : Text) : Option Text :=
  match rest.takeWhile CodePoint.isSpace, rest.dropWhile CodePoint.isSpace with
  | _ :: _, c :: solid => some (c :: solid)
  | _, _ => none

/-- `^` under `re.M` -/
def atLineStart (before : Option CodePoint) : Bool := before.all (· = lf)

/-- `_OPTION` -/
def optionPattern : Pattern CodePoint NumberHead := fun before text =>
  if atLineStart before then
    (numberHead u text).bind fun head =>
      (solidBehind head.rest).map fun solid => (text.length - solid.length + 1, head)
  else none

/-- `_SELECTED_OPTION` -/
def selectedPattern : Pattern CodePoint NumberHead := fun before text =>
  (optionPattern u before text).filter fun found => found.2.cursor = some (.char '❯')

/-- Where `\s*$` ends behind a label: at the end of the text, or before the last line feed of the
whitespace. -/
def lineEnd (text : Text) : ℕ :=
  match text.dropWhile CodePoint.isSpace with
  | [] => text.length
  | _ :: _ => (text.takeWhile CodePoint.isSpace).length -
      ((text.takeWhile CodePoint.isSpace).reverse.takeWhile (· ≠ lf)).length - 1

/-- An option, and how far behind the start of the match its number is. -/
structure OptionMatch where
  offset : ℕ
  id : Text
  label : Text
  deriving DecidableEq

/-- `(.*\S)`: the line without the whitespace behind it. -/
def labelOf (solid : Text) : Text := Text.rstrip (solid.takeWhile (· ≠ lf))

/-- Where the match ends behind the whitespace of `\s+`. -/
def labelEnd (solid : Text) : ℕ :=
  (labelOf solid).length + lineEnd (solid.drop (labelOf solid).length)

/-- `_OPTION_PARSE` -/
def optionParsePattern : Pattern CodePoint OptionMatch := fun before text =>
  if atLineStart before then
    (numberHead u text).bind fun head =>
      (solidBehind head.rest).map fun solid =>
        (text.length - solid.length + labelEnd solid,
          { offset := head.offset, id := head.digits, label := Text.strip (labelOf solid) })
  else none

/-- The matches of `_OPTION_PARSE`, each with the place of its number. -/
def numberedOptions (before : Option CodePoint) (i : ℕ) (text : Text) :
    List (ℕ × Text × Text) :=
  (finditer (optionParsePattern u) before 0 i text).map fun found =>
    (found.1 + found.2.offset, found.2.id, found.2.label)

/-- `_parse_options` -/
def parseOptions (frame : Text) : List (Text × Text) :=
  (numberedOptions u none 0 frame).map Prod.snd

/-- `_modal_menu` -/
def modalMenu (frame : Text) : Bool :=
  search (selectedPattern u) frame && 2 ≤ (finditer (optionPattern u) none 0 0 frame).length

end Options

/-! ### Classification -/

def crashMarkers : List Text :=
  [Text.ofString "Traceback (most recent call last)", Text.ofString "command not found",
    Text.ofString "Invalid API key", Text.ofString "authentication_error"]

def workingMarkers : List Text := [Text.ofString "esc to interrupt"]

/-- `[ \t]` -/
def isBlankOrTab (c : CodePoint) : Bool := c = .char ' ' || c = .char '\t'

/-- `_WORKING_STATUS` on one line. -/
def workingStatus (line : Text) : Bool :=
  match line.dropWhile isBlankOrTab with
  | .char glyph :: rest =>
    "·✢✳✶✻✽✺✦".toList.contains glyph &&
      match rest.dropWhile isBlankOrTab with
      | .char first :: .char second :: rest =>
        first.isUpper && second.isAlpha &&
          (decide (Text.ofString "…" <:+: rest) || decide (Text.ofString "..." <:+: rest))
      | _ => false
  | _ => false

/-- `_working_line` -/
def workingLine (frame : Text) : Option Text :=
  (rowsOf frame).find? fun line => workingStatus line || workingMarkers.any (decide <| · <:+: line)

/-- `_is_choice_prompt` -/
def isChoicePrompt (frame : Text) : Bool :=
  decide (Text.ofString "1. Yes" <:+: frame) && decide (Text.ofString "3. No" <:+: frame)

/-- The branch of `observe` that a modal takes, behind those for a child that is gone, for a crash
and for an agent at work. -/
def observeModal (u : Unicode) (childAlive : Bool) (frame : Text) :
    Option (PromptKind × List (Text × Text)) :=
  if !childAlive then none
  else if crashMarkers.any (decide <| · <:+: frame) then none
  else if (workingLine frame).isSome then none
  else if modalMenu u frame then
    some (if isChoicePrompt frame then .permissionChoice else .modalChoice, parseOptions u frame)
  else none

/-! ### The body -/

/-- `[⠀-⣿]` -/
def isSpinner : CodePoint → Bool
  | .char c => 0x2800 ≤ c.toNat && c.toNat ≤ 0x28ff
  | _ => false

/-- `\b` behind a character of a word. -/
def wordEnds (u : Unicode) (text : Text) : Bool := text.head?.all (!u.word ·)

/-- `(?:\.\d+)?` -/
def fractionLength (u : Unicode) (rest : Text) : ℕ :=
  let digits := rest.tail.takeWhile u.digit
  if rest.head? = some (.char '.') ∧ digits ≠ [] then digits.length + 1 else 0

/-- `_ELAPSED` -/
def elapsedPattern (u : Unicode) : Pattern CodePoint Text := fun _ text =>
  let digits := text.takeWhile u.digit
  let rest := text.dropWhile u.digit
  let fraction := fractionLength u rest
  let unit := rest.drop fraction
  if digits ≠ [] ∧ unit.head? = some (.char 's') ∧ wordEnds u unit.tail then
    some (digits.length + fraction + 1, .ofString "Ns")
  else none

/-- `[\d.,]` -/
def isFigure (u : Unicode) (c : CodePoint) : Bool :=
  u.digit c || c = .char '.' || c = .char ','

/-- `[kKmM]` -/
def isMagnitude (c : CodePoint) : Bool :=
  c = .char 'k' || c = .char 'K' || c = .char 'm' || c = .char 'M'

def token : Text := .ofString "token"

/-- `tokens?\b`; where the last letter is there, the word cannot end before it. -/
def tokenWord (u : Unicode) (text : Text) : Option ℕ :=
  let rest := text.drop token.length
  if token <+: text then
    if rest.head? = some (.char 's') then
      if wordEnds u rest.tail then some (token.length + 1) else none
    else if wordEnds u rest then some token.length else none
  else none

/-- `_TOKENS` -/
def tokensPattern (u : Unicode) : Pattern CodePoint Text := fun _ text =>
  let rest := text.tail.dropWhile (isFigure u)
  let rest := rest.drop (rest.head?.filter isMagnitude).toList.length
  let noun := rest.dropWhile CodePoint.isSpace
  if text.head?.any u.digit ∧ rest.takeWhile CodePoint.isSpace ≠ [] then
    (tokenWord u noun).map fun n => (text.length - noun.length + n, .ofString "N tokens")
  else none

/-- `normalize_frame` -/
def normalizeFrame (u : Unicode) (frame : Text) : Text :=
  let f := frame.filter (!isSpinner ·)
  let f := sub (elapsedPattern u) none 0 f
  sub (tokensPattern u) none 0 f

/-- `not row.strip()` -/
def isBlankRow (row : Text) : Bool := row.all CodePoint.isSpace

/-- `[\s─-╿▀-▟=_]` -/
def isRuleChar (c : CodePoint) : Bool :=
  c.isSpace ||
    match c with
    | .char c => (0x2500 ≤ c.toNat && c.toNat ≤ 0x257f) || (0x2580 ≤ c.toNat && c.toNat ≤ 0x259f) ||
        c = '=' || c = '_'
    | _ => false

/-- `_RULE_ROW` -/
def isRuleRow (row : Text) : Bool := !row.isEmpty && row.all isRuleChar

/-- A row that the walk up from the options goes over. -/
def isTextRow (row : Text) : Bool := !isBlankRow row && !isRuleRow row

/-- `_OPTION.search(row)` -/
def isOptionRow (u : Unicode) (row : Text) : Bool := search (optionPattern u) row

/-- The row above which the question is looked for. -/
def firstOption (u : Unicode) (rows : List Text) : Option ℕ := rows.findIdx? (isOptionRow u)

/-- How many rows there are down to the last one with something in it. -/
def skipBlanks (rows : List Text) : ℕ → ℕ
  | 0 => 0
  | n + 1 => if isBlankRow (rows.getD n []) then skipBlanks rows n else n + 1

/-- How many rows there are down to the one at which the walk up stops. -/
def walkUp (rows : List Text) (firstOpt : ℕ) : ℕ → ℕ
  | 0 => 0
  | n + 1 =>
    if firstOpt - 8 < n + 1 ∧ isTextRow (rows.getD n []) then walkUp rows firstOpt n else n + 1

/-- The block starts behind the row at which the walk stopped, or with it where that is still a row of
text. -/
def startOf (rows : List Text) (landed : ℕ) : ℕ :=
  if landed = 0 ∨ isTextRow (rows.getD (landed - 1) []) = false then landed else landed - 1

/-- The rows that are kept for an option row, from the first up to the second. -/
def spanAbove (rows : List Text) (firstOpt : ℕ) : Option (ℕ × ℕ) :=
  if firstOpt = 0 then none
  else
    let stop := skipBlanks rows firstOpt
    if stop = 0 then none
    else
      let start := startOf rows (walkUp rows firstOpt stop)
      if stop ≤ start then none else some (start, stop)

/-- The rows that `modal_body_fp` keeps. -/
def bodySpan (u : Unicode) (rows : List Text) : Option (ℕ × ℕ) :=
  (firstOption u rows).bind (spanAbove rows)

variable {β : Type*}

/-- `modal_body_fp` -/
def modalBodyFp (u : Unicode) (hash : Text → β) (norm : Text) : Option β :=
  (bodySpan u (rowsOf norm)).map fun span =>
    hash (joinRows (((rowsOf norm).take span.2).drop span.1))

section
variable {u : Unicode} {text row t : Text} {head : NumberHead} {solid : Text} {i : ℕ}

/-! ### Numbers on a row -/

/-- A number with a period, behind whitespace and at most one cursor. -/
structure Heads (u : Unicode) (text lead gap : Text) (head : NumberHead) : Prop where
  whole : text = lead ++ (head.cursor.toList ++ (gap ++ (head.digits ++ .char '.' :: head.rest)))
  blank : Text.Spaces lead
  between : Text.Spaces gap
  cursor : ∀ c ∈ head.cursor, isCursor c = true
  bare : head.cursor = none → gap = []
  filled : head.digits ≠ []
  digits : ∀ d ∈ head.digits, u.digit d = true
  offset : head.offset = lead.length + (head.cursor.toList.length + gap.length)

theorem isCursor_iff {c : CodePoint} : isCursor c = true ↔ c = .char '❯' ∨ c = .char '>' := by
  rw [isCursor, Bool.or_eq_true, decide_eq_true_eq, decide_eq_true_eq]

theorem cursor_solid {c : CodePoint} (cursor : isCursor c = true) : c.isSpace = false := by
  rcases isCursor_iff.mp cursor with rfl | rfl <;> rfl

theorem digit_not_cursor {c : CodePoint} (digit : u.digit c = true) : isCursor c = false := by
  by_contra cursor
  rcases isCursor_iff.mp (Bool.eq_true_of_not_eq_false cursor) with rfl | rfl
  · rw [u.digit_dingbat _ (by decide)] at digit
    cases digit
  · rw [u.digit_ascii _ (by decide)] at digit
    cases digit

theorem period_not_digit : u.digit (.char '.') = false := by
  rw [u.digit_ascii _ (by decide)]
  rfl

theorem numberHead_of_heads {lead gap : Text} (heads : Heads u text lead gap head) :
    numberHead u text = some head := by
  obtain ⟨cursor, offset, digits, rest⟩ := head
  obtain ⟨whole, spaces, blank, marked, bare, filled, each, place⟩ := heads
  dsimp only at whole marked bare filled each place
  obtain ⟨d, more, rfl⟩ := List.exists_cons_of_ne_nil filled
  have first : u.digit d = true := each d (by simp)
  have number : ((d :: more) ++ .char '.' :: rest).dropWhile CodePoint.isSpace =
      (d :: more) ++ .char '.' :: rest := by
    rw [List.cons_append, List.dropWhile_cons_of_neg (by simp [u.digit_solid first])]
  have taken : ((d :: more) ++ .char '.' :: rest).takeWhile u.digit = d :: more := by
    rw [List.takeWhile_append_of_pos each, List.takeWhile_cons_of_neg (by simp [period_not_digit]),
      List.append_nil]
  have left : ((d :: more) ++ .char '.' :: rest).dropWhile u.digit = .char '.' :: rest := by
    rw [List.dropWhile_append_of_pos each, List.dropWhile_cons_of_neg (by simp [period_not_digit])]
  have found : (((text.dropWhile CodePoint.isSpace).head?.filter isCursor) = cursor) ∧
      ((text.dropWhile CodePoint.isSpace).drop cursor.toList.length).dropWhile CodePoint.isSpace =
        (d :: more) ++ .char '.' :: rest := by
    rw [whole, spaces.dropWhile]
    cases cursor with
    | none =>
      rw [bare rfl, Option.toList_none, List.nil_append, List.nil_append, number]
      exact ⟨by simp [Option.filter, digit_not_cursor first], number⟩
    | some c =>
      have marks : isCursor c = true := marked c rfl
      rw [Option.toList_some, List.singleton_append,
        List.dropWhile_cons_of_neg (by simp [cursor_solid marks])]
      exact ⟨by simp [Option.filter, marks], by
        rw [List.length_singleton, List.drop_succ_cons, List.drop_zero, blank.dropWhile, number]⟩
  unfold numberHead
  dsimp only
  rw [found.1, found.2, taken, left, place, whole]
  simp only [List.length_append]
  congr 2
  omega

theorem heads_of_numberHead (found : numberHead u text = some head) :
    ∃ lead gap, Heads u text lead gap head := by
  unfold numberHead at found
  dsimp only at found
  generalize cursor' : (text.dropWhile CodePoint.isSpace).head?.filter isCursor = cursor at found
  generalize number' : ((text.dropWhile CodePoint.isSpace).drop cursor.toList.length).dropWhile
    CodePoint.isSpace = number at found
  split at found
  next d digits rest taken left =>
    cases found
    have first : text = text.takeWhile CodePoint.isSpace ++ text.dropWhile CodePoint.isSpace :=
      List.takeWhile_append_dropWhile.symm
    have second : text.dropWhile CodePoint.isSpace = cursor.toList ++
        (text.dropWhile CodePoint.isSpace).drop cursor.toList.length := by
      subst cursor'
      cases text.dropWhile CodePoint.isSpace with
      | nil => rfl
      | cons c rest =>
        rw [List.head?_cons]
        by_cases marks : isCursor c = true
        · simp [Option.filter, marks]
        · simp [Option.filter, marks]
    have third : (text.dropWhile CodePoint.isSpace).drop cursor.toList.length =
        ((text.dropWhile CodePoint.isSpace).drop cursor.toList.length).takeWhile
          CodePoint.isSpace ++ number := by
      rw [← number']
      exact List.takeWhile_append_dropWhile.symm
    have fourth : number = (d :: digits) ++ .char '.' :: rest := by
      rw [← taken, ← left]
      exact List.takeWhile_append_dropWhile.symm
    have whole := first
    rw [second, third, fourth] at whole
    refine ⟨_, _, whole, fun c => List.mem_takeWhile_imp, fun c => List.mem_takeWhile_imp, ?_, ?_,
      nofun, ?_, ?_⟩
    · rintro c marks
      subst cursor'
      exact (Option.mem_filter_iff.mp marks).2
    · rintro rfl
      rw [Option.toList_none, List.length_nil, List.drop_zero]
      cases solid : text.dropWhile CodePoint.isSpace with
      | nil => rfl
      | cons c rest =>
        have space := List.head_dropWhile_not CodePoint.isSpace (l := text) (by simp [solid])
        simp only [solid, List.head_cons] at space
        rw [List.takeWhile_cons_of_neg (by simp [space])]
    · intro c inside
      rw [← taken] at inside
      exact List.mem_takeWhile_imp inside
    · have lengths := congrArg List.length whole
      simp only [List.length_append] at lengths ⊢
      rw [fourth]
      simp only [List.length_append]
      omega
  next => cases found

theorem lf_not_digit : u.digit lf = false := by
  by_contra digit
  cases u.digit_solid (Bool.eq_true_of_not_eq_false digit)

/-- What may stand before a number may also begin behind a line feed. -/
theorem lead_line {lead gap more : Text} {cursor : Option CodePoint}
    (whole : lead ++ (cursor.toList ++ gap) = row ++ lf :: more) (blank : Text.Spaces lead)
    (between : Text.Spaces gap) (marked : ∀ c ∈ cursor, isCursor c = true)
    (bare : cursor = none → gap = []) :
    ∃ lead' gap', ∃ cursor' : Option CodePoint, more = lead' ++ (cursor'.toList ++ gap') ∧
      Text.Spaces lead' ∧ Text.Spaces gap' ∧ (∀ c ∈ cursor', isCursor c = true) ∧
      (cursor' = none → gap' = []) := by
  rcases List.append_eq_append_iff.mp whole with ⟨m, rfl, tail⟩ | ⟨m, rfl, tail⟩
  · -- The line feed is behind the cursor.
    cases cursor with
    | none =>
      rw [bare rfl] at tail
      simp at tail
    | some c =>
      rw [Option.toList_some, List.singleton_append] at tail
      cases m with
      | nil =>
        obtain ⟨rfl, -⟩ := List.cons.inj tail
        cases marked lf rfl
      | cons d m =>
        obtain ⟨-, rfl⟩ := List.cons.inj tail
        exact ⟨more, [], none, by simp, fun c inside => between c (by simp [inside]), nofun, nofun,
          fun _ => rfl⟩
  · cases m with
    | nil =>
      rw [List.nil_append] at tail
      cases cursor with
      | none =>
        rw [bare rfl] at tail
        cases tail
      | some c =>
        obtain ⟨rfl, -⟩ := List.cons.inj tail
        cases marked lf rfl
    | cons d m =>
      obtain ⟨rfl, rfl⟩ := List.cons.inj tail
      exact ⟨m, gap, cursor, rfl, fun c inside => blank c (by simp [inside]), between, marked, bare⟩

/-- The head of the text is that of its first row, or else that of what follows the row. -/
theorem numberHead_line (found : numberHead u (row ++ lf :: t) = some head) :
    (∃ rest, numberHead u row = some { head with rest } ∧ head.rest = rest ++ lf :: t) ∨
    ∃ head', numberHead u t = some head' ∧ head.offset = row.length + 1 + head'.offset ∧
      head.digits = head'.digits ∧ head.rest = head'.rest := by
  obtain ⟨lead, gap, heads⟩ := heads_of_numberHead found
  obtain ⟨cursor, offset, digits, rest⟩ := head
  obtain ⟨whole, blank, between, marked, bare, filled, each, place⟩ := heads
  dsimp only at whole marked bare filled each place
  have noDigit : lf ∉ digits := fun inside => by
    have digit := each lf inside
    rw [lf_not_digit] at digit
    cases digit
  rw [← List.append_assoc cursor.toList, ← List.append_assoc lead] at whole
  rcases List.append_eq_append_iff.mp whole with ⟨m, before, tail⟩ | ⟨m, rfl, tail⟩
  · -- The number is behind the line feed.
    right
    cases m with
    | nil =>
      obtain ⟨d, more, rfl⟩ := List.exists_cons_of_ne_nil filled
      obtain ⟨rfl, -⟩ := List.cons.inj tail
      exact absurd (by simp) noDigit
    | cons c m =>
      obtain ⟨rfl, rfl⟩ := List.cons.inj tail
      obtain ⟨lead', gap', cursor', rfl, blank', between', marked', bare'⟩ :=
        lead_line before blank between marked bare
      refine ⟨⟨cursor', lead'.length + (cursor'.toList.length + gap'.length), digits, rest⟩,
        numberHead_of_heads ⟨by simp, blank', between', marked', bare', filled, each, rfl⟩, ?_, rfl, rfl⟩
      have lengths := congrArg List.length before
      simp only [List.length_append, List.length_cons] at lengths
      dsimp only
      omega
  · -- The number is on the row, and so is its period.
    left
    rcases List.append_eq_append_iff.mp tail with ⟨m', rfl, tail'⟩ | ⟨m', rfl, tail'⟩
    · cases m' with
      | nil => cases (List.cons.inj tail').1
      | cons c m' =>
        obtain ⟨rfl, rfl⟩ := List.cons.inj tail'
        exact ⟨m', numberHead_of_heads
          ⟨by simp, blank, between, marked, bare, filled, each, place⟩, rfl⟩
    · cases m' with
      | nil => cases (List.cons.inj tail').1
      | cons c m' =>
        obtain ⟨rfl, -⟩ := List.cons.inj tail'
        exact absurd (by simp) noDigit

theorem numberHead_row (found : numberHead u row = some head) :
    numberHead u (row ++ t) = some { head with rest := head.rest ++ t } := by
  obtain ⟨lead, gap, heads⟩ := heads_of_numberHead found
  have longer : Heads u (row ++ t) lead gap { head with rest := head.rest ++ t } :=
    { heads with
      whole := by
        rw [heads.whole]
        simp }
  exact numberHead_of_heads longer

/-! ### What is behind the period -/

theorem solidBehind_eq {rest : Text} (found : solidBehind rest = some solid) :
    ∃ c gap, rest = c :: gap ++ solid ∧ Text.Spaces (c :: gap) ∧ ∃ d more, solid = d :: more ∧
      d.isSpace = false := by
  unfold solidBehind at found
  split at found
  next c gap d more taken left =>
    cases found
    refine ⟨c, gap, ?_, fun e inside => ?_, d, more, rfl, ?_⟩
    · rw [← taken, ← left]
      exact List.takeWhile_append_dropWhile.symm
    · rw [← taken] at inside
      exact List.mem_takeWhile_imp inside
    · have space := List.head_dropWhile_not CodePoint.isSpace (l := rest) (by simp [left])
      simpa only [left, List.head_cons] using space
  next => cases found

/-- The row reads as number, period and whitespace, or ends behind the period. -/
def isEntry (u : Unicode) (row : Text) : Bool :=
  match numberHead u row with
  | some head => head.rest.head?.all CodePoint.isSpace
  | none => false

theorem solidBehind_spaced {rest more : Text} (spaced : rest.head?.all CodePoint.isSpace = true)
    (filled : ∃ c ∈ more, c.isSpace = false) : (solidBehind (rest ++ lf :: more)).isSome := by
  obtain ⟨e, inside, solid⟩ := filled
  have first : (rest ++ lf :: more).takeWhile CodePoint.isSpace ≠ [] := by
    cases rest with
    | nil => rw [List.nil_append, List.takeWhile_cons_of_pos rfl]; exact List.cons_ne_nil _ _
    | cons c rest =>
      have space : c.isSpace = true := by simpa using spaced
      rw [List.cons_append, List.takeWhile_cons_of_pos space]
      exact List.cons_ne_nil _ _
  have left : (rest ++ lf :: more).dropWhile CodePoint.isSpace ≠ [] := by
    intro none'
    have all := List.dropWhile_eq_nil_iff.mp none' e (by simp [inside])
    rw [solid] at all
    cases all
  unfold solidBehind
  obtain ⟨c, gap, taken⟩ := List.exists_cons_of_ne_nil first
  obtain ⟨d, solid', left'⟩ := List.exists_cons_of_ne_nil left
  rw [taken, left']
  rfl

theorem solidBehind_unspaced {rest more : Text}
    (solid : rest.head?.all CodePoint.isSpace = false) : solidBehind (rest ++ more) = none := by
  cases rest with
  | nil => cases solid
  | cons c rest =>
    have solid' : c.isSpace = false := by simpa using solid
    rw [solidBehind, List.cons_append, List.takeWhile_cons_of_neg (by simp [solid'])]

/-! ### Rows without a number of their own -/

theorem atLineStart_lf : atLineStart (some lf) = true := by
  rw [atLineStart, Option.all_some, decide_eq_true_eq]

theorem optionParse_of (here : numberHead u text = some head)
    (behind : solidBehind head.rest = some solid) :
    optionParsePattern u (some lf) text = some (text.length - solid.length + labelEnd solid,
      { offset := head.offset, id := head.digits, label := Text.strip (labelOf solid) }) := by
  rw [optionParsePattern, if_pos atLineStart_lf, here, Option.bind_some, behind, Option.map_some]

theorem optionParse_eq {n : ℕ} {m : OptionMatch}
    (found : optionParsePattern u (some lf) text = some (n, m)) :
    ∃ head solid, numberHead u text = some head ∧ solidBehind head.rest = some solid ∧
      n = text.length - solid.length + labelEnd solid ∧
      m = { offset := head.offset, id := head.digits, label := Text.strip (labelOf solid) } := by
  rw [optionParsePattern, if_pos atLineStart_lf] at found
  obtain ⟨head, here, found⟩ := Option.bind_eq_some_iff.mp found
  obtain ⟨solid, behind, found⟩ := Option.map_eq_some_iff.mp found
  cases found
  exact ⟨head, solid, here, behind, rfl, rfl⟩

theorem optionParse_anchored : Core.Anchored lf (optionParsePattern u) := by
  refine ⟨fun c text other => ?_, fun text => ?_⟩
  · rw [optionParsePattern, if_neg (by simp [atLineStart, other])]
  · rw [optionParsePattern, optionParsePattern, if_pos atLineStart_lf]
    rfl

theorem lineEnd_le (t : Text) : lineEnd t ≤ t.length := by
  have taken : (t.takeWhile CodePoint.isSpace).length ≤ t.length := (List.takeWhile_prefix _).length_le
  unfold lineEnd
  split
  · exact le_rfl
  · omega

theorem labelEnd_le (solid : Text) : labelEnd solid ≤ solid.length := by
  have label : (labelOf solid).length ≤ solid.length :=
    (List.rdropWhile_prefix _ _).length_le.trans ((List.takeWhile_prefix _).length_le)
  have tail := lineEnd_le (solid.drop (labelOf solid).length)
  rw [List.length_drop] at tail
  rw [labelEnd]
  omega

/-- The text goes on behind the whitespace. -/
theorem length_solid (here : numberHead u text = some head)
    (behind : solidBehind head.rest = some solid) : solid.length < text.length := by
  obtain ⟨lead, gap, heads⟩ := heads_of_numberHead here
  obtain ⟨c, gap', rest, -⟩ := solidBehind_eq behind
  have lengths := congrArg List.length heads.whole
  rw [rest] at lengths
  simp only [List.length_append, List.length_cons] at lengths
  omega

/-- A match that begins on a row without a number of its own is the match that begins behind the row. -/
theorem optionParse_line (plain : isEntry u row = false) {n : ℕ} {m : OptionMatch}
    (found : optionParsePattern u (some lf) (row ++ lf :: t) = some (n, m)) :
    ∃ n' m', optionParsePattern u (some lf) t = some (n' + 1, m') ∧ n = row.length + 1 + (n' + 1) ∧
      n' + 1 ≤ t.length ∧ m.offset = row.length + 1 + m'.offset ∧ m.id = m'.id ∧
      m.label = m'.label := by
  obtain ⟨head, solid, here, behind, rfl, rfl⟩ := optionParse_eq found
  rcases numberHead_line here with ⟨rest, own, left⟩ | ⟨head', own, offset, digits, rest⟩
  · -- The row has a number, and what is behind it is solid.
    rw [isEntry, own] at plain
    rw [left, solidBehind_unspaced plain] at behind
    cases behind
  · rw [rest] at behind
    have short := length_solid own behind
    have inside := labelEnd_le solid
    refine ⟨t.length - solid.length + labelEnd solid - 1,
      { offset := head'.offset, id := head'.digits, label := Text.strip (labelOf solid) }, ?_, ?_, ?_,
      offset, digits, rfl⟩
    · rw [optionParse_of own behind]
      congr 2
      omega
    · rw [List.length_append, List.length_cons]
      omega
    · omega

variable {before : Option CodePoint}

theorem numberedOptions_start :
    numberedOptions u none i text = numberedOptions u (some lf) i text := by
  rw [numberedOptions, finditer_start optionParse_anchored, numberedOptions]

/-- A row without a number of its own does not change what is found. -/
theorem numberedOptions_line (bare : lf ∉ row) (plain : isEntry u row = false) :
    numberedOptions u (some lf) i (row ++ lf :: t) =
      numberedOptions u (some lf) (i + (row.length + 1)) t := by
  cases found : optionParsePattern u (some lf) (row ++ lf :: t) with
  | none =>
    rw [numberedOptions, finditer_line optionParse_anchored bare found, numberedOptions]
    rfl
  | some match' =>
    obtain ⟨n, m⟩ := match'
    obtain ⟨n', m', found', rfl, inside, offset, id, label⟩ := optionParse_line plain found
    have inside' : row.length + 1 + n' + 1 ≤ (row ++ lf :: t).length := by
      rw [List.length_append, List.length_cons]
      omega
    -- Both matches end at one place.
    have rest : (row ++ lf :: t).drop (row.length + 1 + n' + 1) = t.drop (n' + 1) := by
      rw [show row.length + 1 + n' + 1 = row.length + (n' + 1 + 1) by omega, ← List.drop_drop,
        List.drop_left, List.drop_succ_cons]
    have last : ((row ++ lf :: t).take (row.length + 1 + n' + 1)).getLast? =
        (t.take (n' + 1)).getLast? := by
      have some' : (t.take (n' + 1)) ≠ [] := List.ne_nil_of_length_pos (by
        rw [List.length_take]
        omega)
      rw [show row.length + 1 + n' + 1 = row.length + (n' + 1 + 1) by omega, List.take_length_add_append,
        List.take_succ_cons, List.getLast?_append_of_ne_nil _ (List.cons_ne_nil _ _),
        List.getLast?_cons]
      obtain ⟨c, more, taken⟩ := List.exists_cons_of_ne_nil some'
      rw [taken, List.getLast?_cons]
      rfl
    have whole : optionParsePattern u (some lf) (row ++ lf :: t) =
        some (row.length + 1 + n' + 1, m) := found
    rw [numberedOptions, numberedOptions, finditer_match whole inside', finditer_match found' inside,
      rest, last, List.map_cons, List.map_cons, offset, id, label,
      show i + (row.length + 1 + n' + 1) = i + (row.length + 1) + (n' + 1) by omega,
      show i + (row.length + 1 + m'.offset) = i + (row.length + 1) + m'.offset by omega]

/-- An entry of the row is found where it is. -/
theorem numberedOptions_entry (entry : isEntry u row = true) (filled : ∃ c ∈ t, c.isSpace = false) :
    ∃ found ∈ numberedOptions u (some lf) i (row ++ lf :: t), found.1 < i + row.length := by
  unfold isEntry at entry
  split at entry
  next head own =>
    have here := numberHead_row (t := lf :: t) own
    obtain ⟨solid, behind⟩ := Option.isSome_iff_exists.mp (solidBehind_spaced entry filled)
    have found := optionParse_of here behind
    have short := length_solid here behind
    have inside := labelEnd_le solid
    obtain ⟨n, size⟩ : ∃ n, (row ++ lf :: t).length - solid.length + labelEnd solid = n + 1 :=
      ⟨(row ++ lf :: t).length - solid.length + labelEnd solid - 1, by omega⟩
    rw [size] at found
    rw [numberedOptions, finditer_match found (by omega), List.map_cons]
    refine ⟨_, List.mem_cons_self .., ?_⟩
    obtain ⟨lead, gap, heads⟩ := heads_of_numberHead own
    have lengths := congrArg List.length heads.whole
    have filled' := List.length_pos_iff.mpr heads.filled
    have place := heads.offset
    simp only [List.length_append] at lengths
    dsimp only
    omega
  next => cases entry

/-! ### Scrollback and block -/

variable {above block : List Text}

/-- A frame that shows the block under the scrollback. -/
def frameOf (above block : List Text) : Text := joinRows (above ++ block)

/-- Rows that are no numbered entries leave the options of the block as they are. -/
theorem numberedOptions_block (bare : ∀ row ∈ above, lf ∉ row)
    (plain : ∀ row ∈ above, isEntry u row = false) (filled : block ≠ []) :
    numberedOptions u (some lf) i (frameOf above block) =
      numberedOptions u (some lf) (i + Lines.start above above.length) (joinRows block) := by
  induction above generalizing i with
  | nil => rfl
  | cons row rest ih =>
    have more : rest ++ block ≠ [] := List.append_ne_nil_of_right_ne_nil _ filled
    rw [frameOf, List.cons_append, joinRows, Lines.intercalate_cons more,
      numberedOptions_line (bare row (by simp)) (plain row (by simp)), List.length_cons,
      Lines.start_cons]
    have later := ih (i := i + (row.length + 1)) (fun r inside => bare r (by simp [inside]))
      fun r inside => plain r (by simp [inside])
    rwa [Nat.add_assoc i] at later

/-- The first entry of the scrollback is found. -/
theorem numberedOptions_above (bare : ∀ row ∈ above, lf ∉ row)
    (entry : ∃ row ∈ above, isEntry u row = true) (filled : ∃ c ∈ joinRows block, c.isSpace = false) :
    ∃ found ∈ numberedOptions u (some lf) i (frameOf above block),
      found.1 < i + Lines.start above above.length := by
  obtain ⟨c, inside, solid⟩ := filled
  have filled : block ≠ [] := by
    rintro rfl
    cases inside
  induction above generalizing i with
  | nil =>
    obtain ⟨row, inside, -⟩ := entry
    cases inside
  | cons row rest ih =>
    have more : rest ++ block ≠ [] := List.append_ne_nil_of_right_ne_nil _ filled
    rw [frameOf, List.cons_append, joinRows, Lines.intercalate_cons more, List.length_cons,
      Lines.start_cons]
    cases here : isEntry u row with
    | true =>
      have later : c ∈ List.intercalate [lf] (rest ++ block) := by
        by_cases alone : rest = []
        · rwa [alone]
        · rw [Lines.intercalate_append alone filled]
          exact List.mem_append_right _ (List.mem_cons_of_mem _ inside)
      obtain ⟨found, member, before⟩ := numberedOptions_entry (i := i) here ⟨c, later, solid⟩
      exact ⟨found, member, by omega⟩
    | false =>
      rw [numberedOptions_line (bare row (by simp)) here]
      obtain ⟨row', among, entry'⟩ := entry
      rcases List.mem_cons.mp among with rfl | behind
      · rw [here] at entry'
        cases entry'
      · obtain ⟨found, member, before⟩ :=
          ih (i := i + (row.length + 1)) (fun r inside => bare r (by simp [inside]))
            ⟨row', behind, entry'⟩
        exact ⟨found, member, by omega⟩

end

end Nelix.Daemon
