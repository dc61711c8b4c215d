import Nelix.Core.TomlDocuments

/-!
# Writing an executor's table

What is written for one executor, and how TOML reads it. The name is written as it is; the texts are quoted,
but not every control character is escaped.

## Main results

`readLines_block`: a bare name and texts without other control characters are read back.

`readLines_block_unclean`: a text with another control character makes the table unreadable.
-/
namespace Nelix.Cli
open Core Core.Toml Core.Scanner

/-! ### The writer -/

/-- `value.replace(c, s)` -/
def replaceChar (c : Char) (s : List Char) (value : List Char) : List Char :=
  value.flatMap fun d => if d = c then s else [d]

/-- `_string` -/
def emitString (value : List Char) : List Char :=
  let escaped := replaceChar '"' ['\\', '"'] (replaceChar '\\' ['\\', '\\'] value)
  let escaped := replaceChar '\r' ['\\', 'r'] (replaceChar '\t' ['\\', 't'] (replaceChar '\n' ['\\', 'n'] escaped))
  '"' :: escaped ++ ['"']

/-- `_array` -/
def emitArray (values : List (List Char)) : List Char :=
  '[' :: [',', ' '].intercalate (values.map emitString) ++ [']']

/-- `_table` -/
def emitTable (mapping : List (List Char × List Char)) : List Char :=
  ['{', ' '] ++ [',', ' '].intercalate (mapping.map fun kv => kv.1 ++ [' ', '=', ' '] ++ emitString kv.2) ++ [' ', '}']

/-- What an executor's table is written from. -/
structure EmittedSpec where
  command : Option (List Char) := none
  driver : Option (List Char) := none
  launcher : Option (List Char) := none
  args : List (List Char) := []
  env : List (List Char × List Char) := []

def emitLine (key : String) (value : List Char) : List Char := key.toList ++ [' ', '=', ' '] ++ value

def executorLines (name : List Char) (spec : EmittedSpec) : List (List Char) :=
  ["[executors.".toList ++ name ++ [']']] ++
    (spec.command.map fun text => emitLine "command" (emitString text)).toList ++
    (spec.driver.map fun text => emitLine "driver" (emitString text)).toList ++
    (spec.launcher.map fun text => emitLine "launcher" (emitString text)).toList ++
    (if spec.args = [] then [] else [emitLine "args" (emitArray spec.args)]) ++
    (if spec.env = [] then [] else [emitLine "env" (emitTable spec.env)])

/-- `executor_table` -/
def executorTable (name : List Char) (spec : EmittedSpec) : List Char :=
  ['\n'].intercalate (executorLines name spec) ++ ['\n']

/-! ### What is read back -/

section Strings
variable {σ : Type} {words : Words σ} {n m : ℕ} {c : Char} {s t : List Char}

/-- A text without control characters other than those that are escaped. -/
def IsClean (s : List Char) : Prop := ∀ c ∈ s, isControl c = true → c = '\n' ∨ c = '\t' ∨ c = '\r'

/-- How a character is written. -/
def escapeChar (c : Char) : List Char :=
  if c = '\\' then ['\\', '\\']
  else if c = '"' then ['\\', '"']
  else if c = '\n' then ['\\', 'n']
  else if c = '\t' then ['\\', 't']
  else if c = '\r' then ['\\', 'r']
  else [c]

theorem emitString_eq (value : List Char) : emitString value = '"' :: value.flatMap escapeChar ++ ['"'] := by
  have each : ∀ c, replaceChar '\r' ['\\', 'r'] (replaceChar '\t' ['\\', 't'] (replaceChar '\n' ['\\', 'n']
      (replaceChar '"' ['\\', '"'] (replaceChar '\\' ['\\', '\\'] [c])))) = escapeChar c := by
    intro c
    unfold escapeChar
    split_ifs with slash quote line tab ret
    · subst slash; decide
    · subst quote; decide
    · subst line; decide
    · subst tab; decide
    · subst ret; decide
    · simp [replaceChar, slash, quote, line, tab, ret]
  have append : ∀ c s (a b : List Char), replaceChar c s (a ++ b) = replaceChar c s a ++ replaceChar c s b :=
    fun c s a b => List.flatMap_append
  have all : replaceChar '\r' ['\\', 'r'] (replaceChar '\t' ['\\', 't'] (replaceChar '\n' ['\\', 'n']
      (replaceChar '"' ['\\', '"'] (replaceChar '\\' ['\\', '\\'] value)))) = value.flatMap escapeChar := by
    induction value with
    | nil => rfl
    | cons c value ih =>
      rw [List.flatMap_cons, ← each c, ← ih, ← append, ← append, ← append, ← append, ← append]
      rfl
  rw [emitString, all]

/-- One piece of a string and what follows it. -/
theorem stringBody_piece {r : List Char} {piece : List Char} (other : c ≠ '"') (plain : c ≠ '\r')
    (read : stringPiece '"' false c r = some (piece, t)) :
    stringBody '"' false (n + 1) 0 (c :: r) =
      (stringBody '"' false n 0 t).map fun rest => (piece ++ rest.1, rest.2) := by
  rw [stringBody, bind_of_some (item_eq_some.mpr ⟨plain, rfl⟩), if_neg other, bind_of_some read]
  cases rest : stringBody '"' false n 0 t with
  | none => rw [bind_of_none rest, Option.map_none]
  | some x =>
    rw [bind_of_some rest]
    rfl

/-- An escaped character is read as it was. -/
theorem stringBody_escapeChar (clean : isControl c = true → c = '\n' ∨ c = '\t' ∨ c = '\r') :
    stringBody '"' false (n + 1) 0 (escapeChar c ++ t) =
      (stringBody '"' false n 0 t).map fun rest => ([c] ++ rest.1, rest.2) := by
  unfold escapeChar
  split_ifs with slash quote line tab ret
  · subst slash
    exact stringBody_piece (by decide) (by decide) rfl
  · subst quote
    exact stringBody_piece (by decide) (by decide) rfl
  · subst line
    exact stringBody_piece (by decide) (by decide) rfl
  · subst tab
    exact stringBody_piece (by decide) (by decide) rfl
  · subst ret
    exact stringBody_piece (by decide) (by decide) rfl
  · refine stringBody_piece quote ret ?_
    have shown : isShown c = true := by
      cases control : isControl c with
      | false => simp [isShown, control]
      | true =>
        rcases clean control with h | h | h
        · exact absurd h line
        · exact absurd h tab
        · exact absurd h ret
    rw [stringPiece, if_neg (fun both => slash both.1), if_pos (.inl shown)]
    rfl

/-- A clean text is read back. -/
theorem stringBody_escaped (clean : IsClean s) (enough : s.length < n) :
    stringBody '"' false n 0 (s.flatMap escapeChar ++ '"' :: t) = some (s, t) := by
  induction s generalizing n with
  | nil =>
    obtain ⟨n, rfl⟩ := Nat.exists_eq_succ_of_ne_zero (Nat.ne_zero_of_lt enough)
    rfl
  | cons c s ih =>
    obtain ⟨n, rfl⟩ := Nat.exists_eq_succ_of_ne_zero (Nat.ne_zero_of_lt enough)
    have rest := ih (fun d member => clean d (List.mem_cons_of_mem _ member)) (Nat.lt_of_succ_lt_succ enough)
    rw [List.flatMap_cons, List.append_assoc, stringBody_escapeChar (clean c List.mem_cons_self), rest]
    rfl

/-- What follows a value is no quote. -/
def Unquoted (t : List Char) : Prop := t.headD '\n' ≠ '"'

theorem unquoted_cons (other : c ≠ '"') : Unquoted (c :: t) := other

theorem peek_apply : peek s = some (s.headD '\n', s) := rfl

theorem peek_cons : peek (c :: t) = some (c, c :: t) := rfl

theorem exactly_apply (plain : c ≠ '\r') : exactly c (c :: t) = some ((), t) := by
  rw [exactly, bind_of_some (item_eq_some.mpr ⟨plain, rfl⟩), if_pos rfl]
  rfl

theorem escapeChar_head : ∃ d r, escapeChar c = d :: r ∧ d ≠ '"' := by
  unfold escapeChar
  split_ifs with slash quote line tab ret
  · exact ⟨_, _, rfl, by decide⟩
  · exact ⟨_, _, rfl, by decide⟩
  · exact ⟨_, _, rfl, by decide⟩
  · exact ⟨_, _, rfl, by decide⟩
  · exact ⟨_, _, rfl, by decide⟩
  · exact ⟨_, _, rfl, quote⟩

theorem quoted_emitString (clean : IsClean s) (enough : s.length < n) (unquoted : Unquoted t) :
    quoted n '"' (emitString s ++ t) = some (String.ofList s, t) := by
  have start : emitString s ++ t = '"' :: (s.flatMap escapeChar ++ '"' :: t) := by simp [emitString_eq]
  rw [start, quoted, bind_of_some (exactly_apply (by decide)), bind_of_some peek_apply]
  cases s with
  | nil =>
    have first : ([].flatMap escapeChar ++ '"' :: t).headD '\n' = '"' := rfl
    rw [if_pos first, List.flatMap_nil, List.nil_append, bind_of_some (exactly_apply (by decide)),
      bind_of_some peek_apply, if_neg unquoted]
    rfl
  | cons d s =>
    obtain ⟨e, r, written, other⟩ := escapeChar_head (c := d)
    have first : ((d :: s).flatMap escapeChar ++ '"' :: t).headD '\n' = e := by
      rw [List.flatMap_cons, written]
      rfl
    rw [if_neg (by rw [first]; exact other), bind_of_some (stringBody_escaped clean enough)]
    rfl

theorem value_emitString (clean : IsClean s) (enough : s.length < n) (unquoted : Unquoted t) :
    value words (n + 1) (emitString s ++ t) = some (.string (String.ofList s), t) := by
  have start : (emitString s ++ t).headD '\n' = '"' := by
    rw [emitString]
    rfl
  rw [value, bind_of_some peek_apply, start, if_pos (by decide),
    bind_of_some (quoted_emitString clean enough unquoted)]
  rfl

/-! ### Arrays -/

/-- Behind the comma and the blank a quote opens the next text. -/
theorem emitted_cons (text next : List Char) (texts : List (List Char)) :
    ∃ rest, [',', ' '].intercalate ((text :: next :: texts).map emitString) ++ ']' :: t =
        emitString text ++ ',' :: ' ' :: '"' :: rest ∧
      [',', ' '].intercalate ((next :: texts).map emitString) ++ ']' :: t = '"' :: rest := by
  obtain ⟨rest, opens⟩ : ∃ rest, [',', ' '].intercalate ((next :: texts).map emitString) ++ ']' :: t = '"' :: rest := by
    cases texts <;> simp [List.intercalate, emitString]
  refine ⟨rest, ?_, opens⟩
  rw [← opens]
  simp [List.intercalate]

theorem emitArray_cons (text : List Char) (texts : List (List Char)) :
    ∃ rest, emitArray (text :: texts) ++ t = '[' :: '"' :: rest ∧
      [',', ' '].intercalate ((text :: texts).map emitString) ++ ']' :: t = '"' :: rest := by
  obtain ⟨rest, opens⟩ : ∃ rest, [',', ' '].intercalate ((text :: texts).map emitString) ++ ']' :: t = '"' :: rest := by
    cases texts <;> simp [List.intercalate, emitString]
  refine ⟨rest, ?_, opens⟩
  rw [emitArray, ← opens]
  simp

theorem arrayItems_emitString {texts : List (List Char)} {text : List Char} (items : List (Toml σ)) {k : ℕ}
    (clean : ∀ s ∈ text :: texts, IsClean s) (enough : ∀ s ∈ text :: texts, s.length < k)
    (steps : texts.length < n) :
    arrayItems (value words (k + 1)) n items
        ([',', ' '].intercalate ((text :: texts).map emitString) ++ ']' :: t) =
      some (items ++ (text :: texts).map fun s => .string (String.ofList s), t) := by
  induction texts generalizing n text items with
  | nil =>
    obtain ⟨n, rfl⟩ := Nat.exists_eq_succ_of_ne_zero (Nat.ne_zero_of_lt steps)
    have first : value words (k + 1) (emitString text ++ ']' :: t) =
        some (.string (String.ofList text), ']' :: t) :=
      value_emitString (clean text List.mem_cons_self) (enough text List.mem_cons_self)
        (unquoted_cons (by decide))
    have alone : [',', ' '].intercalate ([text].map emitString) = emitString text := by simp [List.intercalate]
    rw [alone, arrayItems, bind_of_some first]
    rfl
  | cons next texts ih =>
    obtain ⟨n, rfl⟩ := Nat.exists_eq_succ_of_ne_zero (Nat.ne_zero_of_lt steps)
    obtain ⟨rest, more, opens⟩ := emitted_cons (t := t) text next texts
    have later := ih (items ++ [.string (String.ofList text)])
      (fun s member => clean s (List.mem_cons_of_mem _ member))
      (fun s member => enough s (List.mem_cons_of_mem _ member)) (Nat.lt_of_succ_lt_succ steps)
    rw [opens] at later
    have first : value words (k + 1) (emitString text ++ ',' :: ' ' :: '"' :: rest) =
        some (.string (String.ofList text), ',' :: ' ' :: '"' :: rest) :=
      value_emitString (clean text List.mem_cons_self) (enough text List.mem_cons_self)
        (unquoted_cons (by decide))
    rw [more, arrayItems, bind_of_some first]
    show arrayItems (value words (k + 1)) n (items ++ [.string (String.ofList text)]) ('"' :: rest) = _
    rw [later]
    simp

theorem value_emitArray {texts : List (List Char)} (some_ : texts ≠ []) (clean : ∀ s ∈ texts, IsClean s)
    (enough : ∀ s ∈ texts, s.length < n) (steps : texts.length ≤ n) :
    value words (n + 2) (emitArray texts ++ t) =
      some (.array (texts.map fun s => .string (String.ofList s)), t) := by
  cases texts with
  | nil => exact absurd rfl some_
  | cons text texts =>
    have read : arrayItems (value words (n + 1)) (n + 1) []
        ([',', ' '].intercalate ((text :: texts).map emitString) ++ ']' :: t) =
          some ([] ++ (text :: texts).map fun s => .string (String.ofList s), t) :=
      arrayItems_emitString [] clean enough (Nat.lt_succ_of_le (Nat.le_of_succ_le steps))
    obtain ⟨rest, start, opens⟩ := emitArray_cons (t := t) text texts
    rw [opens] at read
    rw [start, value, bind_of_some peek_apply]
    have whole : arrayOf (value words (n + 1)) (n + 1) ('[' :: '"' :: rest) =
        some ([] ++ (text :: texts).map fun s => .string (String.ofList s), t) := read
    show (arrayOf (value words (n + 1)) (n + 1) >>= fun items => pure (Toml.array items)) ('[' :: '"' :: rest) = _
    rw [bind_of_some whole]
    rfl

/-! ### Texts with another control character -/

theorem stringBody_unclean (unclean : ¬ IsClean s) : stringBody '"' false n 0 (s.flatMap escapeChar ++ t) = none := by
  induction s generalizing n with
  | nil => exact absurd nofun unclean
  | cons c s ih =>
    cases n with
    | zero => rfl
    | succ n =>
      rw [List.flatMap_cons, List.append_assoc]
      by_cases clean : isControl c = true → c = '\n' ∨ c = '\t' ∨ c = '\r'
      · have rest : ¬ IsClean s := fun all => unclean (List.forall_mem_cons.mpr ⟨clean, all⟩)
        rw [stringBody_escapeChar clean, ih rest, Option.map_none]
      · -- the character is written as it is
        push Not at clean
        obtain ⟨control, line, tab, ret⟩ := clean
        have slash : c ≠ '\\' := by
          rintro rfl
          exact absurd control (by decide)
        have quote : c ≠ '"' := by
          rintro rfl
          exact absurd control (by decide)
        have hidden : isShown c = false := by simp [isShown, control, tab]
        have written : escapeChar c = [c] := by simp [escapeChar, slash, quote, line, tab, ret]
        have failed : ∀ r, stringPiece '"' false c r = none := by
          intro r
          rw [stringPiece, if_neg (fun both => slash both.1), if_neg (by simp [hidden])]
          rfl
        rw [written, List.singleton_append, stringBody, bind_of_some (item_eq_some.mpr ⟨ret, rfl⟩), if_neg quote,
          bind_of_none (failed _)]

theorem value_unclean (unclean : ¬ IsClean s) : value words (n + 1) (emitString s ++ t) = none := by
  have start : emitString s ++ t = '"' :: (s.flatMap escapeChar ++ '"' :: t) := by simp [emitString_eq]
  have failed : quoted n '"' (emitString s ++ t) = none := by
    rw [start, quoted, bind_of_some (exactly_apply (by decide)), bind_of_some peek_apply]
    cases s with
    | nil => exact absurd nofun unclean
    | cons d s =>
      obtain ⟨e, r, written, other⟩ := escapeChar_head (c := d)
      have first : ((d :: s).flatMap escapeChar ++ '"' :: t).headD '\n' = e := by
        rw [List.flatMap_cons, written]
        rfl
      rw [if_neg (by rw [first]; exact other), bind_of_none (stringBody_unclean unclean)]
  have first : (emitString s ++ t).headD '\n' = '"' := by
    rw [start]
    rfl
  rw [value, bind_of_some peek_apply, first, if_pos (by decide), bind_of_none failed]

theorem arrayItems_unclean {texts : List (List Char)} {text : List Char} (items : List (Toml σ)) {k : ℕ}
    (unclean : ∃ s ∈ text :: texts, ¬ IsClean s) (enough : ∀ s ∈ text :: texts, s.length < k) :
    arrayItems (value words (k + 1)) n items
        ([',', ' '].intercalate ((text :: texts).map emitString) ++ ']' :: t) = none := by
  induction texts generalizing n text items with
  | nil =>
    cases n with
    | zero => rfl
    | succ n =>
      obtain ⟨s, member, bad⟩ := unclean
      obtain rfl := List.mem_singleton.mp member
      have alone : [',', ' '].intercalate ([s].map emitString) = emitString s := by simp [List.intercalate]
      rw [alone, arrayItems, bind_of_none (value_unclean bad)]
  | cons next texts ih =>
    cases n with
    | zero => rfl
    | succ n =>
      obtain ⟨rest, more, later⟩ := emitted_cons (t := t) text next texts
      rw [more, arrayItems]
      by_cases clean : IsClean text
      · have first : value words (k + 1) (emitString text ++ ',' :: ' ' :: '"' :: rest) =
            some (.string (String.ofList text), ',' :: ' ' :: '"' :: rest) :=
          value_emitString clean (enough text List.mem_cons_self) (unquoted_cons (by decide))
        have others : ∃ s ∈ next :: texts, ¬ IsClean s := by
          obtain ⟨s, member, bad⟩ := unclean
          rcases List.mem_cons.mp member with rfl | among
          · exact absurd clean bad
          · exact ⟨s, among, bad⟩
        rw [bind_of_some first]
        show arrayItems (value words (k + 1)) n (items ++ [.string (String.ofList text)]) ('"' :: rest) = none
        rw [← later]
        exact ih _ others fun s member => enough s (List.mem_cons_of_mem _ member)
      · rw [bind_of_none (value_unclean clean)]

theorem value_array_unclean {texts : List (List Char)} (unclean : ∃ s ∈ texts, ¬ IsClean s)
    (enough : ∀ s ∈ texts, s.length < n) : value words (n + 2) (emitArray texts ++ t) = none := by
  cases texts with
  | nil =>
    obtain ⟨s, member, -⟩ := unclean
    cases member
  | cons text texts =>
    obtain ⟨rest, start, opens⟩ := emitArray_cons (t := t) text texts
    have failed : arrayItems (value words (n + 1)) (n + 1) [] ('"' :: rest) = none := by
      rw [← opens]
      exact arrayItems_unclean [] unclean enough
    have whole : arrayOf (value words (n + 1)) (n + 1) ('[' :: '"' :: rest) = none := failed
    rw [start, value, bind_of_some peek_apply]
    show (arrayOf (value words (n + 1)) (n + 1) >>= fun items => pure (Toml.array items)) ('[' :: '"' :: rest) = _
    rw [bind_of_none whole]

/-! ### Keys -/

theorem span_apply {kind : Char → Bool} {k : List Char} (line : kind '\n' = false)
    (all : ∀ d ∈ k, kind d = true) (stop : kind (t.headD '\n') = false) : span kind (k ++ t) = some (k, t) := by
  have stops : ∀ d ∈ t.head?, kind d = false := by
    intro d first
    cases t with
    | nil => cases first
    | cons e t =>
      obtain rfl := Option.some.inj first
      exact stop
  obtain ⟨taken, left⟩ := takeWhile_elsewhere line all stops rfl
  rw [span, taken, left]

theorem skipWs_apply (stop : isWs (t.headD '\n') = false) : skipWs t = some ((), t) := by
  have none : span isWs t = some ([], t) := span_apply (k := []) (by decide) nofun stop
  rw [skipWs, bind_of_some none]
  rfl

theorem skipWs_blank (stop : isWs (t.headD '\n') = false) : skipWs (' ' :: t) = some ((), t) := by
  have one : span isWs (' ' :: t) = some ([' '], t) := span_apply (k := [' ']) (by decide) (List.forall_mem_singleton.mpr rfl) stop
  rw [skipWs, bind_of_some one]
  rfl

/-- A name that needs no quotes. -/
def IsBareName (name : List Char) : Prop := name ≠ [] ∧ ∀ c ∈ name, isBare c = true

theorem keyPart_bare {name : List Char} (bare : IsBareName name) (stop : isBare (t.headD '\n') = false) :
    keyPart n (name ++ t) = some (String.ofList name, t) := by
  obtain ⟨some_, all⟩ := bare
  have first : isBare ((name ++ t).headD '\n') = true := by
    cases name with
    | nil => exact absurd rfl some_
    | cons d name => exact all d List.mem_cons_self
  rw [keyPart, bind_of_some peek_apply, if_pos first, bind_of_some (span_apply (by decide) all stop)]
  rfl

theorem keyRest_end {parents : List String} {stem : String} (other : c ≠ '.') :
    keyRest (n + 1) parents stem (c :: t) = some (⟨parents, stem⟩, c :: t) := by
  rw [keyRest, bind_of_some peek_cons, if_neg other]
  rfl

/-! ### Lines -/

theorem isBare_ne_blank {d : Char} (bare : isBare d = true) : isWs d = false := by
  cases blank : isWs d with
  | false => rfl
  | true =>
    have cases_ : d = ' ' ∨ d = '\t' := by simpa [isWs] using blank
    rcases cases_ with rfl | rfl
    · exact absurd bare (by decide)
    · exact absurd bare (by decide)

/-- What comes behind a statement that is alone on its line. -/
theorem line_statement {found : Option (Statement σ)} (start : isWs (s.headD '\n') = false)
    (read : statement words n s = some (found, '\n' :: t)) : line words n s = some (found, '\n' :: t) := by
  have after : skipWs ('\n' :: t) = some ((), '\n' :: t) := skipWs_apply (by rfl)
  rw [line, bind_of_some (skipWs_apply start), bind_of_some read, bind_of_some after]
  rfl

/-- A line is as good as the value in it. -/
theorem line_emitLine (words : Words σ) (t : List Char) (n : ℕ) {key : String} {v : List Char} (bare : IsBareName key.toList)
    (start : isWs (v.headD '\n') = false) (some_ : v ≠ []) :
    isWs ((emitLine key v ++ '\n' :: t).headD '\n') = false ∧
      statement words (n + 1) (emitLine key v ++ '\n' :: t) =
        (value words (n + 1) (v ++ '\n' :: t)).map fun x => (some (.keyValue ⟨[], key⟩ x.1), x.2) := by
  have whole : emitLine key v ++ '\n' :: t = key.toList ++ ' ' :: '=' :: ' ' :: (v ++ '\n' :: t) := by
    simp [emitLine]
  have first : isBare ((key.toList ++ ' ' :: '=' :: ' ' :: (v ++ '\n' :: t)).headD '\n') = true := by
    obtain ⟨d, name, named⟩ := List.exists_cons_of_ne_nil bare.1
    rw [named]
    exact bare.2 d (by simp [named])
  have visible : isWs ((v ++ '\n' :: t).headD '\n') = false := by
    obtain ⟨d, rest, filled⟩ := List.exists_cons_of_ne_nil some_
    rw [filled] at start ⊢
    exact start
  have equals : isWs (('=' :: ' ' :: (v ++ '\n' :: t)).headD '\n') = false := rfl
  have named : Toml.key (n + 1) (key.toList ++ ' ' :: '=' :: ' ' :: (v ++ '\n' :: t)) =
      some (⟨[], key⟩, '=' :: ' ' :: (v ++ '\n' :: t)) := by
    rw [Toml.key, bind_of_some (keyPart_bare bare (by rfl)), bind_of_some (skipWs_blank equals), String.ofList_toList]
    exact keyRest_end (by decide)
  have pair : keyValue (n + 1) (value words (n + 1)) (key.toList ++ ' ' :: '=' :: ' ' :: (v ++ '\n' :: t)) =
      (value words (n + 1) (v ++ '\n' :: t)).map fun x => ((⟨[], key⟩, x.1), x.2) := by
    rw [keyValue, bind_of_some named, bind_of_some (exactly_apply (by decide)), bind_of_some (skipWs_blank visible)]
    cases read : value words (n + 1) (v ++ '\n' :: t) with
    | none => rw [bind_of_none read, Option.map_none]
    | some x =>
      rw [bind_of_some read]
      rfl
  rw [whole]
  refine ⟨isBare_ne_blank first, ?_⟩
  rw [statement, bind_of_some peek_apply, if_pos (.inl first)]
  cases read : value words (n + 1) (v ++ '\n' :: t) with
  | none =>
    rw [read, Option.map_none] at pair
    rw [bind_of_none pair, Option.map_none]
  | some x =>
    rw [read, Option.map_some] at pair
    rw [bind_of_some pair]
    rfl

theorem reads_emitLine {key : String} {v : List Char} {x : Toml σ} (bare : IsBareName key.toList)
    (start : isWs (v.headD '\n') = false) (some_ : v ≠ [])
    (read : ∀ t m, n ≤ m → value words (m + 1) (v ++ '\n' :: t) = some (x, '\n' :: t)) :
    (tomlLines words).Reads (emitLine key v) (some (.keyValue ⟨[], key⟩ x)) := by
  refine ⟨n + 1, fun t m enough => ?_⟩
  obtain ⟨m, rfl⟩ := Nat.exists_eq_succ_of_ne_zero (Nat.ne_zero_of_lt enough)
  obtain ⟨visible, found⟩ := line_emitLine words t m bare start some_
  refine line_statement visible ?_
  rw [found, read t m (Nat.le_of_succ_le_succ enough), Option.map_some]

theorem rejects_emitLine {key : String} {v : List Char} (bare : IsBareName key.toList)
    (start : isWs (v.headD '\n') = false) (some_ : v ≠ [])
    (failed : ∀ t m, n ≤ m → value words (m + 1) (v ++ '\n' :: t) = none) :
    (tomlLines words).Rejects (emitLine key v) := by
  refine ⟨n + 1, fun t m enough => ?_⟩
  obtain ⟨m, rfl⟩ := Nat.exists_eq_succ_of_ne_zero (Nat.ne_zero_of_lt enough)
  obtain ⟨visible, found⟩ := line_emitLine words t m bare start some_
  have none : statement words (m + 1) (emitLine key v ++ '\n' :: t) = none := by
    rw [found, failed t m (Nat.le_of_succ_le_succ enough), Option.map_none]
  show line words (m + 1) (emitLine key v ++ '\n' :: t) = _
  rw [line, bind_of_some (skipWs_apply visible), bind_of_none none]

theorem line_header {name : List Char} (bare : IsBareName name) :
    line words (n + 2) ("[executors.".toList ++ name ++ [']'] ++ '\n' :: t) =
      some (some (.header ⟨["executors"], String.ofList name⟩), '\n' :: t) := by
  have whole : "[executors.".toList ++ name ++ [']'] ++ '\n' :: t =
      '[' :: ("executors".toList ++ '.' :: (name ++ ']' :: '\n' :: t)) := by
    simp [show "[executors.".toList = '[' :: ("executors".toList ++ ['.']) from rfl]
  obtain ⟨d, name', named⟩ := List.exists_cons_of_ne_nil bare.1
  have first : isWs ((name ++ ']' :: '\n' :: t).headD '\n') = false := by
    rw [named]
    exact isBare_ne_blank (bare.2 d (by simp [named]))
  have executors : keyPart (n + 2) ("executors".toList ++ '.' :: (name ++ ']' :: '\n' :: t)) =
      some ("executors", '.' :: (name ++ ']' :: '\n' :: t)) :=
    keyPart_bare ⟨by decide, List.all_eq_true.mp (by decide)⟩ (by rfl)
  have rest : keyRest (n + 2) [] "executors" ('.' :: (name ++ ']' :: '\n' :: t)) =
      some (⟨["executors"], String.ofList name⟩, ']' :: '\n' :: t) := by
    rw [keyRest, bind_of_some peek_cons, if_pos rfl, bind_of_some (exactly_apply (by decide)),
      bind_of_some (skipWs_apply first), bind_of_some (keyPart_bare bare (by rfl)),
      bind_of_some (skipWs_apply (by rfl))]
    exact keyRest_end (by decide)
  have key_ : Toml.key (n + 2) ("executors".toList ++ '.' :: (name ++ ']' :: '\n' :: t)) =
      some (⟨["executors"], String.ofList name⟩, ']' :: '\n' :: t) := by
    rw [Toml.key, bind_of_some executors, bind_of_some (skipWs_apply (by rfl))]
    exact rest
  have read : header (n + 2) ('[' :: ("executors".toList ++ '.' :: (name ++ ']' :: '\n' :: t))) =
      some ((.header ⟨["executors"], String.ofList name⟩ : Statement σ), '\n' :: t) := by
    have start : "executors".toList ++ '.' :: (name ++ ']' :: '\n' :: t) =
        'e' :: ("xecutors".toList ++ '.' :: (name ++ ']' :: '\n' :: t)) := rfl
    rw [header, bind_of_some (exactly_apply (by decide)), start, bind_of_some peek_cons, if_neg (by decide), ← start,
      bind_of_some (skipWs_apply (by rfl)), bind_of_some key_, bind_of_some (exactly_apply (by decide))]
    rfl
  rw [whole]
  refine line_statement (by rfl) ?_
  rw [statement, bind_of_some peek_cons, if_neg (by decide), if_pos rfl, bind_of_some read]
  rfl

/-! ### The table -/

theorem intercalate_lines {lines : List (List Char)} (some_ : lines ≠ []) :
    ['\n'].intercalate lines ++ ['\n'] = lines.flatMap (· ++ ['\n']) := by
  induction lines with
  | nil => exact absurd rfl some_
  | cons c lines ih =>
    cases lines with
    | nil => simp [List.intercalate]
    | cons c' lines =>
      rw [List.flatMap_cons, ← ih (List.cons_ne_nil _ _)]
      simp [List.intercalate]

theorem reads_header {name : List Char} (bare : IsBareName name) :
    (tomlLines words).Reads ("[executors.".toList ++ name ++ [']'])
      (some (.header ⟨["executors"], String.ofList name⟩)) := by
  -- while the number of steps is a variable, nothing can be evaluated
  have read : ∀ t m, 2 ≤ m → line words m ("[executors.".toList ++ name ++ [']'] ++ '\n' :: t) =
      some (some (.header ⟨["executors"], String.ofList name⟩), '\n' :: t) := by
    intro t m enough
    obtain ⟨m, rfl⟩ : ∃ m', m = m' + 2 := ⟨m - 2, by omega⟩
    exact line_header bare
  exact ⟨2, read⟩

/-- A line that sets a text. -/
theorem reads_text (key : String) (bare : IsBareName key.toList) (clean : IsClean s) :
    (tomlLines words).Reads (emitLine key (emitString s)) (some (.keyValue ⟨[], key⟩ (.string (String.ofList s)))) := by
  refine reads_emitLine (n := s.length + 1) bare rfl (List.cons_ne_nil _ _) fun t m enough => ?_
  exact value_emitString clean enough (unquoted_cons (by decide))

theorem rejects_text (key : String) (bare : IsBareName key.toList) (unclean : ¬ IsClean s) :
    (tomlLines words).Rejects (emitLine key (emitString s)) :=
  rejects_emitLine (n := 0) bare rfl (List.cons_ne_nil _ _) fun _ _ _ => value_unclean unclean

theorem reads_args {args : List (List Char)} (some_ : args ≠ []) (clean : ∀ s ∈ args, IsClean s) :
    (tomlLines words).Reads (emitLine "args" (emitArray args))
      (some (.keyValue ⟨[], "args"⟩ (.array (args.map fun s => .string (String.ofList s))))) := by
  refine reads_emitLine (n := args.flatten.length + args.length + 2) ⟨by decide, List.all_eq_true.mp (by decide)⟩ rfl
    (List.cons_ne_nil _ _) fun t m enough => ?_
  obtain ⟨m, rfl⟩ : ∃ m', m = m' + 1 := ⟨m - 1, by omega⟩
  have short : ∀ s ∈ args, s.length < m := by
    intro s member
    have least := (List.sublist_flatten_of_mem member).length_le
    omega
  exact value_emitArray some_ clean short (by omega)

theorem rejects_args {args : List (List Char)} (unclean : ∃ s ∈ args, ¬ IsClean s) :
    (tomlLines words).Rejects (emitLine "args" (emitArray args)) := by
  refine rejects_emitLine (n := args.flatten.length + 2) ⟨by decide, List.all_eq_true.mp (by decide)⟩ rfl
    (List.cons_ne_nil _ _) fun t m enough => ?_
  obtain ⟨m, rfl⟩ : ∃ m', m = m' + 1 := ⟨m - 1, by omega⟩
  refine value_array_unclean unclean fun s member => ?_
  have least := (List.sublist_flatten_of_mem member).length_le
  omega

/-- The texts that are written. -/
structure AddTexts where
  name : List Char
  command : List Char
  driver : List Char
  launcher : List Char
  args : List (List Char)
  deriving DecidableEq

namespace AddTexts
variable (texts : AddTexts)

def values : List (List Char) := texts.command :: texts.driver :: texts.launcher :: texts.args

def block : List Char :=
  executorTable texts.name
    { command := some texts.command, driver := some texts.driver, launcher := some texts.launcher, args := texts.args }

/-- What the table defines. -/
def entries : List (String × Toml σ) :=
  [("command", .string (String.ofList texts.command)), ("driver", .string (String.ofList texts.driver)),
    ("launcher", .string (String.ofList texts.launcher))] ++
    if texts.args = [] then [] else [("args", .array (texts.args.map fun s => .string (String.ofList s)))]

def statements : List (Statement σ) :=
  .header ⟨["executors"], String.ofList texts.name⟩ :: texts.entries.map fun kv => .keyValue ⟨[], kv.1⟩ kv.2

/-- The lines of the table. -/
def lines : List (List Char) :=
  ["[executors.".toList ++ texts.name ++ [']'], emitLine "command" (emitString texts.command),
    emitLine "driver" (emitString texts.driver), emitLine "launcher" (emitString texts.launcher)] ++
    if texts.args = [] then [] else [emitLine "args" (emitArray texts.args)]

theorem block_eq : texts.block = texts.lines.flatMap (· ++ ['\n']) := by
  rw [block, executorTable, intercalate_lines (by simp [executorLines])]
  simp [executorLines, lines]

variable {texts}

theorem mem_intercalate {c : Char} {between : List Char} {parts : List (List Char)} (among : c ∈ between.intercalate parts) :
    c ∈ between ∨ ∃ part ∈ parts, c ∈ part := by
  induction parts with
  | nil => cases among
  | cons part parts ih =>
    cases parts with
    | nil => exact .inr ⟨part, List.mem_cons_self, by simpa [List.intercalate] using among⟩
    | cons next parts =>
      have split : between.intercalate (part :: next :: parts) = part ++ between ++ between.intercalate (next :: parts) := by
        simp [List.intercalate]
      rw [split, List.mem_append, List.mem_append] at among
      rcases among with (here | here) | later
      · exact .inr ⟨part, List.mem_cons_self, here⟩
      · exact .inl here
      · rcases ih later with here | ⟨other, member, inside⟩
        · exact .inl here
        · exact .inr ⟨other, List.mem_cons_of_mem _ member, inside⟩

theorem emitString_plain (value : List Char) : '\r' ∉ emitString value := by
  have each : ∀ c, '\r' ∉ escapeChar c := by
    intro c
    unfold escapeChar
    split_ifs with slash quote line tab ret
    · decide
    · decide
    · decide
    · decide
    · decide
    · simpa using Ne.symm ret
  simp [emitString_eq, each]

/-- No carriage return is written. -/
theorem block_plain (bare : IsBareName texts.name) : '\r' ∉ texts.block := by
  have name : '\r' ∉ texts.name := fun among => absurd (bare.2 _ among) (by decide)
  have array : '\r' ∉ emitArray texts.args := by
    intro among
    rw [emitArray, List.cons_append, List.mem_cons, List.mem_append] at among
    rcases among with bad | inside | bad
    · exact absurd bad (by decide)
    · rcases mem_intercalate inside with between | ⟨part, member, here⟩
      · exact absurd between (by decide)
      · obtain ⟨value, -, rfl⟩ := List.mem_map.mp member
        exact emitString_plain value here
    · exact absurd bad (by decide)
  have line : ∀ {key : String} {value : List Char}, '\r' ∉ key.toList → '\r' ∉ value → '\r' ∉ emitLine key value := by
    intro key value plain plain'
    simp [emitLine, plain, plain']
  rw [block_eq]
  intro among
  obtain ⟨c, member, inside⟩ := List.mem_flatMap.mp among
  have last : '\r' ∈ c := by simpa using inside
  rcases List.mem_append.mp member with fixed | args
  · simp only [List.mem_cons, List.not_mem_nil, or_false] at fixed
    rcases fixed with rfl | rfl | rfl | rfl
    · simp [name] at last
    · exact line (by decide) (emitString_plain _) last
    · exact line (by decide) (emitString_plain _) last
    · exact line (by decide) (emitString_plain _) last
  · split_ifs at args
    · cases args
    · obtain rfl := List.mem_singleton.mp args
      exact line (by decide) array last

theorem bareKeys : ∀ key ∈ ["command", "driver", "launcher"], IsBareName key.toList := by
  intro key among
  have bare : key.toList ≠ [] ∧ key.toList.all isBare = true := by
    revert key
    decide
  exact ⟨bare.1, List.all_eq_true.mp bare.2⟩

/-- A bare name and clean texts are read back. -/
theorem readLines_block (bare : IsBareName texts.name) (clean : ∀ s ∈ texts.values, IsClean s) :
    readLines (line words) (texts.block ++ ['\n']) = some texts.statements := by
  have text : ∀ key ∈ ["command", "driver", "launcher"], ∀ s ∈ texts.values,
      (tomlLines words).Reads (emitLine key (emitString s)) (some (.keyValue ⟨[], key⟩ (.string (String.ofList s)))) :=
    fun key among s member => reads_text key (bareKeys key among) (clean s member)
  have last : List.Forall₂ (fun c a => (tomlLines words).Reads c (some a))
      (if texts.args = [] then [] else [emitLine "args" (emitArray texts.args)])
      ((if texts.args = [] then [] else
        [("args", .array (texts.args.map fun s => .string (String.ofList s)))]).map
          fun kv : String × Toml σ => .keyValue ⟨[], kv.1⟩ kv.2) := by
    split_ifs with none
    · exact .nil
    · exact .cons (reads_args none fun s member => clean s (by simp [values, member])) .nil
  have each : List.Forall₂ (fun c a => (tomlLines words).Reads c (some a)) texts.lines texts.statements := by
    rw [statements, entries, List.map_append]
    exact .cons (reads_header bare) (.cons (text "command" (by simp) _ (by simp [values]))
      (.cons (text "driver" (by simp) _ (by simp [values]))
        (.cons (text "launcher" (by simp) _ (by simp [values])) last)))
  have read := readLines_lines each ['\n']
  rw [show readLines (tomlLines words).one ['\n'] = some [] from rfl, Option.map_some, List.append_nil] at read
  rw [block_eq]
  exact read

/-- A text with another control character is not read. -/
theorem readLines_block_unclean (bare : IsBareName texts.name) (unclean : ∃ s ∈ texts.values, ¬ IsClean s) :
    readLines (line words) (texts.block ++ ['\n']) = none := by
  have text : ∀ key ∈ ["command", "driver", "launcher"], ∀ s,
      (∃ a, (tomlLines words).Reads (emitLine key (emitString s)) a) ∨
        (tomlLines words).Rejects (emitLine key (emitString s)) := by
    intro key among s
    by_cases clean : IsClean s
    · exact .inl ⟨_, reads_text key (bareKeys key among) clean⟩
    · exact .inr (rejects_text key (bareKeys key among) clean)
  rw [block_eq]
  refine readLines_rejected (l := tomlLines words) ?_ ?_ ['\n']
  · intro c member
    rcases List.mem_append.mp member with fixed | last
    · simp only [List.mem_cons, List.not_mem_nil, or_false] at fixed
      rcases fixed with rfl | rfl | rfl | rfl
      · exact .inl ⟨_, reads_header bare⟩
      · exact text "command" (by simp) _
      · exact text "driver" (by simp) _
      · exact text "launcher" (by simp) _
    · split_ifs at last with none
      · cases last
      · obtain rfl := List.mem_singleton.mp last
        by_cases clean : ∀ s ∈ texts.args, IsClean s
        · exact .inl ⟨_, reads_args none clean⟩
        · push Not at clean
          exact .inr (rejects_args clean)
  · obtain ⟨s, member, bad⟩ := unclean
    simp only [values, List.mem_cons] at member
    rcases member with rfl | rfl | rfl | among
    · exact ⟨_, by simp [lines], rejects_text "command" (bareKeys _ (by simp)) bad⟩
    · exact ⟨_, by simp [lines], rejects_text "driver" (bareKeys _ (by simp)) bad⟩
    · exact ⟨_, by simp [lines], rejects_text "launcher" (bareKeys _ (by simp)) bad⟩
    · have some_ : texts.args ≠ [] := List.ne_nil_of_mem among
      exact ⟨_, by simp [lines, some_], rejects_args ⟨s, among, bad⟩⟩

end AddTexts

end Strings

end Nelix.Cli
