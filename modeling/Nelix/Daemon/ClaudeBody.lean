import Nelix.Daemon.ClaudeModal
import Mathlib.Data.List.GetD

/-!
# The body of a modal

Which rows of a frame become the fingerprint of the modal that it shows, and when the scrollback above
the modal has no part in them.

## Main results

`modal_agrees_iff`: two frames that show one modal under different scrollbacks have the same options
and the same body, with nothing of the scrollback in them, exactly when no row of the scrollbacks is a
numbered entry and the question is fenced off from them.
-/
namespace Nelix.Daemon

open Core

/-! ### The question under a scrollback -/

variable {u : Unicode} {rest blk rows : List Text} {k n stop : ℕ}

/-- The rows right above the options, without the blank ones under them. -/
def questionOf (rows : List Text) (firstOpt : ℕ) : List Text :=
  (rows.take firstOpt).rdropWhile isBlankRow

/-- The question of the block does not go on into the rows above it: a blank row or a rule is on the
block over it, or there are more rows than are looked at, or the row above is no text. A block that has
no question has a rule over it, blanks aside. -/
def Fenced (rest blk : List Text) (firstOpt : ℕ) : Prop :=
  if questionOf blk firstOpt = [] then
    ∀ row ∈ (rest.rdropWhile isBlankRow).getLast?, isRuleRow row = true
  else
    (∃ row ∈ questionOf blk firstOpt, isTextRow row = false) ∨ 8 < firstOpt ∨
      ∀ row ∈ rest.getLast?, isTextRow row = false

theorem getD_append (n : ℕ) : (rest ++ blk).getD (rest.length + n) [] = blk.getD n [] := by
  rw [List.getD_append_right _ _ _ _ (Nat.le_add_right ..), Nat.add_sub_cancel_left]

theorem skipBlanks_eq (inside : n ≤ rows.length) :
    skipBlanks rows n = (questionOf rows n).length := by
  induction n with
  | zero => rfl
  | succ n ih =>
    have here : rows.getD n [] = rows[n] := List.getD_eq_getElem _ _ (by omega)
    rw [skipBlanks, here, questionOf, List.take_succ_eq_append_getElem (by omega)]
    split
    next blank =>
      rw [List.rdropWhile_concat_pos _ _ _ blank]
      exact ih (by omega)
    next solid =>
      rw [List.rdropWhile_concat_neg _ _ _ solid, List.length_append, List.length_take]
      simp
      omega

theorem skipBlanks_le : skipBlanks rows n ≤ n := by
  induction n with
  | zero => exact le_rfl
  | succ n ih =>
    rw [skipBlanks]
    split
    · omega
    · exact le_rfl

theorem skipBlanks_solid (filled : skipBlanks rows n ≠ 0) :
    isBlankRow (rows.getD (skipBlanks rows n - 1) []) = false := by
  induction n with
  | zero => exact absurd rfl filled
  | succ n ih =>
    rw [skipBlanks] at filled ⊢
    split
    next blank =>
      rw [if_pos blank] at filled
      exact ih filled
    next solid => exact Bool.eq_false_of_not_eq_true solid

theorem skipBlanks_append :
    skipBlanks (rest ++ blk) (rest.length + n) =
      if skipBlanks blk n = 0 then skipBlanks rest rest.length else rest.length + skipBlanks blk n := by
  induction n with
  | zero =>
    have same (m : ℕ) (inside : m ≤ rest.length) :
        skipBlanks (rest ++ blk) m = skipBlanks rest m := by
      induction m with
      | zero => rfl
      | succ m ih => rw [skipBlanks, skipBlanks, List.getD_append _ _ _ _ inside, ih (by omega)]
    exact same _ le_rfl
  | succ n ih =>
    rw [← Nat.add_assoc, skipBlanks, getD_append, ih, skipBlanks]
    split
    · rfl
    · rfl

theorem walkUp_le : walkUp rows k n ≤ n := by
  induction n with
  | zero => exact le_rfl
  | succ n ih =>
    rw [walkUp]
    split
    · omega
    · exact le_rfl

/-- The walk over the block is the same under the scrollback, as long as it stays on the block. -/
theorem walkUp_append :
    walkUp (rest ++ blk) (rest.length + k) (rest.length + n) =
      if walkUp blk k n = 0 then walkUp (rest ++ blk) (rest.length + k) rest.length
      else rest.length + walkUp blk k n := by
  induction n with
  | zero => rfl
  | succ n ih =>
    have bound : rest.length + k - 8 < rest.length + n + 1 ↔ k - 8 < n + 1 := by omega
    rw [← Nat.add_assoc, walkUp, getD_append, walkUp]
    simp only [bound]
    split
    · exact ih
    · rfl

/-- A walk that leaves the block went over text only. -/
theorem walkUp_eq_zero :
    walkUp rows k n = 0 ↔ (n = 0 ∨ k ≤ 8) ∧ ∀ m < n, isTextRow (rows.getD m []) = true := by
  induction n with
  | zero => simp [walkUp]
  | succ n ih =>
    rw [walkUp]
    by_cases goes : k - 8 < n + 1 ∧ isTextRow (rows.getD n []) = true
    · rw [if_pos goes, ih]
      constructor
      · rintro ⟨near, all⟩
        refine ⟨.inr (by omega), fun m inside => ?_⟩
        rcases Nat.lt_succ_iff_lt_or_eq.mp inside with before | rfl
        · exact all m before
        · exact goes.2
      · rintro ⟨near, all⟩
        exact ⟨.inr (by omega), fun m inside => all m (by omega)⟩
    · rw [if_neg goes]
      refine ⟨nofun, ?_⟩
      rintro ⟨near, all⟩
      exact absurd ⟨by omega, all n (by omega)⟩ goes

theorem spanAbove_eq (rows : List Text) (k : ℕ) : spanAbove rows k =
    if skipBlanks rows k = 0 then none
    else if skipBlanks rows k ≤ startOf rows (walkUp rows k (skipBlanks rows k)) then none
    else some (startOf rows (walkUp rows k (skipBlanks rows k)), skipBlanks rows k) := by
  rw [spanAbove]
  split
  next zero =>
    subst zero
    rfl
  next => rfl

theorem startOf_append (filled : n ≠ 0) :
    startOf (rest ++ blk) (rest.length + n) = rest.length + startOf blk n := by
  have last : (rest ++ blk).getD (rest.length + n - 1) [] = blk.getD (n - 1) [] := by
    rw [show rest.length + n - 1 = rest.length + (n - 1) by omega, getD_append]
  rw [startOf, startOf, last]
  by_cases text : isTextRow (blk.getD (n - 1) []) = false
  · rw [if_pos (.inr text), if_pos (.inr text)]
  · rw [if_neg (not_or.mpr ⟨by omega, text⟩), if_neg (not_or.mpr ⟨filled, text⟩)]
    omega

/-- A walk that begins with a row of text takes that row with it. -/
theorem startOf_walkUp_lt (filled : n ≠ 0) (text : isTextRow (rows.getD (n - 1) []) = true) :
    startOf rows (walkUp rows k n) < n := by
  have down : walkUp rows k n ≤ n := walkUp_le
  rw [startOf]
  split
  next stays =>
    rcases Nat.lt_or_eq_of_le down with before | same
    · exact before
    · rw [same] at stays
      rcases stays with zero | other
      · exact absurd zero filled
      · rw [text] at other
        cases other
  next goes =>
    have landed : walkUp rows k n ≠ 0 := fun zero => goes (.inl zero)
    omega

/-- A walk that begins with a row that is no text stops there. -/
theorem startOf_walkUp_stays (stops : n = 0 ∨ isTextRow (rows.getD (n - 1) []) = false) :
    startOf rows (walkUp rows k n) = n := by
  cases n with
  | zero => rfl
  | succ n =>
    have other : isTextRow (rows.getD n []) = false := by
      rcases stops with zero | other
      · cases zero
      · exact other
    rw [walkUp, if_neg (by simp only [other]; simp), startOf, if_pos (.inr other)]

theorem getLast?_take_iff {p : Text → Prop} (inside : n ≤ rows.length) :
    (∀ row ∈ (rows.take n).getLast?, p row) ↔ n = 0 ∨ p (rows.getD (n - 1) []) := by
  cases n with
  | zero => simp
  | succ n =>
    rw [List.take_succ_eq_append_getElem inside, List.getLast?_concat,
      List.getD_eq_getElem _ _ (by omega)]
    simp

theorem questionOf_eq (inside : k ≤ rows.length) :
    questionOf rows k = rows.take (skipBlanks rows k) := by
  have before := List.prefix_iff_eq_take.mp (List.rdropWhile_prefix isBlankRow (rows.take k))
  rw [questionOf, before, List.take_take, skipBlanks_eq inside, questionOf,
    Nat.min_eq_left ((List.rdropWhile_prefix ..).length_le.trans (List.length_take_le ..))]

theorem isTextRow_iff {row : Text} :
    isTextRow row = true ↔ isBlankRow row = false ∧ isRuleRow row = false := by
  rw [isTextRow, Bool.and_eq_true, Bool.not_eq_true', Bool.not_eq_true']

/-- What the fence says of the places at which the loops stop. -/
theorem fenced_iff (inside : k ≤ blk.length) : Fenced rest blk k ↔
    if skipBlanks blk k = 0 then
      skipBlanks rest rest.length = 0 ∨
        isTextRow (rest.getD (skipBlanks rest rest.length - 1) []) = false
    else walkUp blk k (skipBlanks blk k) ≠ 0 ∨ rest.length = 0 ∨
      isTextRow (rest.getD (rest.length - 1) []) = false := by
  have empty : questionOf blk k = [] ↔ skipBlanks blk k = 0 := by
    rw [skipBlanks_eq inside, List.length_eq_zero_iff]
  have short : skipBlanks blk k ≤ blk.length := skipBlanks_le.trans inside
  rw [Fenced]
  simp only [empty]
  by_cases none' : skipBlanks blk k = 0
  · rw [if_pos none', if_pos none']
    have short : skipBlanks rest rest.length ≤ rest.length := skipBlanks_le
    have rule := getLast?_take_iff (p := fun row => isRuleRow row = true) short
    have whole := questionOf_eq (le_refl rest.length)
    rw [questionOf, List.take_length] at whole
    rw [whole, rule]
    by_cases zero : skipBlanks rest rest.length = 0
    · simp [zero]
    · have solid := skipBlanks_solid zero
      simp only [zero, false_or]
      constructor
      · intro rule
        rw [isTextRow, rule, Bool.not_true, Bool.and_false]
      · intro other
        by_contra plain
        rw [isTextRow_iff.mpr ⟨solid, Bool.eq_false_of_not_eq_true plain⟩] at other
        cases other
  · rw [if_neg none', if_neg none']
    have last := getLast?_take_iff (p := fun row => isTextRow row = false) (le_refl rest.length)
    rw [List.take_length] at last
    rw [last, Ne, walkUp_eq_zero, questionOf_eq inside]
    have rows' : (∃ row ∈ blk.take (skipBlanks blk k), isTextRow row = false) ↔
        ¬ ∀ m < skipBlanks blk k, isTextRow (blk.getD m []) = true := by
      constructor
      · rintro ⟨row, member, other⟩ all
        obtain ⟨m, before, rfl⟩ := List.mem_iff_getElem.mp member
        rw [List.length_take] at before
        have text := all m (by omega)
        rw [List.getElem_take] at other
        rw [List.getD_eq_getElem _ _ (by omega), other] at text
        cases text
      · intro some'
        push Not at some'
        obtain ⟨m, before, other⟩ := some'
        rw [List.getD_eq_getElem _ _ (by omega)] at other
        exact ⟨_, List.mem_take_iff_getElem.mpr ⟨m, by omega, rfl⟩, Bool.eq_false_of_not_eq_true other⟩
    rw [rows', ← or_assoc]
    refine or_congr_left ?_
    constructor
    · rintro (nontext | far) ⟨near, all⟩
      · exact nontext all
      · rcases near with zero | near
        · exact none' zero
        · omega
    · intro both
      by_cases near : k ≤ 8
      · exact .inl fun all => both ⟨.inr near, all⟩
      · exact .inr (by omega)

/-- A fenced block has the same body under the scrollback. -/
theorem spanAbove_append (inside : k ≤ blk.length) (fenced : Fenced rest blk k) :
    spanAbove (rest ++ blk) (rest.length + k) =
      (spanAbove blk k).map fun span => (rest.length + span.1, rest.length + span.2) := by
  rw [fenced_iff inside] at fenced
  rw [spanAbove_eq, spanAbove_eq blk k, skipBlanks_append]
  by_cases none' : skipBlanks blk k = 0
  · rw [if_pos none'] at fenced
    rw [if_pos none', if_pos none']
    have stays : startOf (rest ++ blk)
        (walkUp (rest ++ blk) (rest.length + k) (skipBlanks rest rest.length)) =
          skipBlanks rest rest.length := by
      by_cases zero : skipBlanks rest rest.length = 0
      · exact startOf_walkUp_stays (.inl zero)
      · refine startOf_walkUp_stays (.inr ?_)
        have below : skipBlanks rest rest.length ≤ rest.length := skipBlanks_le
        rw [List.getD_append _ _ _ _ (by omega)]
        exact fenced.resolve_left zero
    rw [stays, if_pos le_rfl, ite_self]
    rfl
  · rw [if_neg none'] at fenced
    rw [if_neg none', if_neg none', if_neg (by omega), walkUp_append]
    have same : startOf (rest ++ blk) (if walkUp blk k (skipBlanks blk k) = 0 then
        walkUp (rest ++ blk) (rest.length + k) rest.length
      else rest.length + walkUp blk k (skipBlanks blk k)) =
        rest.length + startOf blk (walkUp blk k (skipBlanks blk k)) := by
      split
      next left =>
        rw [left]
        rcases (fenced.resolve_left (not_not.mpr left)) with bare | other
        · exact startOf_walkUp_stays (.inl bare)
        · by_cases bare : rest.length = 0
          · exact startOf_walkUp_stays (.inl bare)
          · refine startOf_walkUp_stays (.inr ?_)
            rwa [List.getD_append _ _ _ _ (by omega)]
      next within => exact startOf_append within
    rw [same]
    by_cases bare : skipBlanks blk k ≤ startOf blk (walkUp blk k (skipBlanks blk k))
    · rw [if_pos bare, if_pos (by omega)]
      rfl
    · rw [if_neg bare, if_neg (by omega)]
      rfl

/-- Where the block is not fenced, its body begins in the scrollback. -/
theorem spanAbove_crosses (inside : k ≤ blk.length) (exposed : ¬ Fenced rest blk k) :
    ∃ span ∈ spanAbove (rest ++ blk) (rest.length + k), span.1 < rest.length := by
  rw [fenced_iff inside] at exposed
  rw [spanAbove_eq, skipBlanks_append]
  by_cases none' : skipBlanks blk k = 0
  · rw [if_pos none', not_or] at exposed
    rw [if_pos none', if_neg exposed.1]
    have below : skipBlanks rest rest.length ≤ rest.length := skipBlanks_le
    have text : isTextRow ((rest ++ blk).getD (skipBlanks rest rest.length - 1) []) = true := by
      rw [List.getD_append _ _ _ _ (by omega)]
      exact Bool.eq_true_of_not_eq_false exposed.2
    have before := startOf_walkUp_lt (k := rest.length + k) exposed.1 text
    exact ⟨_, if_neg (by omega), by dsimp only; omega⟩
  · rw [if_neg none', not_or, not_or, not_not] at exposed
    obtain ⟨left, filled, other⟩ := exposed
    rw [if_neg none', if_neg (by omega), walkUp_append, if_pos left]
    have text : isTextRow ((rest ++ blk).getD (rest.length - 1) []) = true := by
      rw [List.getD_append _ _ _ _ (by omega)]
      exact Bool.eq_true_of_not_eq_false other
    have before := startOf_walkUp_lt (k := rest.length + k) filled text
    exact ⟨_, if_neg (by omega), by dsimp only; omega⟩

instance : Decidable (Fenced rest blk k) := inferInstanceAs (Decidable (if questionOf blk k = [] then
    ∀ row ∈ (rest.rdropWhile isBlankRow).getLast?, isRuleRow row = true
  else
    (∃ row ∈ questionOf blk k, isTextRow row = false) ∨ 8 < k ∨
      ∀ row ∈ rest.getLast?, isTextRow row = false))

/-! ### Two frames with one block -/

section
variable {β : Type*} (u : Unicode) (hash : Text → β) {above above' block : List Text}

/-- Nothing of the scrollback gets into the options or into the body: each option has its number on the
block, and the body is taken from rows of the block, above an option of the block. -/
structure Own (above block : List Text) : Prop where
  options : ∀ found ∈ numberedOptions u none 0 (frameOf above block),
    Lines.start above above.length ≤ found.1
  body : ∃ rest, rowsOf (normalizeFrame u (frameOf above block)) =
      rest ++ rowsOf (normalizeFrame u (joinRows block)) ∧
    (∀ k ∈ firstOption u (rowsOf (normalizeFrame u (frameOf above block))), rest.length ≤ k) ∧
    ∀ span ∈ bodySpan u (rowsOf (normalizeFrame u (frameOf above block))), rest.length ≤ span.1

/-- No row of the scrollback is a numbered entry, neither as it is nor in the normal form of the frame,
which ends with that of the block; and the question of the block is fenced off. -/
structure Apart (above block : List Text) : Prop where
  plain : ∀ row ∈ above, isEntry u row = false
  fenced : ∃ rest, rowsOf (normalizeFrame u (frameOf above block)) =
      rest ++ rowsOf (normalizeFrame u (joinRows block)) ∧
    (∀ row ∈ rest, isOptionRow u row = false) ∧
    ∀ k ∈ firstOption u (rowsOf (normalizeFrame u (joinRows block))),
      Fenced rest (rowsOf (normalizeFrame u (joinRows block))) k

variable {u}

/-- A block with a menu has something on it. -/
theorem exists_solid (shown : modalMenu u (joinRows block) = true) :
    ∃ c ∈ joinRows block, c.isSpace = false := by
  rw [modalMenu, Bool.and_eq_true, search, Bool.not_eq_true', List.isEmpty_eq_false_iff] at shown
  obtain ⟨before, text, tail, hit⟩ := exists_of_finditer shown.1
  obtain ⟨found, selected⟩ := Option.isSome_iff_exists.mp hit
  have option := (Option.mem_filter_iff.mp selected).1
  rw [optionPattern] at option
  split at option
  next =>
    obtain ⟨head, here, -⟩ := Option.bind_eq_some_iff.mp option
    obtain ⟨lead, gap, heads⟩ := heads_of_numberHead here
    obtain ⟨d, more, digits⟩ := List.exists_cons_of_ne_nil heads.filled
    refine ⟨d, tail.subset ?_, u.digit_solid (heads.digits d (by simp [digits]))⟩
    rw [heads.whole, digits]
    simp
  next => cases option

theorem firstOption_append (plain : ∀ row ∈ rest, isOptionRow u row = false) :
    firstOption u (rest ++ blk) = (firstOption u blk).map (rest.length + ·) := by
  have none' : rest.findIdx? (isOptionRow u) = none := List.findIdx?_eq_none_iff.mpr plain
  rw [firstOption, List.findIdx?_append, none', Option.none_or, firstOption]
  simp only [Nat.add_comm]

theorem firstOption_le (first : firstOption u rows = some k) : k ≤ rows.length :=
  (List.findIdx?_eq_some_iff_findIdx_eq.mp first).1.le

/-- Under a fence the body is that of the block. -/
theorem bodySpan_append (plain : ∀ row ∈ rest, isOptionRow u row = false)
    (fenced : ∀ k ∈ firstOption u blk, Fenced rest blk k) :
    bodySpan u (rest ++ blk) =
      (bodySpan u blk).map fun span => (rest.length + span.1, rest.length + span.2) := by
  rw [bodySpan, firstOption_append plain, bodySpan]
  cases first : firstOption u blk with
  | none => rfl
  | some k =>
    rw [Option.map_some, Option.bind_some, Option.bind_some,
      spanAbove_append (firstOption_le first) (fenced k first)]

theorem Apart.options (bare : ∀ row ∈ above, lf ∉ row) (filled : block ≠ [])
    (apart : Apart u above block) :
    parseOptions u (frameOf above block) = parseOptions u (joinRows block) := by
  have found (i : ℕ) (text : Text) : (numberedOptions u (some lf) i text).map Prod.snd =
      ((finditer (optionParsePattern u) (some lf) 0 i text).map Prod.snd).map
        fun m => (m.id, m.label) := by
    rw [numberedOptions, List.map_map, List.map_map]
    rfl
  rw [parseOptions, numberedOptions_start, numberedOptions_block bare apart.plain filled,
    parseOptions, numberedOptions_start, found, found, finditer_found _ 0]

theorem Apart.body (apart : Apart u above block) :
    modalBodyFp u hash (normalizeFrame u (frameOf above block)) =
      modalBodyFp u hash (normalizeFrame u (joinRows block)) := by
  obtain ⟨rest, rows, plain, fenced⟩ := apart.fenced
  rw [modalBodyFp, rows, bodySpan_append plain fenced, Option.map_map, modalBodyFp]
  congr 1
  funext span
  rw [Function.comp_apply, List.take_length_add_append, List.drop_length_add_append]

theorem Apart.own (bare : ∀ row ∈ above, lf ∉ row) (filled : block ≠ [])
    (apart : Apart u above block) : Own u above block := by
  obtain ⟨rest, rows, plain, fenced⟩ := apart.fenced
  refine ⟨fun found member => ?_, rest, rows, fun k first => ?_, fun span kept => ?_⟩
  · rw [numberedOptions_start, numberedOptions_block bare apart.plain filled, Nat.zero_add,
      numberedOptions] at member
    obtain ⟨m, inside, rfl⟩ := List.mem_map.mp member
    have place := finditer_place inside
    dsimp only
    omega
  · rw [rows, firstOption_append plain] at first
    obtain ⟨k', -, rfl⟩ := Option.map_eq_some_iff.mp first
    omega
  · rw [rows, bodySpan_append plain fenced] at kept
    obtain ⟨span', -, rfl⟩ := Option.map_eq_some_iff.mp kept
    exact Nat.le_add_right ..

theorem Own.apart (bare : ∀ row ∈ above, lf ∉ row) (shown : modalMenu u (joinRows block) = true)
    (own : Own u above block) : Apart u above block := by
  obtain ⟨rest, rows, first, span⟩ := own.body
  have plain : ∀ row ∈ rest, isOptionRow u row = false := by
    by_contra entry
    push Not at entry
    obtain ⟨row, inside, option⟩ := entry
    have found : (rest.findIdx? (isOptionRow u)).isSome :=
      List.findIdx?_isSome.trans (List.any_eq_true.mpr ⟨row, inside, by simpa using option⟩)
    obtain ⟨k, early⟩ := Option.isSome_iff_exists.mp found
    have short := (List.findIdx?_eq_some_iff_findIdx_eq.mp early).1
    have here : firstOption u (rest ++ rowsOf (normalizeFrame u (joinRows block))) = some k := by
      rw [firstOption, List.findIdx?_append, early, Option.some_or]
    rw [rows] at first
    exact absurd (first k here) (by omega)
  refine ⟨fun row inside => ?_, rest, rows, plain, fun k block' => ?_⟩
  · by_contra entry
    obtain ⟨found, member, before⟩ := numberedOptions_above (i := 0) bare
      ⟨row, inside, Bool.eq_true_of_not_eq_false entry⟩ (exists_solid shown)
    rw [← numberedOptions_start] at member
    have behind := own.options found member
    omega
  · by_contra exposed
    obtain ⟨kept, member, before⟩ := spanAbove_crosses (firstOption_le block') exposed
    rw [rows, bodySpan, firstOption_append plain] at span
    have inside := span kept (by
      rw [show firstOption u _ = some k from block', Option.map_some, Option.bind_some]
      exact member)
    omega

/-- Two frames with one modal under different scrollbacks have its options and its body, with nothing
of the scrollbacks in them, exactly when these are apart from the modal. -/
theorem modal_agrees_iff (above above' block : List Text) (bare : ∀ row ∈ above ++ above', lf ∉ row)
    (shown : modalMenu u (joinRows block) = true) :
    (parseOptions u (frameOf above block) = parseOptions u (frameOf above' block) ∧
      modalBodyFp u hash (normalizeFrame u (frameOf above block)) =
        modalBodyFp u hash (normalizeFrame u (frameOf above' block)) ∧
      Own u above block ∧ Own u above' block) ↔
    Apart u above block ∧ Apart u above' block := by
  have first : ∀ row ∈ above, lf ∉ row := fun row inside => bare row (by simp [inside])
  have second : ∀ row ∈ above', lf ∉ row := fun row inside => bare row (by simp [inside])
  have filled : block ≠ [] := by
    rintro rfl
    obtain ⟨c, inside, -⟩ := exists_solid shown
    cases inside
  constructor
  · rintro ⟨-, -, own, own'⟩
    exact ⟨own.apart first shown, own'.apart second shown⟩
  · rintro ⟨apart, apart'⟩
    refine ⟨?_, ?_, apart.own first filled, apart'.own second filled⟩
    · rw [apart.options first filled, apart'.options second filled]
    · rw [apart.body, apart'.body]

/-- A prose scrollback is apart from a modal with a border. -/
theorem modal_agrees_prose :
    parseOptions .ascii (frameOf [.ofString "I need a decision:"] [.ofString "────",
        .ofString " Enable analytics?", .ofString "❯ 1. Yes", .ofString "  2. No"]) =
      parseOptions .ascii (frameOf [] [.ofString "────", .ofString " Enable analytics?",
        .ofString "❯ 1. Yes", .ofString "  2. No"]) ∧
    Own .ascii [.ofString "I need a decision:"] [.ofString "────", .ofString " Enable analytics?",
      .ofString "❯ 1. Yes", .ofString "  2. No"] := by
  have agrees := (modal_agrees_iff (u := .ascii) id [.ofString "I need a decision:"] []
    [.ofString "────", .ofString " Enable analytics?", .ofString "❯ 1. Yes", .ofString "  2. No"]
    (by decide +kernel) (by decide +kernel)).mpr
    ⟨⟨by decide +kernel, [.ofString "I need a decision:"], by decide +kernel, by decide +kernel,
      by decide +kernel⟩, ⟨by decide +kernel, [], by decide +kernel, by decide +kernel,
      by decide +kernel⟩⟩
  exact ⟨agrees.1, agrees.2.2.1⟩

/-- A numbered list in the scrollback becomes two options of the modal below it, and the modal loses its
body. -/
theorem modal_scrollback :
    ∃ above block : List Text, modalMenu .ascii (joinRows block) = true ∧
      observeModal .ascii true (frameOf [] block) = some (.modalChoice,
        [(.ofString "1", .ofString "Yes"), (.ofString "2", .ofString "No")]) ∧
      observeModal .ascii true (frameOf above block) = some (.modalChoice,
        [(.ofString "1", .ofString "Build"), (.ofString "2", .ofString "Test"),
          (.ofString "1", .ofString "Yes"), (.ofString "2", .ofString "No")]) ∧
      (modalBodyFp .ascii id (normalizeFrame .ascii (frameOf [] block))).isSome ∧
      modalBodyFp .ascii id (normalizeFrame .ascii (frameOf above block)) = none :=
  ⟨[.ofString "1. Build", .ofString "2. Test"], [.ofString "────", .ofString " Enable analytics?",
    .ofString "❯ 1. Yes", .ofString "  2. No"], by decide +kernel⟩

end

end Nelix.Daemon
