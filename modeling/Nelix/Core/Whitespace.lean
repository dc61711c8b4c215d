import Nelix.Core.Text
import Mathlib.Data.List.DropRight
import Mathlib.Data.List.Chain

/-!
# Whitespace

What Python's `str` and `re` take for whitespace, and the functions that cut it off.
-/
namespace Core

namespace CodePoint

/-- `isspace`, and the `\s` of a pattern. -/
def isSpace : CodePoint → Bool
  | .char c =>
    let n := c.toNat
    9 ≤ n && n ≤ 13 || 28 ≤ n && n ≤ 32 || n = 0x85 || n = 0xa0 || n = 0x1680 ||
      0x2000 ≤ n && n ≤ 0x200a || n = 0x2028 || n = 0x2029 || n = 0x202f || n = 0x205f || n = 0x3000
  | _ => false

end CodePoint

namespace Text

def lstrip (t : Text) : Text := t.dropWhile CodePoint.isSpace

def rstrip (t : Text) : Text := t.rdropWhile CodePoint.isSpace

def strip (t : Text) : Text := t.lstrip.rstrip

/-- Whitespace only. -/
def Spaces (t : Text) : Prop := ∀ c ∈ t, c.isSpace = true

instance (t : Text) : Decidable (Spaces t) := inferInstanceAs (Decidable (∀ c ∈ t, c.isSpace = true))

theorem Spaces.dropWhile {lead rest : Text} (spaces : Spaces lead) :
    (lead ++ rest).dropWhile CodePoint.isSpace = rest.dropWhile CodePoint.isSpace :=
  List.dropWhile_append_of_pos spaces

/-- What begins and ends with no whitespace stays. -/
theorem strip_solid {first last : CodePoint} {t : Text} (begins : first.isSpace = false)
    (ends : last.isSpace = false) : strip (first :: (t ++ [last])) = first :: (t ++ [last]) := by
  have left : lstrip (first :: (t ++ [last])) = first :: (t ++ [last]) := by
    rw [lstrip, List.dropWhile_cons_of_neg (by simp [begins])]
  rw [strip, left, rstrip, ← List.cons_append, List.rdropWhile_concat_neg _ _ _ (by simp [ends])]

/-- The whitespace behind the last other character goes. -/
theorem rstrip_spaces {t blanks : Text} {c : CodePoint} (spaces : Spaces blanks)
    (solid : c.isSpace = false) : rstrip (t ++ c :: blanks) = t ++ [c] := by
  have dropped : (blanks.reverse ++ c :: t.reverse).dropWhile CodePoint.isSpace = c :: t.reverse := by
    rw [List.dropWhile_append_of_pos fun d inside => spaces d (List.mem_reverse.mp inside),
      List.dropWhile_cons_of_neg (by simp [solid])]
  have flipped : (t ++ c :: blanks).reverse = blanks.reverse ++ c :: t.reverse := by simp
  rw [rstrip, List.rdropWhile, flipped, dropped, List.reverse_cons, List.reverse_reverse]

/-- What goes at the end goes with the first cut already. -/
theorem strip_rstrip (t : Text) : strip (rstrip t) = strip t := by
  induction t using List.reverseRecOn with
  | nil => rfl
  | append_singleton t c ih =>
    cases space : c.isSpace with
    | false => rw [rstrip, List.rdropWhile_concat_neg _ _ _ (by simp [space])]
    | true =>
      have cut : strip (t ++ [c]) = strip t := by
        rw [strip, strip, lstrip, List.dropWhile_append]
        split
        · rename_i blank
          rw [List.dropWhile_cons_of_pos space, List.dropWhile_nil, lstrip,
            List.isEmpty_iff.mp blank]
        · exact List.rdropWhile_concat_pos _ _ _ space
      rw [rstrip, List.rdropWhile_concat_pos _ _ _ space, cut]
      exact ih

/-! ### Words -/

/-- `split()` -/
def words (t : Text) : List Text := (t.splitOnP CodePoint.isSpace).filter (· ≠ [])

/-- `" ".join(ws)` -/
def joinWords (ws : List Text) : Text := List.intercalate [.char ' '] ws

/-- A word has something in it, and no whitespace. -/
def IsWord (w : Text) : Prop := w ≠ [] ∧ ∀ c ∈ w, c.isSpace = false

/-- The only whitespace is single blanks between other characters. -/
structure Tidy (t : Text) : Prop where
  blanks : ∀ c ∈ t, c.isSpace = true → c = .char ' '
  single : t.IsChain fun p q => ¬ (p = .char ' ' ∧ q = .char ' ')
  first : t.head? ≠ some (.char ' ')
  last : t.getLast? ≠ some (.char ' ')

variable {t w : Text} {ws : List Text} {c : CodePoint}

theorem mem_splitOnP (member : w ∈ t.splitOnP CodePoint.isSpace) :
    ∀ c ∈ w, c.isSpace = false ∧ c ∈ t := by
  induction t generalizing w with
  | nil =>
    rw [List.splitOnP_nil, List.mem_singleton] at member
    subst member
    exact nofun
  | cons d rest ih =>
    rw [List.splitOnP_cons_eq_if_modifyHead] at member
    split at member
    · rcases List.mem_cons.mp member with rfl | later
      · exact nofun
      · exact fun c inside => ⟨(ih later c inside).1, List.mem_cons_of_mem _ (ih later c inside).2⟩
    · rename_i solid
      obtain ⟨piece, pieces, cut⟩ :=
        List.exists_cons_of_ne_nil (List.splitOnP_ne_nil CodePoint.isSpace rest)
      rw [cut] at member ih
      rw [List.modifyHead_cons] at member
      have below : ∀ w ∈ piece :: pieces, ∀ c ∈ w, c.isSpace = false ∧ c ∈ d :: rest :=
        fun w there c inside => ⟨(ih there c inside).1, List.mem_cons_of_mem _ (ih there c inside).2⟩
      rcases List.mem_cons.mp member with rfl | later
      · intro c inside
        rcases List.mem_cons.mp inside with rfl | behind
        · exact ⟨by simpa using solid, List.mem_cons_self ..⟩
        · exact below piece (List.mem_cons_self ..) c behind
      · exact below w (List.mem_cons_of_mem _ later)

theorem isWord_of_words (member : w ∈ words t) : IsWord w := by
  obtain ⟨piece, filled⟩ := List.mem_filter.mp member
  exact ⟨by simpa using filled, fun c inside => (mem_splitOnP piece c inside).1⟩

theorem joinWords_cons (ws : List Text) (filled : ws ≠ []) :
    joinWords (w :: ws) = w ++ .char ' ' :: joinWords ws := by
  obtain ⟨next, rest, rfl⟩ := List.exists_cons_of_ne_nil filled
  rw [joinWords, List.intercalate_cons_cons, List.append_assoc]
  rfl

/-- A character of the joined words is a blank or one of a word. -/
theorem mem_joinWords (member : c ∈ joinWords ws) : c = .char ' ' ∨ ∃ w ∈ ws, c ∈ w := by
  induction ws with
  | nil => cases member
  | cons w rest ih =>
    by_cases alone : rest = []
    · subst alone
      rw [joinWords, List.intercalate_singleton] at member
      exact .inr ⟨w, by simp, member⟩
    · rw [joinWords_cons rest alone] at member
      rcases List.mem_append.mp member with here | behind
      · exact .inr ⟨w, by simp, here⟩
      · rcases List.mem_cons.mp behind with blank | later
        · exact .inl blank
        · obtain same | ⟨v, among, inside⟩ := ih later
          · exact .inl same
          · exact .inr ⟨v, List.mem_cons_of_mem _ among, inside⟩

/-- Joined words are split into these words. -/
theorem words_joinWords (all : ∀ w ∈ ws, IsWord w) : words (joinWords ws) = ws := by
  induction ws with
  | nil => rfl
  | cons w rest ih =>
    have word := all w (by simp)
    have later := ih fun v among => all v (List.mem_cons_of_mem _ among)
    by_cases alone : rest = []
    · rw [alone, joinWords, List.intercalate_singleton, words,
        List.splitOnP_eq_singleton word.2, List.filter_singleton]
      simp [word.1]
    · rw [joinWords_cons rest alone, words,
        List.splitOnP_append_cons_of_forall_mem word.2 _ rfl, List.filter_cons_of_pos (by simp [word.1])]
      exact congrArg (w :: ·) later

/-- Words are joined without further whitespace. -/
theorem tidy_joinWords (all : ∀ w ∈ ws, IsWord w) : Tidy (joinWords ws) := by
  induction ws with
  | nil => exact ⟨nofun, .nil, nofun, nofun⟩
  | cons w rest ih =>
    have word := all w (by simp)
    have later := ih fun v among => all v (List.mem_cons_of_mem _ among)
    have solid : ∀ c ∈ w, c ≠ .char ' ' := by
      rintro c inside rfl
      cases word.2 _ inside
    have chain : w.IsChain fun p q => ¬ (p = .char ' ' ∧ q = .char ' ') := by
      refine List.Pairwise.isChain (List.pairwise_of_forall_mem_list fun p inside q _ blanks => ?_)
      exact solid p inside blanks.1
    obtain ⟨first, tail, rfl⟩ := List.exists_cons_of_ne_nil word.1
    have start : first ≠ .char ' ' := solid first (List.mem_cons_self ..)
    by_cases alone : rest = []
    · rw [alone, joinWords, List.intercalate_singleton]
      refine ⟨fun c inside space => absurd space (by simp [word.2 c inside]), chain, ?_, ?_⟩
      · simpa using start
      · exact fun blank => solid _ (List.mem_of_getLast? blank) rfl
    · have filled : joinWords rest ≠ [] := by
        obtain ⟨next, more, rfl⟩ := List.exists_cons_of_ne_nil alone
        have nonempty := (all next (by simp)).1
        by_cases single : more = []
        · rwa [single, joinWords, List.intercalate_singleton]
        · rw [joinWords_cons more single]
          simp
      rw [joinWords_cons rest alone]
      refine ⟨fun c inside space => ?_, ?_, ?_, ?_⟩
      · rcases List.mem_append.mp inside with here | behind
        · exact absurd space (by simp [word.2 c here])
        · rcases List.mem_cons.mp behind with blank | after
          · exact blank
          · exact later.blanks c after space
      · refine List.isChain_append.mpr ⟨chain, List.isChain_cons.mpr ⟨?_, later.single⟩, ?_⟩
        · rintro q next ⟨-, rfl⟩
          exact later.first next
        · rintro p last q - ⟨rfl, -⟩
          exact solid _ (List.mem_of_getLast? last) rfl
      · simpa using start
      · rw [List.getLast?_append_of_ne_nil _ (List.cons_ne_nil _ _),
          List.getLast?_cons_of_ne_nil filled]
        exact later.last

end Text

end Core
