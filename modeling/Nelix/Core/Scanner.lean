import Mathlib.Data.List.TakeWhile

/-!
# Scanners

A scanner takes what it reads off the front of a text, or fails. It sees at most the next character, and at
the end of the text it sees a new line.

## Main results

`Local.bind`: where each part reads the same in another text, the sequence does.

`Agree.bind`, `Shut.after`: the same for two scanners that agree on short texts, and for scanners that do
not end with a line.
-/
namespace Core

/-- What is read and what is left. -/
def Scanner (α : Type) := List Char → Option (α × List Char)

namespace Scanner

instance : Monad Scanner where
  pure a := fun s => some (a, s)
  bind p f := fun s =>
    match p s with
    | none => none
    | some (a, r) => f a r

variable {α β : Type} {p q : Scanner α} {f g : α → Scanner β} {s r c t : List Char} {a : α} {b : β} {k n : ℕ}

theorem bind_eq_some {x : β × List Char} :
    (p >>= f) s = some x ↔ ∃ a r, p s = some (a, r) ∧ f a r = some x := by
  show (match p s with | none => none | some (a, r) => f a r) = some x ↔ _
  cases p s with
  | none => simp
  | some x =>
    obtain ⟨a, r⟩ := x
    constructor
    · intro read
      exact ⟨a, r, rfl, read⟩
    · rintro ⟨_, _, ⟨⟩, read⟩
      exact read

theorem bind_of_some (read : p s = some (a, r)) : (p >>= f) s = f a r := by
  show (match p s with | none => none | some (a, r) => f a r) = _
  rw [read]

theorem bind_of_none (failed : p s = none) : (p >>= f) s = none := by
  show (match p s with | none => none | some (a, r) => f a r) = _
  rw [failed]

theorem bind_assoc {γ : Type} (p : Scanner α) (f : α → Scanner β) (g : β → Scanner γ) :
    p >>= f >>= g = p >>= fun a => f a >>= g := by
  funext s
  cases read : p s with
  | none => rw [bind_of_none read, bind_of_none (bind_of_none read)]
  | some x =>
    obtain ⟨a, r⟩ := x
    rw [bind_of_some read]
    cases read' : f a r with
    | none => rw [bind_of_none read', bind_of_none ((bind_of_some read).trans read')]
    | some x => rw [bind_of_some read', bind_of_some ((bind_of_some read).trans read')]

/-! ### The primitive scanners -/

def fail : Scanner α := fun _ => none

/-- The next character, which stays. -/
def peek : Scanner Char := fun s => some (s.headD '\n', s)

/-- The next character. A carriage return stands nowhere. -/
def item : Scanner Char
  | [] => none
  | c :: r => if c = '\r' then none else some (c, r)

def exactly (c : Char) : Scanner Unit := do
  let d ← item
  if d = c then pure () else fail

/-- What is of the kind, as far as it goes. -/
def span (kind : Char → Bool) : Scanner (List Char) := fun s => some (s.takeWhile kind, s.dropWhile kind)

/-! ### Reading in another text -/

/-- The rest of the line. The end of the text ends a line. -/
def lineOf (s : List Char) : List Char := s.takeWhile (· ≠ '\n')

/-- What the one reads, the other reads where something else follows, as long as the line goes on in the same
way. There is no carriage return in what is read. -/
def Local (p q : Scanner α) : Prop :=
  ∀ ⦃s a r⦄, p s = some (a, r) →
    ∃ c, s = c ++ r ∧ '\r' ∉ c ∧ ∀ r', lineOf r' = lineOf r → q (c ++ r') = some (a, r')

theorem lineOf_append {r' : List Char} (same : lineOf r' = lineOf r) : lineOf (c ++ r') = lineOf (c ++ r) := by
  unfold lineOf at same ⊢
  induction c with
  | nil => exact same
  | cons d c ih => rw [List.cons_append, List.cons_append, List.takeWhile_cons, List.takeWhile_cons, ih]

theorem lineOf_headD {r' : List Char} (same : lineOf r' = lineOf r) : r'.headD '\n' = r.headD '\n' := by
  have head : ∀ s : List Char, (lineOf s).headD '\n' = s.headD '\n' := by
    intro s
    cases s with
    | nil => rfl
    | cons d s =>
      by_cases line : d = '\n'
      · simp [lineOf, line]
      · simp [lineOf, line]
  rw [← head r', same, head r]

theorem Local.pure : Local (pure a : Scanner α) (pure a) := by
  intro s b r read
  obtain ⟨rfl, rfl⟩ := Prod.mk.inj (Option.some.inj read)
  exact ⟨[], rfl, List.not_mem_nil, fun r' _ => rfl⟩

theorem Local.fail : Local (fail : Scanner α) q := nofun

theorem Local.bind (first : Local p q) (then_ : ∀ a, Local (f a) (g a)) : Local (p >>= f) (q >>= g) := by
  intro s b r read
  obtain ⟨a, middle, here, later⟩ := bind_eq_some.mp read
  obtain ⟨c, rfl, plain, elsewhere⟩ := first here
  obtain ⟨c', rfl, plain', elsewhere'⟩ := then_ a later
  refine ⟨c ++ c', by rw [List.append_assoc], ?_, fun r' same => ?_⟩
  · rw [List.mem_append]
    exact fun among => among.elim plain plain'
  · rw [List.append_assoc, bind_of_some (elsewhere _ (lineOf_append same))]
    exact elsewhere' r' same

theorem Local.ite {p' q' : Scanner α} {condition : Prop} [Decidable condition]
    (yes : condition → Local p q) (no : ¬ condition → Local p' q') :
    Local (if condition then p else p') (if condition then q else q') := by
  split_ifs with holds
  · exact yes holds
  · exact no holds

theorem Local.peek : Local peek peek := by
  intro s a r read
  obtain ⟨rfl, rfl⟩ := Prod.mk.inj (Option.some.inj read)
  refine ⟨[], rfl, List.not_mem_nil, fun r' same => ?_⟩
  rw [List.nil_append, Scanner.peek, lineOf_headD same]

theorem item_eq_some {d : Char} : item s = some (d, r) ↔ d ≠ '\r' ∧ s = d :: r := by
  cases s with
  | nil => simp [item]
  | cons d' s =>
    rw [item]
    constructor
    · intro read
      split_ifs at read with line
      obtain ⟨rfl, rfl⟩ := Prod.mk.inj (Option.some.inj read)
      exact ⟨line, rfl⟩
    · rintro ⟨plain, ⟨⟩⟩
      rw [if_neg plain]

theorem Local.item : Local item item := by
  intro s a r read
  obtain ⟨plain, rfl⟩ := item_eq_some.mp read
  exact ⟨[a], rfl, by simpa using plain.symm, fun r' _ => item_eq_some.mpr ⟨plain, rfl⟩⟩

theorem Local.exactly (d : Char) : Local (exactly d) (exactly d) :=
  Local.item.bind fun _ => Local.ite (fun _ => Local.pure) fun _ => Local.fail

/-- A kind of characters that do not end a line stops where the line does. -/
theorem takeWhile_elsewhere {kind : Char → Bool} {r' : List Char} (line : kind '\n' = false)
    (all : ∀ d ∈ c, kind d = true) (stops : ∀ d ∈ r.head?, kind d = false) (same : lineOf r' = lineOf r) :
    (c ++ r').takeWhile kind = c ∧ (c ++ r').dropWhile kind = r' := by
  have stops' : kind (r'.headD '\n') = false := by
    rw [lineOf_headD same]
    cases r with
    | nil => exact line
    | cons d r => exact stops d rfl
  have none : r'.takeWhile kind = [] ∧ r'.dropWhile kind = r' := by
    cases r' with
    | nil => exact ⟨rfl, rfl⟩
    | cons d r' =>
      have other : kind d = false := stops'
      simp [other]
  rw [List.takeWhile_append_of_pos all, List.dropWhile_append_of_pos all, none.1, none.2, List.append_nil]
  exact ⟨rfl, rfl⟩

theorem Local.span {kind : Char → Bool} (line : kind '\n' = false) (plain : kind '\r' = false) :
    Local (span kind) (span kind) := by
  intro s a r read
  obtain ⟨rfl, rfl⟩ := Prod.mk.inj (Option.some.inj read)
  refine ⟨s.takeWhile kind, List.takeWhile_append_dropWhile.symm, fun among => ?_, fun r' same => ?_⟩
  · rw [List.mem_takeWhile_imp among] at plain
    cases plain
  · have stops : ∀ d ∈ (s.dropWhile kind).head?, kind d = false := by
      intro d first
      have other := List.head?_dropWhile_not kind s
      rw [first] at other
      simpa using other
    obtain ⟨taken, left⟩ := takeWhile_elsewhere line (fun d => List.mem_takeWhile_imp) stops same
    rw [Scanner.span, taken, left]

/-- What is left is a rest of the text. -/
theorem Local.length_le (local_ : Local p q) (read : p s = some (a, r)) : r.length ≤ s.length := by
  obtain ⟨c, rfl, -⟩ := local_ read
  simp

/-! ### Short texts -/

/-- The two read the same from each text that is shorter than this. -/
def Agree (k : ℕ) (p q : Scanner α) : Prop := ∀ s, s.length < k → p s = q s

theorem Agree.refl (p : Scanner α) : Agree k p p := fun _ _ => rfl

theorem Agree.zero : Agree 0 p q := nofun

theorem Agree.mono {m : ℕ} (agree : Agree k p q) (shorter : m ≤ k) : Agree m p q :=
  fun s short => agree s (Nat.lt_of_lt_of_le short shorter)

theorem Agree.bind {p' : Scanner α} (first : Agree k p q) (suffix : Local p p')
    (then_ : ∀ a, Agree k (f a) (g a)) : Agree k (p >>= f) (q >>= g) := by
  intro s short
  cases read : p s with
  | none => rw [bind_of_none read, bind_of_none (read ▸ (first s short).symm)]
  | some x =>
    obtain ⟨a, r⟩ := x
    rw [bind_of_some read, bind_of_some (read ▸ (first s short).symm)]
    exact then_ a r (Nat.lt_of_le_of_lt (suffix.length_le read) short)

/-- Behind a character the text is shorter. -/
theorem Agree.item_bind {f g : Char → Scanner β} (then_ : ∀ a, Agree k (f a) (g a)) :
    Agree (k + 1) (item >>= f) (item >>= g) := by
  intro s short
  cases read : item s with
  | none => rw [bind_of_none read, bind_of_none read]
  | some x =>
    obtain ⟨a, r⟩ := x
    rw [bind_of_some read, bind_of_some read]
    obtain ⟨-, rfl⟩ := item_eq_some.mp read
    exact then_ a r (Nat.lt_of_succ_lt_succ short)

theorem Agree.exactly_bind {d : Char} {f g : Unit → Scanner β} (then_ : Agree k (f ()) (g ())) :
    Agree (k + 1) (exactly d >>= f) (exactly d >>= g) := by
  rw [exactly, bind_assoc, bind_assoc]
  refine Agree.item_bind fun c => ?_
  split_ifs
  · exact then_
  · exact Agree.refl _

theorem Agree.ite {p' q' : Scanner α} {condition : Prop} [Decidable condition] (yes : Agree k p q)
    (no : Agree k p' q') : Agree k (if condition then p else p') (if condition then q else q') := by
  split_ifs
  · exact yes
  · exact no

/-! ### Ends of lines -/

/-- What is read does not end with the end of a line. -/
def Tight (p : Scanner α) : Prop :=
  ∀ ⦃s a r⦄, p s = some (a, r) → ∃ c, s = c ++ r ∧ c.getLast? ≠ some '\n'

/-- Something is read, and it does not end with the end of a line. -/
def Shut (p : Scanner α) : Prop :=
  ∀ ⦃s a r⦄, p s = some (a, r) → ∃ c, s = c ++ r ∧ c ≠ [] ∧ c.getLast? ≠ some '\n'

theorem Shut.tight (shut : Shut p) : Tight p := by
  intro s a r read
  obtain ⟨c, split, -, last⟩ := shut read
  exact ⟨c, split, last⟩

theorem Tight.pure : Tight (pure a : Scanner α) := by
  intro s b r read
  obtain ⟨rfl, rfl⟩ := Prod.mk.inj (Option.some.inj read)
  exact ⟨[], rfl, nofun⟩

theorem Shut.fail : Shut (fail : Scanner α) := nofun

theorem getLast?_append_ne {c' : List Char} (some_ : c' ≠ []) (last : c'.getLast? ≠ some '\n') :
    (c ++ c').getLast? ≠ some '\n' := by
  rw [List.getLast?_append]
  obtain ⟨d, found⟩ := Option.ne_none_iff_exists'.mp (mt List.getLast?_eq_none_iff.mp some_)
  rw [found] at last ⊢
  exact last

/-- What comes last decides. -/
theorem Shut.after {p' : Scanner α} (suffix : Local p p') (then_ : ∀ a, Shut (f a)) : Shut (p >>= f) := by
  intro s b r read
  obtain ⟨a, middle, here, later⟩ := bind_eq_some.mp read
  obtain ⟨c, rfl, -⟩ := suffix here
  obtain ⟨c', rfl, some_, last⟩ := then_ a later
  exact ⟨c ++ c', by rw [List.append_assoc], by simp [some_], getLast?_append_ne some_ last⟩

theorem Tight.bind (first : Tight p) (then_ : ∀ a, Tight (f a)) : Tight (p >>= f) := by
  intro s b r read
  obtain ⟨a, middle, here, later⟩ := bind_eq_some.mp read
  obtain ⟨c, rfl, last⟩ := first here
  obtain ⟨c', rfl, last'⟩ := then_ a later
  refine ⟨c ++ c', by rw [List.append_assoc], ?_⟩
  by_cases none : c' = []
  · rwa [none, List.append_nil]
  · exact getLast?_append_ne none last'

theorem Shut.bind (first : Shut p) (then_ : ∀ a, Tight (f a)) : Shut (p >>= f) := by
  intro s b r read
  obtain ⟨a, middle, here, later⟩ := bind_eq_some.mp read
  obtain ⟨c, rfl, some_, last⟩ := first here
  obtain ⟨c', rfl, last'⟩ := then_ a later
  refine ⟨c ++ c', by rw [List.append_assoc], by simp [some_], ?_⟩
  by_cases none : c' = []
  · rwa [none, List.append_nil]
  · exact getLast?_append_ne none last'

theorem Shut.ite {p' : Scanner α} {condition : Prop} [Decidable condition] (yes : condition → Shut p)
    (no : ¬ condition → Shut p') : Shut (if condition then p else p') := by
  split_ifs with holds
  · exact yes holds
  · exact no holds

theorem Tight.ite {p' : Scanner α} {condition : Prop} [Decidable condition] (yes : condition → Tight p)
    (no : ¬ condition → Tight p') : Tight (if condition then p else p') := by
  split_ifs with holds
  · exact yes holds
  · exact no holds

theorem Tight.peek : Tight peek := by
  intro s a r read
  obtain ⟨rfl, rfl⟩ := Prod.mk.inj (Option.some.inj read)
  exact ⟨[], rfl, nofun⟩

/-- A character ends no line, or something comes behind it. -/
theorem Shut.item_bind {f : Char → Scanner β} (line : Shut (f '\n')) (then_ : ∀ a, a ≠ '\n' → Tight (f a)) :
    Shut (item >>= f) := by
  intro s b r read
  obtain ⟨a, middle, here, later⟩ := bind_eq_some.mp read
  obtain ⟨-, rfl⟩ := item_eq_some.mp here
  by_cases ends : a = '\n'
  · subst ends
    obtain ⟨c, rfl, some_, last⟩ := line later
    exact ⟨'\n' :: c, rfl, List.cons_ne_nil _ _, getLast?_append_ne (c := ['\n']) some_ last⟩
  · obtain ⟨c, rfl, last⟩ := then_ a ends later
    refine ⟨a :: c, rfl, List.cons_ne_nil _ _, ?_⟩
    by_cases none : c = []
    · rw [none]
      simpa using ends
    · exact getLast?_append_ne (c := [a]) none last

theorem Shut.exactly {d : Char} (other : d ≠ '\n') : Shut (exactly d) :=
  Shut.item_bind (Shut.ite (fun same => absurd same.symm other) fun _ => Shut.fail) fun _ _ =>
    Tight.ite (fun _ => Tight.pure) fun _ => Shut.fail.tight

theorem Tight.span {kind : Char → Bool} (line : kind '\n' = false) : Tight (span kind) := by
  intro s a r read
  obtain ⟨rfl, rfl⟩ := Prod.mk.inj (Option.some.inj read)
  refine ⟨s.takeWhile kind, List.takeWhile_append_dropWhile.symm, fun last => ?_⟩
  rw [List.mem_takeWhile_imp (List.mem_of_getLast? last)] at line
  cases line

/-! ### What is read -/

/-- Whatever is read has the property. -/
def Yields (P : α → Prop) (p : Scanner α) : Prop := ∀ ⦃s a r⦄, p s = some (a, r) → P a

theorem Yields.bind {P : β → Prop} {Q : α → Prop} (first : Yields Q p) (then_ : ∀ a, Q a → Yields P (f a)) :
    Yields P (p >>= f) := by
  intro s b r read
  obtain ⟨a, middle, here, later⟩ := bind_eq_some.mp read
  exact then_ a (first here) later

/-- Where nothing is needed of the first. -/
theorem Yields.after {P : β → Prop} (then_ : ∀ a, Yields P (f a)) : Yields P (p >>= f) := by
  intro s b r read
  obtain ⟨a, middle, -, later⟩ := bind_eq_some.mp read
  exact then_ a later

theorem Yields.pure {P : α → Prop} (holds : P a) : Yields P (pure a : Scanner α) := by
  intro s b r read
  obtain ⟨rfl, -⟩ := Prod.mk.inj (Option.some.inj read)
  exact holds

theorem Yields.fail {P : α → Prop} : Yields P (fail : Scanner α) := nofun

theorem Yields.ite {P : α → Prop} {p' : Scanner α} {condition : Prop} [Decidable condition]
    (yes : Yields P p) (no : Yields P p') : Yields P (if condition then p else p') := by
  split_ifs
  · exact yes
  · exact no

end Scanner

end Core
