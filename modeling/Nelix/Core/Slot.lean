import Nelix.Core.Machine
import Mathlib.Data.List.Induction
import Mathlib.Data.Option.Basic

/-!
# A slot that outputs fill and clear

Some outputs of a system put a value in a slot, others take a given value out. `held` is what the
slot holds after a list of outputs, `MeetsAt` says what each output finds in it. `Released` says
in terms of positions that a value is gone before a marked output comes; `EmptyAt` says it along
the list, and `released_iff` connects them.
-/
namespace Core

/-- A slot for values `κ`, driven by outputs `ω`. -/
structure Slot (ω κ : Type*) where
  fills : ω → Option κ
  clears : κ → ω → Bool

namespace Slot

variable {ω κ : Type*} (s : Slot ω κ)

/-- A new value supersedes the old one. -/
def next (value : Option κ) (o : ω) : Option κ :=
  match s.fills o with
  | some k => some k
  | none => value.filter fun k => !s.clears k o

/-- What the slot holds after a list of outputs. -/
def held (value : Option κ) (os : List ω) : Option κ := os.foldl s.next value

@[simp] theorem held_nil (value : Option κ) : s.held value [] = value := rfl

@[simp] theorem held_cons (value : Option κ) (o : ω) (rest : List ω) :
    s.held value (o :: rest) = s.held (s.next value o) rest := rfl

theorem held_append (value : Option κ) (os ps : List ω) :
    s.held value (os ++ ps) = s.held (s.held value os) ps := List.foldl_append

/-- An output that supersedes or clears the value. -/
def Ends (k : κ) (o : ω) : Prop := (s.fills o).isSome ∨ s.clears k o = true

theorem next_some_of_not_ends {k : κ} {o : ω} (stays : ¬ s.Ends k o) :
    s.next (some k) o = some k := by
  obtain ⟨unfilled, uncleared⟩ := not_or.mp stays
  have unfilled : s.fills o = none := by simpa using unfilled
  simp [next, unfilled, uncleared]

/-- A value that nothing clears is there, or a newer one. -/
theorem held_isSome_of_uncleared {os : List ω} (stays : ∀ o ∈ os, ∀ k, s.clears k o = false)
    {value : Option κ} (present : value.isSome) : (s.held value os).isSome := by
  induction os generalizing value with
  | nil => exact present
  | cons o rest ih =>
    refine ih (fun x member => stays x (by simp [member])) ?_
    obtain ⟨k, rfl⟩ := Option.isSome_iff_exists.mp present
    cases filled : s.fills o <;> simp [next, filled, stays o (by simp)]

/-- The slot holds the last value that was filled in and not ended since. -/
theorem held_eq_some_iff (os : List ω) (k : κ) :
    s.held none os = some k ↔
      ∃ pre o post, os = pre ++ o :: post ∧ s.fills o = some k ∧ ∀ x ∈ post, ¬ s.Ends k x := by
  induction os using List.reverseRecOn with
  | nil => simp
  | append_singleton os o ih =>
    rw [held_append]
    constructor
    · intro holds
      simp only [held_cons, held_nil, next] at holds
      cases filled : s.fills o with
      | some k' =>
        simp only [filled, Option.some.injEq] at holds
        exact ⟨os, o, [], rfl, holds ▸ filled, by simp⟩
      | none =>
        simp only [filled, Option.filter_eq_some_iff, Bool.not_eq_true'] at holds
        obtain ⟨pre, first, post, split, fills, lasts⟩ := ih.mp holds.1
        refine ⟨pre, first, post ++ [o], by simp [split], fills, ?_⟩
        intro x member
        rcases List.mem_append.mp member with old | new
        · exact lasts x old
        · rw [List.mem_singleton.mp new]
          simp [Ends, filled, holds.2]
    · rintro ⟨pre, first, post, split, fills, lasts⟩
      rcases List.eq_nil_or_concat post with rfl | ⟨init, last, rfl⟩
      · obtain ⟨-, same⟩ := List.append_inj' split rfl
        rw [List.singleton_inj.mp same]
        simp [next, fills]
      · have whole : os ++ [o] = (pre ++ first :: init) ++ [last] := by simpa using split
        obtain ⟨same, tail⟩ := List.append_inj' whole rfl
        have lastOne : o = last := List.singleton_inj.mp tail
        have holds : s.held none os = some k :=
          ih.mpr ⟨pre, first, init, same, fills, fun x member => lasts x (by simp [member])⟩
        rw [holds, held_cons, held_nil]
        exact s.next_some_of_not_ends (lasts o (by simp [lastOne]))

/-! ### What an output finds in the slot -/

/-- Each output finds in the slot what `cond` asks of it. -/
def MeetsAt (cond : ω → Option κ → Prop) (value : Option κ) : List ω → Prop
  | [] => True
  | o :: rest => cond o value ∧ MeetsAt cond (s.next value o) rest

@[simp] theorem meetsAt_nil (cond : ω → Option κ → Prop) (value : Option κ) :
    s.MeetsAt cond value [] := trivial

@[simp] theorem meetsAt_cons (cond : ω → Option κ → Prop) (value : Option κ) (o : ω)
    (rest : List ω) :
    s.MeetsAt cond value (o :: rest) ↔ cond o value ∧ s.MeetsAt cond (s.next value o) rest :=
  Iff.rfl

theorem meetsAt_append (cond : ω → Option κ → Prop) (value : Option κ) (os ps : List ω) :
    s.MeetsAt cond value (os ++ ps) ↔
      s.MeetsAt cond value os ∧ s.MeetsAt cond (s.held value os) ps := by
  induction os generalizing value with
  | nil => simp
  | cons o rest ih => simp only [List.cons_append, meetsAt_cons, held_cons, ih, and_assoc]

theorem meetsAt_iff (cond : ω → Option κ → Prop) (value : Option κ) (os : List ω) :
    s.MeetsAt cond value os ↔
      ∀ pre o post, os = pre ++ o :: post → cond o (s.held value pre) := by
  constructor
  · rintro meets pre o post rfl
    rw [meetsAt_append] at meets
    exact meets.2.1
  · intro meets
    induction os generalizing value with
    | nil => trivial
    | cons o rest ih =>
      refine ⟨meets [] o rest rfl, ih _ ?_⟩
      intro pre o' post split
      exact meets (o :: pre) o' post (by rw [split, List.cons_append])

/-- Where an output that fills finds the slot empty, a value is cleared before the next one is
filled in. -/
theorem cleared_of_meetsAt {cond : ω → Option κ → Prop} {k : κ} {mid post : List ω} {o : ω}
    (empty : ∀ x v, (s.fills x).isSome → cond x v → v = none)
    (meets : s.MeetsAt cond (some k) (mid ++ o :: post)) (fills : (s.fills o).isSome) :
    ∃ x ∈ mid, s.clears k x = true := by
  induction mid with
  | nil => simpa using empty o _ fills meets.1
  | cons x rest ih =>
    by_cases ends : s.Ends k x
    · rcases ends with filled | cleared
      · simpa using empty x _ filled meets.1
      · exact ⟨x, by simp, cleared⟩
    · -- the value stands: the rest of the list finds it
      have rest' := meets.2
      rw [s.next_some_of_not_ends ends] at rest'
      obtain ⟨y, member, cleared⟩ := ih rest'
      exact ⟨y, by simp [member], cleared⟩

/-- A machine whose state tracks the slot: what one step meets, a whole run meets. -/
theorem meetsAt_outputs {σ ι : Type*} (m : Machine σ ι ω) (cond : ω → Option κ → Prop)
    {tracks : σ → Option κ → Prop}
    (step : ∀ st v i, tracks st v → s.MeetsAt cond v (m.step st i).2 ∧
      tracks (m.step st i).1 (s.held v (m.step st i).2))
    {st : σ} {v : Option κ} (start : tracks st v) (is : List ι) :
    s.MeetsAt cond v (m.outputs st is) ∧ tracks (m.after st is) (s.held v (m.outputs st is)) := by
  induction is generalizing st v with
  | nil => exact ⟨trivial, start⟩
  | cons i rest ih =>
    obtain ⟨meets, kept⟩ := step st v i start
    obtain ⟨later, tracked⟩ := ih kept
    rw [Machine.outputs_cons, meetsAt_append, held_append]
    exact ⟨⟨meets, later⟩, tracked⟩

/-! ### Empty at each mark -/

/-- Every value that was filled in before a marked output is superseded or cleared between. -/
def Released (mark : ω → Bool) (os : List ω) : Prop :=
  ∀ pre o mid m post k, os = pre ++ o :: (mid ++ m :: post) → s.fills o = some k →
    mark m = true → ∃ x ∈ mid, s.Ends k x

/-- The slot is empty at each marked output. -/
def EmptyAt (mark : ω → Bool) (value : Option κ) : List ω → Prop
  | [] => True
  | o :: rest => (mark o = true → value = none) ∧ EmptyAt mark (s.next value o) rest

@[simp] theorem emptyAt_nil (mark : ω → Bool) (value : Option κ) : s.EmptyAt mark value [] :=
  trivial

@[simp] theorem emptyAt_cons (mark : ω → Bool) (value : Option κ) (o : ω) (rest : List ω) :
    s.EmptyAt mark value (o :: rest) ↔
      (mark o = true → value = none) ∧ s.EmptyAt mark (s.next value o) rest := Iff.rfl

theorem emptyAt_iff_meetsAt (mark : ω → Bool) (value : Option κ) (os : List ω) :
    s.EmptyAt mark value os ↔ s.MeetsAt (fun o v => mark o = true → v = none) value os := by
  induction os generalizing value with
  | nil => rfl
  | cons o rest ih => rw [emptyAt_cons, meetsAt_cons, ih]

theorem emptyAt_append (mark : ω → Bool) (value : Option κ) (os ps : List ω) :
    s.EmptyAt mark value (os ++ ps) ↔
      s.EmptyAt mark value os ∧ s.EmptyAt mark (s.held value os) ps := by
  simp only [emptyAt_iff_meetsAt, meetsAt_append]

theorem emptyAt_of_unmarked {mark : ω → Bool} {os : List ω} (value : Option κ)
    (unmarked : ∀ o ∈ os, mark o = false) : s.EmptyAt mark value os := by
  induction os generalizing value with
  | nil => trivial
  | cons o rest ih =>
    refine ⟨fun marked => ?_, ih _ fun x member => unmarked x (by simp [member])⟩
    simp [unmarked o (by simp)] at marked

theorem emptyAt_iff (mark : ω → Bool) (value : Option κ) (os : List ω) :
    s.EmptyAt mark value os ↔
      ∀ pre m post, os = pre ++ m :: post → mark m = true → s.held value pre = none := by
  rw [emptyAt_iff_meetsAt, meetsAt_iff]

theorem released_iff (mark : ω → Bool) (os : List ω) :
    s.Released mark os ↔ s.EmptyAt mark none os := by
  rw [emptyAt_iff]
  constructor
  · intro released pre m post split marked
    cases holds : s.held none pre with
    | none => rfl
    | some k =>
      obtain ⟨before, o, mid, inner, fills, lasts⟩ := (s.held_eq_some_iff pre k).mp holds
      obtain ⟨x, member, ends⟩ :=
        released before o mid m post k (by simp [split, inner]) fills marked
      exact absurd ends (lasts x member)
  · intro empty pre o mid m post k split fills marked
    by_contra lasting
    have holds : s.held none (pre ++ o :: mid) = some k :=
      (s.held_eq_some_iff _ k).mpr
        ⟨pre, o, mid, rfl, fills, fun x member ends => lasting ⟨x, member, ends⟩⟩
    have gone := empty (pre ++ o :: mid) m post (by simp [split]) marked
    simp [holds] at gone

end Slot

end Core
