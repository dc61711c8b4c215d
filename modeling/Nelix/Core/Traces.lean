import Nelix.Core.Program

/-!
# Traces of a program

A trace lists the effects a program performed with the answers it got. `Yields p t r` says that the
program can end with `r` after the trace `t`, whatever gave the answers. The lemmas take a trace
apart along the program's structure. `logged` is the setting whose world is the trace itself, so that
the rules of `Safe` speak about traces; `Safe.yields` is the way back.
-/
namespace Core.Prog

variable {E : Type} {R : E → Type} {ε α β W : Type}

/-- An effect with its answer. -/
abbrev Event (E : Type) (R : E → Type) : Type := (e : E) × R e

inductive Yields : Prog E R ε α → List (Event E R) → Except ε α → Prop
  | done (r : Except ε α) : Yields (.done r) [] r
  | perform {e : E} {next : R e → Prog E R ε α} (a : R e) {t : List (Event E R)}
      {r : Except ε α} (rest : Yields (next a) t r) : Yields (.perform e next) (⟨e, a⟩ :: t) r

variable {p : Prog E R ε α} {t : List (Event E R)}

@[simp] theorem yields_done {r r' : Except ε α} :
    Yields (.done r : Prog E R ε α) t r' ↔ t = [] ∧ r' = r := by
  constructor
  · rintro ⟨⟩
    exact ⟨rfl, rfl⟩
  · rintro ⟨rfl, rfl⟩
    exact .done _

@[simp] theorem yields_pure {a : α} {r : Except ε α} :
    Yields (pure a : Prog E R ε α) t r ↔ t = [] ∧ r = .ok a := yields_done

@[simp] theorem yields_raise {x : ε} {r : Except ε α} :
    Yields (raise x : Prog E R ε α) t r ↔ t = [] ∧ r = .error x := yields_done

theorem yields_perform {e : E} {next : R e → Prog E R ε α} {r : Except ε α} :
    Yields (.perform e next) t r ↔ ∃ a t', t = ⟨e, a⟩ :: t' ∧ Yields (next a) t' r := by
  constructor
  · rintro ⟨⟩
    exact ⟨_, _, rfl, ‹_›⟩
  · rintro ⟨a, t', rfl, rest⟩
    exact .perform a rest

/-- A sequence ends in its second part, or raises in its first. -/
theorem yields_bind {f : α → Prog E R ε β} {r : Except ε β} :
    Yields (p >>= f) t r ↔
      (∃ a t₁ t₂, t = t₁ ++ t₂ ∧ Yields p t₁ (.ok a) ∧ Yields (f a) t₂ r) ∨
        ∃ x, Yields p t (.error x) ∧ r = .error x := by
  induction p generalizing t with
  | done outcome =>
    cases outcome with
    | ok a =>
      simp only [ok_bind, yields_done, Except.ok.injEq, reduceCtorEq, and_false, false_and,
        exists_false, or_false]
      constructor
      · exact fun rest => ⟨a, [], t, rfl, ⟨rfl, rfl⟩, rest⟩
      · rintro ⟨_, _, t₂, rfl, ⟨rfl, rfl⟩, rest⟩
        exact rest
    | error x =>
      simp only [error_bind, yields_done, reduceCtorEq, and_false, false_and, exists_false,
        false_or, Except.error.injEq]
      constructor
      · rintro ⟨rfl, rfl⟩
        exact ⟨x, ⟨rfl, rfl⟩, rfl⟩
      · rintro ⟨_, ⟨rfl, rfl⟩, rfl⟩
        exact ⟨rfl, rfl⟩
  | perform e next ih =>
    simp only [perform_bind, yields_perform]
    constructor
    · rintro ⟨a, t', rfl, rest⟩
      rcases (ih a).mp rest with ⟨b, t₁, t₂, rfl, first, second⟩ | ⟨x, raised, rfl⟩
      · exact .inl ⟨b, ⟨e, a⟩ :: t₁, t₂, rfl, ⟨a, t₁, rfl, first⟩, second⟩
      · exact .inr ⟨x, ⟨a, t', rfl, raised⟩, rfl⟩
    · rintro (⟨b, _, t₂, rfl, ⟨a, t₁, rfl, first⟩, second⟩ | ⟨x, ⟨a, t', rfl, raised⟩, rfl⟩)
      · exact ⟨a, t₁ ++ t₂, rfl, (ih a).mpr (.inl ⟨b, t₁, t₂, rfl, first, second⟩)⟩
      · exact ⟨a, t', rfl, (ih a).mpr (.inr ⟨x, raised, rfl⟩)⟩

theorem yields_otherwise {p q : Prog E R ε (Option β)} {r : Except ε (Option β)} :
    Yields (p.otherwise q) t r ↔
      (∃ t₁ t₂, t = t₁ ++ t₂ ∧ Yields p t₁ (.ok none) ∧ Yields q t₂ r) ∨
        (r ≠ .ok none ∧ Yields p t r) := by
  rw [otherwise, yields_bind]
  constructor
  · rintro (⟨verdict, t₁, t₂, rfl, first, second⟩ | ⟨x, raised, rfl⟩)
    · cases verdict with
      | none => exact .inl ⟨t₁, t₂, rfl, first, second⟩
      | some verdict =>
        obtain ⟨rfl, rfl⟩ := yields_pure.mp second
        exact .inr ⟨by simp, by simpa using first⟩
    · exact .inr ⟨by simp, raised⟩
  · rintro (⟨t₁, t₂, rfl, first, second⟩ | ⟨stopped, first⟩)
    · exact .inl ⟨none, t₁, t₂, rfl, first, second⟩
    · rcases r with x | none | verdict
      · exact .inr ⟨x, first, rfl⟩
      · exact absurd rfl stopped
      · exact .inl ⟨some verdict, t, [], by simp, first, yields_pure.mpr ⟨rfl, rfl⟩⟩

/-- A body with a handler ends as the body does, or in the handler. -/
theorem yields_rescue {handler : ε → Prog E R ε α} {r : Except ε α} :
    Yields (p.rescue handler) t r ↔
      (∃ a, Yields p t (.ok a) ∧ r = .ok a) ∨
        ∃ x t₁ t₂, t = t₁ ++ t₂ ∧ Yields p t₁ (.error x) ∧ Yields (handler x) t₂ r := by
  induction p generalizing t with
  | done outcome =>
    cases outcome with
    | ok a =>
      simp only [rescue, yields_done, Except.ok.injEq, reduceCtorEq, and_false, false_and,
        exists_false, or_false]
      constructor
      · rintro ⟨rfl, rfl⟩
        exact ⟨a, ⟨rfl, rfl⟩, rfl⟩
      · rintro ⟨_, ⟨rfl, rfl⟩, rfl⟩
        exact ⟨rfl, rfl⟩
    | error x =>
      simp only [rescue, yields_done, reduceCtorEq, and_false, false_and, exists_false,
        false_or, Except.error.injEq]
      constructor
      · exact fun rest => ⟨x, [], t, rfl, ⟨rfl, rfl⟩, rest⟩
      · rintro ⟨_, _, t₂, rfl, ⟨rfl, rfl⟩, rest⟩
        exact rest
  | perform e next ih =>
    simp only [rescue, yields_perform]
    constructor
    · rintro ⟨a, t', rfl, rest⟩
      rcases (ih a).mp rest with ⟨b, body, rfl⟩ | ⟨x, t₁, t₂, rfl, body, handled⟩
      · exact .inl ⟨b, ⟨a, t', rfl, body⟩, rfl⟩
      · exact .inr ⟨x, ⟨e, a⟩ :: t₁, t₂, rfl, ⟨a, t₁, rfl, body⟩, handled⟩
    · rintro (⟨b, ⟨a, t', rfl, body⟩, rfl⟩ | ⟨x, _, t₂, rfl, ⟨a, t₁, rfl, body⟩, handled⟩)
      · exact ⟨a, t', rfl, (ih a).mpr (.inl ⟨b, body, rfl⟩)⟩
      · exact ⟨a, t₁ ++ t₂, rfl, (ih a).mpr (.inr ⟨x, t₁, t₂, rfl, body, handled⟩)⟩

/-- The clean-up comes last; unless it raises, the body's end stands. -/
theorem yields_ensure {cleanup : Prog E R ε Unit} {r : Except ε α} :
    Yields (p.ensure cleanup) t r ↔
      ∃ r' t₁ t₂, t = t₁ ++ t₂ ∧ Yields p t₁ r' ∧
        Yields (cleanup >>= fun _ => (.done r' : Prog E R ε α)) t₂ r := by
  induction p generalizing t with
  | done outcome =>
    simp only [ensure, yields_done]
    constructor
    · exact fun rest => ⟨outcome, [], t, rfl, ⟨rfl, rfl⟩, rest⟩
    · rintro ⟨_, _, t₂, rfl, ⟨rfl, rfl⟩, rest⟩
      exact rest
  | perform e next ih =>
    simp only [ensure, yields_perform]
    constructor
    · rintro ⟨a, t', rfl, rest⟩
      obtain ⟨r', t₁, t₂, rfl, body, last⟩ := (ih a).mp rest
      exact ⟨r', ⟨e, a⟩ :: t₁, t₂, rfl, ⟨a, t₁, rfl, body⟩, last⟩
    · rintro ⟨r', _, t₂, rfl, ⟨a, t₁, rfl, body⟩, last⟩
      exact ⟨a, t₁ ++ t₂, rfl, (ih a).mpr ⟨r', t₁, t₂, rfl, body, last⟩⟩

/-- The answers decide how a program ends. -/
theorem Yields.det {r r' : Except ε α} (left : Yields p t r) (right : Yields p t r') : r = r' := by
  induction left with
  | done r =>
    rw [yields_done] at right
    exact right.2.symm
  | perform a rest ih =>
    obtain ⟨a', t', same, right⟩ := yields_perform.mp right
    simp only [List.cons.injEq, Sigma.mk.injEq, heq_eq_eq, true_and] at same
    obtain ⟨rfl, rfl⟩ := same
    exact ih right

/-- What a program is confined to, seen on its traces. -/
theorem Only.events {allowed : E → Prop} {r : Except ε α} (only : Only allowed p)
    (yields : Yields p t r) : ∀ ev ∈ t, allowed ev.1 := by
  induction yields with
  | done r => exact fun ev member => by cases member
  | perform a rest ih =>
    intro ev member
    rcases List.mem_cons.mp member with rfl | member
    · exact only.1
    · exact ih (only.2 a) ev member

/-! ### Traces of a run -/

/-- What one handler makes of a program is one of its traces. -/
def trail (handle : (e : E) → W → R e × W) : Prog E R ε α → W → List (Event E R)
  | done _, _ => []
  | perform e next, w =>
    ⟨e, (handle e w).1⟩ :: (next (handle e w).1).trail handle (handle e w).2

theorem yields_run (handle : (e : E) → W → R e × W) (p : Prog E R ε α) (w : W) :
    Yields p (p.trail handle w) (p.run handle w).1 := by
  induction p generalizing w with
  | done r => exact .done r
  | perform e next ih => exact .perform _ (ih _ _)

/-- The rule for a loop over traces: what each step leaves of `inv`, the whole visit leaves. -/
theorem yields_visit {step : α → Prog E R ε (Option β)} {items : List α}
    {r : Except ε (Option β)} (good : List (Event E R) → Prop) (start : good [])
    (more : ∀ a t₁ t₂, good t₁ → Yields (step a) t₂ (.ok none) → good (t₁ ++ t₂))
    (yields : Yields (visit step items) t r) :
    (good t ∧ r = .ok none) ∨
      ∃ t₁ t₂ a, a ∈ items ∧ t = t₁ ++ t₂ ∧ good t₁ ∧ r ≠ .ok none ∧ Yields (step a) t₂ r := by
  suffices general : ∀ done, good done → ∀ t, Yields (visit step items) t r →
      (good (done ++ t) ∧ r = .ok none) ∨
        ∃ t₁ t₂ a, a ∈ items ∧ t = t₁ ++ t₂ ∧ good (done ++ t₁) ∧ r ≠ .ok none ∧
          Yields (step a) t₂ r by
    simpa using general [] start t yields
  clear yields
  induction items with
  | nil =>
    intro done held t yields
    rw [visit, yields_pure] at yields
    obtain ⟨rfl, rfl⟩ := yields
    exact .inl ⟨by simpa using held, rfl⟩
  | cons a rest ih =>
    intro done held t yields
    rw [visit, yields_otherwise] at yields
    rcases yields with ⟨t₁, t₂, rfl, here, later⟩ | ⟨stop, here⟩
    · have held' := more a done t₁ held here
      rcases ih (done ++ t₁) held' t₂ later with
        ⟨all, ended⟩ | ⟨u₁, u₂, b, member, rfl, some, stop, step⟩
      · exact .inl ⟨by rwa [← List.append_assoc], ended⟩
      · exact .inr ⟨t₁ ++ u₁, u₂, b, List.mem_cons_of_mem a member, by simp,
          by rwa [← List.append_assoc], stop, step⟩
    · exact .inr ⟨[], t, a, by simp, by simp, by simpa using held, stop, here⟩

end Core.Prog

namespace Core.Setting

open Prog

variable {E : Type} {R : E → Type} {ε α W : Type}

/-! ### Programs that keep a record -/

/-- The world is the trace so far, and every effect adds to it; any answer may come. -/
def logged : Setting E R (List (Event E R)) where
  rely t t' := t = t'
  act e t a t' := t' = t ++ [⟨e, a⟩]
  refl _ := rfl
  trans := Eq.trans

variable {allowed : E → List (Event E R) → Prop} {post : Except ε α → List (Event E R) → Prop}
  {p : Prog E R ε α} {t₀ t : List (Event E R)} {r : Except ε α}

/-- What is safe among records is so on every trace: each effect was allowed after what came before
it, and the end meets `post`. -/
theorem Safe.yields (safe : logged.Safe allowed post p t₀) (yields : Yields p t r) :
    post r (t₀ ++ t) ∧ ∀ t₁ ev t₂, t = t₁ ++ ev :: t₂ → allowed ev.1 (t₀ ++ t₁) := by
  induction yields generalizing t₀ with
  | done r =>
    refine ⟨?_, fun t₁ ev t₂ cut => ?_⟩
    · rw [List.append_nil]
      exact safe t₀ rfl
    · simp at cut
  | @perform e next a t r rest ih =>
    obtain ⟨here, later⟩ := safe t₀ rfl
    obtain ⟨ends, between⟩ := ih (later a _ rfl)
    refine ⟨by simpa using ends, fun t₁ ev t₂ cut => ?_⟩
    cases t₁ with
    | nil =>
      obtain ⟨rfl, -⟩ := List.cons.inj cut
      simpa using here
    | cons first t₁ =>
      obtain ⟨rfl, tail⟩ := List.cons.inj cut
      simpa using between t₁ ev t₂ tail

/-- A record only grows. -/
theorem Safe.grows (safe : logged.Safe allowed post p t) :
    logged.Safe allowed (fun r t' => t <+: t' ∧ post r t') p t := by
  suffices general : ∀ t', t <+: t' → logged.Safe allowed post p t' →
      logged.Safe allowed (fun r t' => t <+: t' ∧ post r t') p t' from
    general t (List.prefix_refl t) safe
  clear safe
  induction p with
  | done r =>
    rintro t' grown safe _ rfl
    exact ⟨grown, safe t' rfl⟩
  | perform e next ih =>
    rintro t' grown safe _ rfl
    obtain ⟨here, later⟩ := safe t' rfl
    refine ⟨here, ?_⟩
    rintro a _ rfl
    exact ih a _ (grown.trans (List.prefix_append t' _)) (later a _ rfl)

end Core.Setting
