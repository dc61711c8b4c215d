import Mathlib.Logic.Function.Basic
import Nelix.Core.Program

/-!
# Pools

Any number of programs side by side on one world, each under a name of its own. Every name has its
own setting: what its effects may answer, and how the rest may move the world under it.

## Main results

`Crew.keeps`: where nobody leaves what the others rely on, every thread of a pool stays safe and
the invariant of the world holds.
-/
namespace Core

/-- Programs under way, and the world they share. -/
structure Pool (ι E : Type) (R : E → Type) (ε α W : Type) where
  threads : ι → Option (Prog E R ε α)
  world : W

/-- The settings of the names, what else moves the world, and what a name may start. -/
structure Crew (ι E : Type) (R : E → Type) (ε α W : Type) where
  setting : ι → Setting E R W
  aside : W → W → Prop
  enters : ι → Prog E R ε α → Prop

namespace Crew

variable {ι E : Type} {R : E → Type} {ε α W : Type} [DecidableEq ι] (crew : Crew ι E R ε α W)

inductive Step : Pool ι E R ε α W → Pool ι E R ε α W → Prop
  | enter {threads : ι → Option (Prog E R ε α)} {w : W} {i : ι} {p : Prog E R ε α}
      (free : threads i = none) (enters : crew.enters i p) :
      Step ⟨threads, w⟩ ⟨Function.update threads i (some p), w⟩
  | act {threads : ι → Option (Prog E R ε α)} {w w' : W} {i : ι} {e : E}
      {next : R e → Prog E R ε α} {r : R e} (here : threads i = some (.perform e next))
      (acts : (crew.setting i).act e w r w') :
      Step ⟨threads, w⟩ ⟨Function.update threads i (some (next r)), w'⟩
  | aside {threads : ι → Option (Prog E R ε α)} {w w' : W} (moves : crew.aside w w') :
      Step ⟨threads, w⟩ ⟨threads, w'⟩

/-- What a run reaches from a world where no program is under way. -/
def Reaches (w : W) (pool : Pool ι E R ε α W) : Prop :=
  Relation.ReflTransGen crew.Step ⟨fun _ => none, w⟩ pool

/-- What is known of a name: it is idle, or its program is safe. -/
def Holds (allowed : ι → E → W → Prop) (post : ι → Except ε α → W → Prop) (idle : ι → W → Prop)
    (i : ι) (w : W) : Option (Prog E R ε α) → Prop
  | none => idle i w
  | some p => (crew.setting i).Safe (allowed i) (post i) p w

/-- What has to be shown of the effects so that the threads do not disturb each other. -/
structure Sound (inv : W → Prop) (allowed : ι → E → W → Prop) (post : ι → Except ε α → W → Prop)
    (idle : ι → W → Prop) : Prop where
  keeps : ∀ i e w r w', inv w → allowed i e w → (crew.setting i).act e w r w' → inv w'
  spares : ∀ i j e w r w', j ≠ i → inv w → allowed i e w → (crew.setting i).act e w r w' →
    (crew.setting j).rely w w'
  aside : ∀ w w', inv w → crew.aside w w' → inv w' ∧ ∀ i, (crew.setting i).rely w w'
  enters : ∀ i p w, crew.enters i p → inv w → idle i w →
    (crew.setting i).Safe (allowed i) (post i) p w
  waits : ∀ i w w', idle i w → (crew.setting i).rely w w' → idle i w'

variable {crew} {allowed : ι → E → W → Prop} {post : ι → Except ε α → W → Prop}
  {idle : ι → W → Prop} {inv : W → Prop} {w w' : W} {pool pool' : Pool ι E R ε α W}

omit [DecidableEq ι] in
theorem Sound.later (sound : crew.Sound inv allowed post idle) {i : ι}
    {p : Option (Prog E R ε α)} (holds : crew.Holds allowed post idle i w p)
    (moves : (crew.setting i).rely w w') : crew.Holds allowed post idle i w' p := by
  cases p with
  | none => exact sound.waits i w w' holds moves
  | some p => exact holds.later moves

theorem Sound.step (sound : crew.Sound inv allowed post idle) (step : crew.Step pool pool')
    (start : inv pool.world)
    (held : ∀ i, crew.Holds allowed post idle i pool.world (pool.threads i)) :
    inv pool'.world ∧ ∀ i, crew.Holds allowed post idle i pool'.world (pool'.threads i) := by
  cases step with
  | @enter threads w i p free enters =>
    refine ⟨start, fun j => ?_⟩
    by_cases same : j = i
    · subst same
      have before : crew.Holds allowed post idle j w none := free ▸ held j
      simp only [Function.update_self]
      exact sound.enters j p w enters start before
    · simpa only [Function.update_of_ne same] using held j
  | @act threads w w' i e next r here acts =>
    have mine : crew.Holds allowed post idle i w (some (.perform e next)) := here ▸ held i
    have good := mine w ((crew.setting i).refl w)
    refine ⟨sound.keeps i e w r w' start good.1 acts, fun j => ?_⟩
    by_cases same : j = i
    · subst same
      simp only [Function.update_self]
      exact good.2 r w' acts
    · simp only [Function.update_of_ne same]
      exact sound.later (held j) (sound.spares i j e w r w' same start good.1 acts)
  | @aside threads w w' moves =>
    have both := sound.aside w w' start moves
    exact ⟨both.1, fun i => sound.later (held i) (both.2 i)⟩

/-- Threads that spare each other keep the invariant, and each goes on safely. -/
theorem Sound.reaches (sound : crew.Sound inv allowed post idle) (start : inv w)
    (quiet : ∀ i, idle i w) (reached : crew.Reaches w pool) :
    inv pool.world ∧ ∀ i, crew.Holds allowed post idle i pool.world (pool.threads i) := by
  induction reached with
  | refl => exact ⟨start, quiet⟩
  | tail _ step ih => exact sound.step step ih.1 ih.2

/-! ### Runs of one thread -/

/-- A handler whose answers the setting admits makes steps of the pool. -/
theorem steps_advance {handle : (e : E) → W → R e × W} {ok : E → W → Bool} {i : ι}
    (admitted : ∀ e w, ok e w = true → (crew.setting i).act e w (handle e w).1 (handle e w).2)
    {threads : ι → Option (Prog E R ε α)} {p : Prog E R ε α} {n : Nat}
    (complies : p.complies handle ok n w = true) :
    Relation.ReflTransGen crew.Step ⟨Function.update threads i (some p), w⟩
      ⟨Function.update threads i (some (p.advance handle n w).1), (p.advance handle n w).2⟩ := by
  induction n generalizing p w with
  | zero => exact .refl
  | succ n ih =>
    cases p with
    | done r => exact .refl
    | perform e next =>
      simp only [Prog.complies, Bool.and_eq_true] at complies
      have first : crew.Step _ _ :=
        .act (Function.update_self i (some (.perform e next)) threads) (admitted e w complies.1)
      rw [Function.update_idem] at first
      exact .head first (ih complies.2)

/-- A handler that the setting admits wherever `held` is kept runs a thread to its end. -/
theorem steps_run {handle : (e : E) → W → R e × W} {held : W → Prop} {i : ι}
    (admitted : ∀ e w, held w → (crew.setting i).act e w (handle e w).1 (handle e w).2)
    (keeps : ∀ e w, held w → held (handle e w).2) {threads : ι → Option (Prog E R ε α)}
    (p : Prog E R ε α) (start : held w) :
    held (p.run handle w).2 ∧
    Relation.ReflTransGen crew.Step ⟨Function.update threads i (some p), w⟩
      ⟨Function.update threads i (some (.done (p.run handle w).1)), (p.run handle w).2⟩ := by
  induction p generalizing w with
  | done r => exact ⟨start, .refl⟩
  | perform e next ih =>
    obtain ⟨ends, rest⟩ := ih _ (keeps e w start)
    have first : crew.Step _ _ :=
      .act (Function.update_self i (some (.perform e next)) threads) (admitted e w start)
    rw [Function.update_idem] at first
    exact ⟨ends, .head first rest⟩

end Crew

end Core
