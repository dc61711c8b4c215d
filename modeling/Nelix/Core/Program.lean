import Mathlib.Logic.Relation

/-!
# Interactive programs

A program ends with a value or an exception, or performs an effect and goes on with the answer.
`run` answers the effects one after another from a state that nobody else touches. `Safe` speaks
about a program among others: between any two of its effects the world may move by `rely`, and
whenever an effect is performed it has to be allowed.

## Main results

`Safe.reach`: whatever the others do within `rely`, a safe program performs only what is allowed.

`Safe.bind`, `Safe.rescue`, `Safe.visit`: the rules for sequences, for handlers and for loops.

`Last.bind`, `Last.visit`: the rules for what a program performs behind an effect.
-/
namespace Core

/-- A program over effects `E` whose answers have the types `R`. -/
inductive Prog (E : Type) (R : E → Type) (ε α : Type) : Type
  | done (outcome : Except ε α)
  | perform (e : E) (next : R e → Prog E R ε α)

namespace Prog

variable {E : Type} {R : E → Type} {ε α β W : Type}

protected def bind : Prog E R ε α → (α → Prog E R ε β) → Prog E R ε β
  | done (.ok a), f => f a
  | done (.error x), _ => done (.error x)
  | perform e next, f => perform e fun r => (next r).bind f

instance : Monad (Prog E R ε) where
  pure a := done (.ok a)
  bind := Prog.bind

def raise (x : ε) : Prog E R ε α := done (.error x)

/-- Goes on in the handler when the body raises. -/
def rescue : Prog E R ε α → (ε → Prog E R ε α) → Prog E R ε α
  | done (.ok a), _ => done (.ok a)
  | done (.error x), handler => handler x
  | perform e next, handler => perform e fun r => (next r).rescue handler

/-- Runs the clean-up however the body ends. -/
def ensure : Prog E R ε α → Prog E R ε Unit → Prog E R ε α
  | done r, cleanup => cleanup.bind fun _ => done r
  | perform e next, cleanup => perform e fun r => (next r).ensure cleanup

/-- Goes on when there is no verdict yet. -/
def otherwise (p q : Prog E R ε (Option β)) : Prog E R ε (Option β) := do
  match ← p with
  | some verdict => pure (some verdict)
  | none => q

/-- Visits a list until a step has a verdict. -/
def visit (step : α → Prog E R ε (Option β)) : List α → Prog E R ε (Option β)
  | [] => pure none
  | a :: rest => (step a).otherwise (visit step rest)

@[simp] theorem ok_bind (a : α) (f : α → Prog E R ε β) :
    ((done (.ok a) : Prog E R ε α) >>= f) = f a := rfl

@[simp] theorem error_bind (x : ε) (f : α → Prog E R ε β) :
    ((done (.error x) : Prog E R ε α) >>= f) = done (.error x) := rfl

@[simp] theorem perform_bind (e : E) (next : R e → Prog E R ε α) (f : α → Prog E R ε β) :
    (perform e next >>= f) = perform e fun r => next r >>= f := rfl

protected theorem bind_assoc {γ : Type} (p : Prog E R ε α) (f : α → Prog E R ε β)
    (g : β → Prog E R ε γ) : (p >>= f) >>= g = p >>= fun a => f a >>= g := by
  induction p with
  | done r => cases r <;> rfl
  | perform e next ih =>
    show perform e (fun r => (next r >>= f) >>= g) = perform e fun r => next r >>= fun a => f a >>= g
    exact congrArg (perform e) (funext ih)

/-! ### Alone -/

/-- Answers every effect in turn. -/
def run (handle : (e : E) → W → R e × W) : Prog E R ε α → W → Except ε α × W
  | done r, w => (r, w)
  | perform e next, w => (next (handle e w).1).run handle (handle e w).2

variable {handle : (e : E) → W → R e × W}

@[simp] theorem run_done (r : Except ε α) (w : W) :
    (done r : Prog E R ε α).run handle w = (r, w) := rfl

@[simp] theorem run_perform (e : E) (next : R e → Prog E R ε α) (w : W) :
    (perform e next).run handle w = (next (handle e w).1).run handle (handle e w).2 := rfl

theorem run_bind (p : Prog E R ε α) (f : α → Prog E R ε β) (w : W) :
    (p >>= f).run handle w =
      match p.run handle w with
      | (.ok a, w') => (f a).run handle w'
      | (.error x, w') => (.error x, w') := by
  induction p generalizing w with
  | done outcome => cases outcome <;> rfl
  | perform e next ih => exact ih (handle e w).1 (handle e w).2

/-- A body is answered first, and its handler where it raises. -/
theorem run_rescue (p : Prog E R ε α) (handler : ε → Prog E R ε α) (w : W) :
    (p.rescue handler).run handle w =
      match p.run handle w with
      | (.ok a, w') => (.ok a, w')
      | (.error x, w') => (handler x).run handle w' := by
  induction p generalizing w with
  | done outcome => cases outcome <;> rfl
  | perform e next ih => exact ih (handle e w).1 (handle e w).2

/-- A body and its clean-up are answered one after the other. -/
theorem run_ensure (p : Prog E R ε α) (cleanup : Prog E R ε Unit) (w : W) :
    (p.ensure cleanup).run handle w =
      (cleanup >>= fun _ => (done (p.run handle w).1 : Prog E R ε α)).run handle
        (p.run handle w).2 := by
  induction p generalizing w with
  | done outcome => rfl
  | perform e next ih => exact ih (handle e w).1 (handle e w).2

/-- One step of a loop, and the rest of it where the step has no verdict. -/
theorem run_visit_cons (step : α → Prog E R ε (Option β)) (a : α) (rest : List α) (w : W) :
    (visit step (a :: rest)).run handle w =
      match (step a).run handle w with
      | (.ok none, w') => (visit step rest).run handle w'
      | (.ok (some verdict), w') => (.ok (some verdict), w')
      | (.error x, w') => (.error x, w') := by
  rw [visit, otherwise, run_bind]
  rcases (step a).run handle w with ⟨_ | _ | verdict, w'⟩ <;> rfl

/-- The rule for a loop: `inv` holds before each step, of what is still to come. -/
theorem run_visit {step : α → Prog E R ε (Option β)} (inv : List α → W → Prop)
    (post : Except ε (Option β) → W → Prop) (ends : ∀ w, inv [] w → post (.ok none) w)
    (steps : ∀ a rest w, inv (a :: rest) w →
      match (step a).run handle w with
      | (.ok none, w') => inv rest w'
      | (r, w') => post r w')
    {items : List α} {w : W} (start : inv items w) :
    post ((visit step items).run handle w).1 ((visit step items).run handle w).2 := by
  induction items generalizing w with
  | nil => exact ends w start
  | cons a rest ih =>
    have here := steps a rest w start
    rw [run_visit_cons]
    generalize (step a).run handle w = answered at here ⊢
    rcases answered with ⟨_ | _ | verdict, w'⟩
    · exact here
    · exact ih here
    · exact here

/-- The effect that the program is about to perform. -/
def head? : Prog E R ε α → Option E
  | done _ => none
  | perform e _ => some e

/-- A number of effects answered in turn, and what is left. -/
def advance (handle : (e : E) → W → R e × W) :
    Nat → Prog E R ε α → W → Prog E R ε α × W
  | 0, p, w => (p, w)
  | _ + 1, done r, w => (done r, w)
  | n + 1, perform e next, w => (next (handle e w).1).advance handle n (handle e w).2

/-- Each of these effects is performed where `ok` holds. -/
def complies (handle : (e : E) → W → R e × W) (ok : E → W → Bool) :
    Nat → Prog E R ε α → W → Bool
  | 0, _, _ => true
  | _ + 1, done _, _ => true
  | n + 1, perform e next, w =>
    ok e w && (next (handle e w).1).complies handle ok n (handle e w).2

/-! ### Effects a program is confined to -/

/-- Every effect the program performs meets `allowed`, whatever the answers are. -/
def Only (allowed : E → Prop) : Prog E R ε α → Prop
  | done _ => True
  | perform e next => allowed e ∧ ∀ r, (next r).Only allowed

variable {allowed allowed' : E → Prop} {p : Prog E R ε α}

theorem Only.done {r : Except ε α} : Only allowed (.done r : Prog E R ε α) := trivial

theorem Only.pure {a : α} : Only allowed (Pure.pure a : Prog E R ε α) := trivial

theorem Only.raise {x : ε} : Only allowed (Prog.raise x : Prog E R ε α) := trivial

theorem Only.perform {e : E} {next : R e → Prog E R ε α} (here : allowed e)
    (rest : ∀ a, Only allowed (next a)) : Only allowed (.perform e next) := ⟨here, rest⟩

theorem Only.bind {f : α → Prog E R ε β} (first : Only allowed p)
    (second : ∀ a, Only allowed (f a)) : Only allowed (p >>= f) := by
  induction p with
  | done r =>
    cases r with
    | ok a => exact second a
    | error x => exact trivial
  | perform e next ih => exact ⟨first.1, fun r => ih r (first.2 r)⟩

theorem Only.rescue {handler : ε → Prog E R ε α} (body : Only allowed p)
    (handled : ∀ x, Only allowed (handler x)) : Only allowed (p.rescue handler) := by
  induction p with
  | done r =>
    cases r with
    | ok a => exact trivial
    | error x => exact handled x
  | perform e next ih => exact ⟨body.1, fun r => ih r (body.2 r)⟩

theorem Only.ensure {cleanup : Prog E R ε Unit} (body : Only allowed p)
    (last : Only allowed cleanup) : Only allowed (p.ensure cleanup) := by
  induction p with
  | done r => exact last.bind fun _ => trivial
  | perform e next ih => exact ⟨body.1, fun r => ih r (body.2 r)⟩

theorem Only.otherwise {p q : Prog E R ε (Option β)} (first : Only allowed p)
    (second : Only allowed q) : Only allowed (p.otherwise q) := by
  refine Only.bind first fun verdict => ?_
  cases verdict with
  | some verdict => exact Only.pure
  | none => exact second

theorem Only.visit_mem {step : α → Prog E R ε (Option β)} {items : List α}
    (each : ∀ a ∈ items, Only allowed (step a)) : Only allowed (Prog.visit step items) := by
  induction items with
  | nil => exact Only.pure
  | cons a rest ih =>
    exact Only.otherwise (each a (by simp)) (ih fun b later => each b (List.mem_cons_of_mem a later))

theorem Only.visit {step : α → Prog E R ε (Option β)} (each : ∀ a, Only allowed (step a))
    (items : List α) : Only allowed (Prog.visit step items) := Only.visit_mem fun a _ => each a

theorem Only.mono (only : Only allowed p) (weaker : ∀ e, allowed e → allowed' e) :
    Only allowed' p := by
  induction p with
  | done r => exact trivial
  | perform e next ih => exact ⟨weaker e only.1, fun r => ih r (only.2 r)⟩

/-- Behind an effect that `marks` picks out, the program performs only what is allowed. -/
def Last (marks allowed : E → Prop) : Prog E R ε α → Prop
  | done _ => True
  | perform e next => (marks e → ∀ r, (next r).Only allowed) ∧ ∀ r, (next r).Last marks allowed

variable {marks : E → Prop}

theorem Last.done {r : Except ε α} : Last marks allowed (.done r : Prog E R ε α) := trivial

theorem Last.pure {a : α} : Last marks allowed (Pure.pure a : Prog E R ε α) := trivial

/-- What is allowed everywhere is allowed behind a mark. -/
theorem Only.last (only : p.Only allowed) : p.Last marks allowed := by
  induction p with
  | done r => exact trivial
  | perform e next ih => exact ⟨fun _ => only.2, fun r => ih r (only.2 r)⟩

/-- A mark in the first part leaves only what is allowed to the second. -/
theorem Last.bind {f : α → Prog E R ε β} (first : p.Last marks allowed)
    (second : ∀ a, (f a).Only allowed) : (p >>= f).Last marks allowed := by
  induction p with
  | done r =>
    cases r with
    | ok a => exact (second a).last
    | error x => exact trivial
  | perform e next ih =>
    exact ⟨fun marked r => (first.1 marked r).bind second, fun r => ih r (first.2 r)⟩

/-- No mark in the first part, and the second may have one. -/
theorem Last.behind {f : α → Prog E R ε β} (unmarked : p.Only (¬ marks ·))
    (second : ∀ a, (f a).Last marks allowed) : (p >>= f).Last marks allowed := by
  induction p with
  | done r =>
    cases r with
    | ok a => exact second a
    | error x => exact trivial
  | perform e next ih =>
    exact ⟨fun marked => absurd marked unmarked.1, fun r => ih r (unmarked.2 r)⟩

/-- A program without a mark. -/
theorem Last.unmarked (unmarked : p.Only (¬ marks ·)) : p.Last marks allowed := by
  induction p with
  | done r => exact trivial
  | perform e next ih =>
    exact ⟨fun marked => absurd marked unmarked.1, fun r => ih r (unmarked.2 r)⟩

theorem Last.otherwise {p q : Prog E R ε (Option β)} (first : p.Last marks allowed)
    (second : q.Only allowed) : (p.otherwise q).Last marks allowed := by
  refine Last.bind first fun verdict => ?_
  cases verdict with
  | some verdict => exact Only.pure
  | none => exact second

theorem Last.ensure {cleanup : Prog E R ε Unit} (body : p.Last marks allowed)
    (last : cleanup.Only allowed) : (p.ensure cleanup).Last marks allowed := by
  induction p with
  | done r =>
    have whole : ((Prog.done r).ensure cleanup).Only allowed := Only.ensure .done last
    exact whole.last
  | perform e next ih =>
    exact ⟨fun marked r => (body.1 marked r).ensure last, fun r => ih r (body.2 r)⟩

/-- The rule for a loop: a step with a mark finds only what is allowed in the steps behind it. -/
theorem Last.visit {step : α → Prog E R ε (Option β)} {items : List α}
    (each : items.Pairwise fun a b =>
      (step a).Only (¬ marks ·) ∨ (step b).Only allowed)
    (last : ∀ a ∈ items, (step a).Last marks allowed) :
    (Prog.visit step items).Last marks allowed := by
  induction items with
  | nil => exact Last.pure
  | cons a rest ih =>
    rw [List.pairwise_cons] at each
    have later := ih each.2 fun b member => last b (List.mem_cons_of_mem a member)
    by_cases unmarked : (step a).Only (¬ marks ·)
    · refine Last.behind unmarked fun verdict => ?_
      cases verdict with
      | some verdict => exact Last.pure
      | none => exact later
    · have allowed : ∀ b ∈ rest, (step b).Only allowed :=
        fun b member => (each.1 b member).resolve_left unmarked
      exact Last.otherwise (last a (by simp)) (Only.visit_mem allowed)

/-- However the program ends, the outcome meets `post`. -/
def Ends (post : Except ε α → Prop) : Prog E R ε α → Prop
  | done r => post r
  | perform _ next => ∀ r, (next r).Ends post

/-- What the first program ends in is what the second starts from. -/
theorem Ends.andThen {mid : Except ε α → Prop} {post : Except ε β → Prop} {f : α → Prog E R ε β}
    (first : p.Ends mid) (fails : ∀ x, mid (.error x) → post (.error x))
    (second : ∀ a, mid (.ok a) → (f a).Ends post) : (p >>= f).Ends post := by
  induction p with
  | done r =>
    cases r with
    | ok a => exact second a first
    | error x => exact fails x first
  | perform e next ih => exact fun r => ih r (first r)

theorem Ends.bind {post : Except ε β → Prop} {f : α → Prog E R ε β}
    (fails : ∀ x, post (.error x)) (second : ∀ a, (f a).Ends post) : (p >>= f).Ends post := by
  induction p with
  | done r =>
    cases r with
    | ok a => exact second a
    | error x => exact fails x
  | perform e next ih => exact ih

/-- A body ends well, or its handler does. -/
theorem Ends.rescue {post : Except ε α → Prop} {handler : ε → Prog E R ε α}
    (body : p.Ends fun r => ∀ a, r = .ok a → post (.ok a))
    (handled : ∀ x, (handler x).Ends post) : (p.rescue handler).Ends post := by
  induction p with
  | done r =>
    cases r with
    | ok a => exact body a rfl
    | error x => exact handled x
  | perform e next ih => exact fun r => ih r (body r)

/-- A clean-up changes no outcome but to its own failure. -/
theorem Ends.ensure {post : Except ε α → Prop} {cleanup : Prog E R ε Unit}
    (fails : ∀ x, post (.error x)) (body : p.Ends post) : (p.ensure cleanup).Ends post := by
  induction p with
  | done r => exact Ends.bind fails fun _ => body
  | perform e next ih => exact fun r => ih r (body r)

theorem Ends.run {post : Except ε α → Prop} (ends : p.Ends post) (w : W) :
    post (p.run handle w).1 := by
  induction p generalizing w with
  | done r => exact ends
  | perform e next ih => exact ih _ (ends _) _

/-- A program does not tell two handlers apart that agree on its effects. -/
theorem Only.run_congr {handle' : (e : E) → W → R e × W} (only : Only allowed p)
    (agree : ∀ e w, allowed e → handle e w = handle' e w) (w : W) :
    p.run handle w = p.run handle' w := by
  induction p generalizing w with
  | done r => rfl
  | perform e next ih =>
    rw [run_perform, run_perform, agree e w only.1]
    exact ih _ (only.2 _) _

/-- What every effect of the program keeps, its run keeps. -/
theorem Only.run_keeps (only : Only allowed p) (inv : W → Prop)
    (keeps : ∀ e w, allowed e → inv w → inv (handle e w).2) {w : W} (start : inv w) :
    inv (p.run handle w).2 := by
  induction p generalizing w with
  | done r => exact start
  | perform e next ih => exact ih _ (only.2 _) (keeps e w only.1 start)

end Prog

/-! ### Among others -/

/-- What surrounds a program: how the others may move the world, and what an effect may answer and
leave. -/
structure Setting (E : Type) (R : E → Type) (W : Type) where
  rely : W → W → Prop
  act : (e : E) → W → R e → W → Prop
  refl : ∀ w, rely w w
  trans : ∀ {a b c}, rely a b → rely b c → rely a c

namespace Setting

variable {E : Type} {R : E → Type} {ε α β W : Type} (env : Setting E R W)

/-- One step of a program among others. -/
inductive Step : Prog E R ε α × W → Prog E R ε α × W → Prop
  | other {p : Prog E R ε α} {w w' : W} (moves : env.rely w w') : Step (p, w) (p, w')
  | own {e : E} {next : R e → Prog E R ε α} {w w' : W} {r : R e} (acts : env.act e w r w') :
      Step (.perform e next, w) (next r, w')

/-- Every effect is allowed where it is performed, and the end meets `post`. -/
def Safe (allowed : E → W → Prop) (post : Except ε α → W → Prop) : Prog E R ε α → W → Prop
  | .done r, w => ∀ w', env.rely w w' → post r w'
  | .perform e next, w => ∀ w', env.rely w w' →
      allowed e w' ∧ ∀ r w'', env.act e w' r w'' → Safe allowed post (next r) w''

variable {env} {allowed : E → W → Prop} {post post' : Except ε α → W → Prop}
  {p : Prog E R ε α} {w w' : W}

/-- A handler whose answers the setting admits makes steps of its own. -/
theorem steps_advance {handle : (e : E) → W → R e × W} {ok : E → W → Bool}
    (admitted : ∀ e w, ok e w = true → env.act e w (handle e w).1 (handle e w).2) {n : Nat}
    (complies : p.complies handle ok n w = true) :
    Relation.ReflTransGen env.Step (p, w) (p.advance handle n w) := by
  induction n generalizing p w with
  | zero => exact .refl
  | succ n ih =>
    cases p with
    | done r => exact .refl
    | perform e next =>
      simp only [Prog.complies, Bool.and_eq_true] at complies
      exact .head (.own (admitted e w complies.1)) (ih complies.2)

/-- Others do not break a safe program. -/
theorem Safe.later (safe : env.Safe allowed post p w) (moves : env.rely w w') :
    env.Safe allowed post p w' := by
  cases p with
  | done r => exact fun w'' moves' => safe w'' (env.trans moves moves')
  | perform e next => exact fun w'' moves' => safe w'' (env.trans moves moves')

theorem Safe.step {c c' : Prog E R ε α × W} (safe : env.Safe allowed post c.1 c.2)
    (step : env.Step c c') : env.Safe allowed post c'.1 c'.2 := by
  cases step with
  | other moves => exact safe.later moves
  | own acts => exact (safe _ (env.refl _)).2 _ _ acts

theorem Safe.reaches {c c' : Prog E R ε α × W} (safe : env.Safe allowed post c.1 c.2)
    (steps : Relation.ReflTransGen env.Step c c') : env.Safe allowed post c'.1 c'.2 := by
  induction steps with
  | refl => exact safe
  | tail _ step ih => exact ih.step step

/-- A safe program performs only what is allowed. -/
theorem Safe.reach {c : Prog E R ε α × W} {e : E} (safe : env.Safe allowed post p w)
    (steps : Relation.ReflTransGen env.Step (p, w) c) (about : c.1.head? = some e) :
    allowed e c.2 := by
  have here := safe.reaches steps
  obtain ⟨q, w'⟩ := c
  cases q with
  | done r => cases about
  | perform e' next =>
    cases about
    exact (here w' (env.refl w')).1

theorem Safe.mono (safe : env.Safe allowed post p w) (weaker : ∀ r w, post r w → post' r w) :
    env.Safe allowed post' p w := by
  induction p generalizing w with
  | done r => exact fun w' moves => weaker r w' (safe w' moves)
  | perform e next ih =>
    intro w' moves
    exact ⟨(safe w' moves).1, fun r w'' acts => ih r ((safe w' moves).2 r w'' acts)⟩

/-- What is safe where little is allowed is so where more is. -/
theorem Safe.allow {allowed' : E → W → Prop} (safe : env.Safe allowed post p w)
    (more : ∀ e w, allowed e w → allowed' e w) : env.Safe allowed' post p w := by
  induction p generalizing w with
  | done r => exact safe
  | perform e next ih =>
    intro w' moves
    exact ⟨more e w' (safe w' moves).1, fun r w'' acts => ih r ((safe w' moves).2 r w'' acts)⟩

/-- Two things that are shown of one program hold together. -/
theorem Safe.both {allowed' : E → W → Prop} (left : env.Safe allowed post p w)
    (right : env.Safe allowed' post' p w) :
    env.Safe allowed (fun r w => post r w ∧ post' r w) p w := by
  induction p generalizing w with
  | done r => exact fun w' moves => ⟨left w' moves, right w' moves⟩
  | perform e next ih =>
    intro w' moves
    exact ⟨(left w' moves).1, fun r w'' acts =>
      ih r ((left w' moves).2 r w'' acts) ((right w' moves).2 r w'' acts)⟩

/-- A program confined to effects that keep an invariant keeps it to its end. -/
theorem Safe.keeps {ok : E → Prop} (inv : W → Prop) (only : p.Only ok)
    (others : ∀ w w', env.rely w w' → inv w → inv w')
    (own : ∀ e w r w', ok e → inv w → env.act e w r w' → inv w')
    (fine : ∀ e w, ok e → inv w → allowed e w) (start : inv w) :
    env.Safe allowed (fun _ w => inv w) p w := by
  induction p generalizing w with
  | done r => exact fun w' moves => others w w' moves start
  | perform e next ih =>
    intro w' moves
    have here := others w w' moves start
    exact ⟨fine e w' only.1 here, fun r w'' acts =>
      ih r (only.2 r) (own e w' r w'' only.1 here acts)⟩

/-- What has to hold where the first part of a sequence ends. -/
def After (env : Setting E R W) (allowed : E → W → Prop) (post : Except ε β → W → Prop)
    (f : α → Prog E R ε β) : Except ε α → W → Prop
  | .ok a, w => env.Safe allowed post (f a) w
  | .error x, w => post (.error x) w

theorem Safe.bind {f : α → Prog E R ε β} {post : Except ε β → W → Prop}
    (safe : env.Safe allowed (env.After allowed post f) p w) :
    env.Safe allowed post (p >>= f) w := by
  induction p generalizing w with
  | done r =>
    cases r with
    | ok a => exact safe w (env.refl w)
    | error x => exact fun w' moves => safe w' moves
  | perform e next ih =>
    intro w' moves
    exact ⟨(safe w' moves).1, fun r w'' acts => ih r ((safe w' moves).2 r w'' acts)⟩

/-- What has to hold where a body with a handler ends. -/
def Handled (env : Setting E R W) (allowed : E → W → Prop) (post : Except ε α → W → Prop)
    (handler : ε → Prog E R ε α) : Except ε α → W → Prop
  | .ok a, w => post (.ok a) w
  | .error x, w => env.Safe allowed post (handler x) w

theorem Safe.rescue {handler : ε → Prog E R ε α}
    (safe : env.Safe allowed (env.Handled allowed post handler) p w) :
    env.Safe allowed post (p.rescue handler) w := by
  induction p generalizing w with
  | done r =>
    cases r with
    | ok a => exact fun w' moves => safe w' moves
    | error x => exact safe w (env.refl w)
  | perform e next ih =>
    intro w' moves
    exact ⟨(safe w' moves).1, fun r w'' acts => ih r ((safe w' moves).2 r w'' acts)⟩

theorem Safe.otherwise {p q : Prog E R ε (Option β)} {post : Except ε (Option β) → W → Prop}
    (safe : env.Safe allowed (fun r w => match r with
      | .ok none => env.Safe allowed post q w
      | .ok (some verdict) => ∀ w', env.rely w w' → post (.ok (some verdict)) w'
      | .error x => post (.error x) w) p w) :
    env.Safe allowed post (p.otherwise q) w := by
  refine Safe.bind (safe.mono fun r w' good => ?_)
  match r, good with
  | .error x, good => exact good
  | .ok none, good => exact good
  | .ok (some verdict), good => exact good

/-- A clean-up runs where the body ends, and the body's end stands behind it. -/
theorem Safe.ensure {cleanup : Prog E R ε Unit}
    (safe : env.Safe allowed (fun r w =>
      env.Safe allowed post (cleanup >>= fun _ => (.done r : Prog E R ε α)) w) p w) :
    env.Safe allowed post (p.ensure cleanup) w := by
  induction p generalizing w with
  | done r => exact safe w (env.refl w)
  | perform e next ih =>
    intro w' moves
    exact ⟨(safe w' moves).1, fun r w'' acts => ih r ((safe w' moves).2 r w'' acts)⟩

/-- The first part keeps an invariant, and the second starts from it. -/
theorem Safe.first {ok : E → Prop} {f : α → Prog E R ε β} {post : Except ε β → W → Prop}
    (inv : W → Prop) (only : p.Only ok)
    (others : ∀ w w', env.rely w w' → inv w → inv w')
    (own : ∀ e w r w', ok e → inv w → env.act e w r w' → inv w')
    (fine : ∀ e w, ok e → inv w → allowed e w) (start : inv w)
    (fails : ∀ x w, inv w → post (.error x) w)
    (second : ∀ a w, inv w → env.Safe allowed post (f a) w) :
    env.Safe allowed post (p >>= f) w := by
  refine Safe.bind ((Safe.keeps inv only others own fine start).mono fun r w' held => ?_)
  cases r with
  | ok a => exact second a w' held
  | error x => exact fails x w' held

/-- The rule for a loop: `inv` holds before each step, of what is still to come. -/
theorem Safe.visit {step : α → Prog E R ε (Option β)} {post : Except ε (Option β) → W → Prop}
    (inv : List α → W → Prop) {items : List α} (start : inv items w)
    (steps : ∀ a rest w, inv (a :: rest) w → env.Safe allowed (fun r w =>
      match r with
      | .ok none => inv rest w
      | .ok (some verdict) => post (.ok (some verdict)) w
      | .error x => post (.error x) w) (step a) w)
    (ends : ∀ w, inv [] w → ∀ w', env.rely w w' → post (.ok none) w')
    (stops : ∀ verdict w, post (.ok (some verdict)) w →
      ∀ w', env.rely w w' → post (.ok (some verdict)) w') :
    env.Safe allowed post (Prog.visit step items) w := by
  induction items generalizing w with
  | nil => exact fun w' moves => ends w start w' moves
  | cons a rest ih =>
    refine Safe.otherwise ((steps a rest w start).mono fun r w' good => ?_)
    match r, good with
    | .error x, good => exact good
    | .ok none, good => exact ih good
    | .ok (some verdict), good => exact fun w'' moves => stops verdict w' good w'' moves

/-! ### Alone again -/

/-- Nobody else moves, and the handler answers. -/
def alone (handle : (e : E) → W → R e × W) : Setting E R W where
  rely w w' := w = w'
  act e w r w' := handle e w = (r, w')
  refl _ := rfl
  trans := Eq.trans

variable {handle : (e : E) → W → R e × W}

/-- What the rules above show of a program alone, they show of its run. -/
theorem safe_alone : (alone handle).Safe (fun _ _ => True) post p w ↔
    post (p.run handle w).1 (p.run handle w).2 := by
  induction p generalizing w with
  | done r => exact ⟨fun safe => safe w rfl, fun holds w' same => same ▸ holds⟩
  | perform e next ih =>
    constructor
    · exact fun safe => (ih _).mp ((safe w rfl).2 _ _ rfl)
    · rintro holds w' rfl
      refine ⟨trivial, fun r w'' answered => (ih r).mpr ?_⟩
      rw [Prog.run_perform, answered] at holds
      exact holds

/-- The first part of a program alone keeps an invariant, and the second starts from it. -/
theorem Safe.first_alone {ok : E → Prop} {f : α → Prog E R ε β} {post : Except ε β → W → Prop}
    (inv : W → Prop) (only : p.Only ok) (keeps : ∀ e w, ok e → inv w → inv (handle e w).2)
    (start : inv w) (fails : ∀ x w, inv w → post (.error x) w)
    (second : ∀ a w, inv w → (alone handle).Safe (fun _ _ => True) post (f a) w) :
    (alone handle).Safe (fun _ _ => True) post (p >>= f) w := by
  refine Safe.first inv only (fun w w' same held => same ▸ held)
    (fun e w r w' allowed held answered => ?_) (fun _ _ _ _ => trivial) start fails second
  have kept := keeps e w allowed held
  rw [answered] at kept
  exact kept

end Setting

end Core
