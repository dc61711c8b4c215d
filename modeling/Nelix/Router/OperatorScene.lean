import Nelix.Router.OperatorEffects

/-!
# Retire among others

A call of `retire` runs while the registry, the daemons and other callers change the same store and
daemons come and go. The scene is what they share: the database, and which epochs have a daemon that
is alive. `operator` is the setting of a call; what the others may do in it, and what a read may
find, are its parameters.
-/
namespace Nelix.Router

open Contracts Core Store Prog Routine

/-- What a call shares with the others. -/
structure Scene where
  db : Db
  /-- The epoch's daemon is alive. -/
  alive : String → Bool

/-- A step of somebody else. -/
inductive Deed
  | store (call : Call)
  | spawn (generationEpoch : String)
  | exit (generationEpoch : String)

def Scene.after (w : Scene) : Deed → Scene
  | .store call => { w with db := settled w.db (call.apply w.db) }
  | .spawn e => { w with alive := Function.update w.alive e true }
  | .exit e => { w with alive := Function.update w.alive e false }

/-- What an effect answers and leaves. A transaction that raises leaves nothing; a read answers from
the database or raises; the reaper only ends daemons; the rest says anything and changes nothing. -/
def operates : (a : Act) → Scene → a.Answer → Scene → Prop
  | ⟨_, .ask q⟩, w, r, w' => w' = w ∧ (r = w.db.answer q ∨ ∃ x, r = .error x)
  | ⟨_, .write call⟩, w, r, w' =>
    (r = (call.apply w.db).map fun _ => ()) ∧ w' = w.after (.store call) ∨
      (∃ x, r = .error x) ∧ w' = w
  | ⟨_, .reapHolder ..⟩, w, _, w' => w'.db = w.db ∧ ∀ e, w'.alive e = true → w.alive e = true
  | _, w, _, w' => w' = w

/-- A call of the operator among others. -/
def operator (others : Scene → Deed → Prop) (reads : (a : Act) → Scene → a.Answer → Prop) :
    Setting Act Act.Answer Scene where
  rely := Relation.ReflTransGen fun w w' => ∃ deed, others w deed ∧ w' = w.after deed
  act a w r w' := operates a w r w' ∧ reads a w r
  refl _ := .refl
  trans := .trans

variable {others : Scene → Deed → Prop} {reads : (a : Act) → Scene → a.Answer → Prop}
  {w w' : Scene}

/-- What one deed of the others keeps, they keep. -/
theorem operator_rely (inv : Scene → Prop)
    (step : ∀ w deed, others w deed → inv w → inv (w.after deed)) :
    ∀ w w', (operator others reads).rely w w' → inv w → inv w' := by
  intro w w' moves held
  induction moves with
  | refl => exact held
  | tail _ deed ih =>
    obtain ⟨deed, allowed, rfl⟩ := deed
    exact step _ deed allowed ih

theorem operates_ask {site : Site} {q : Query} {r : q.Answer}
    (acts : operates ⟨site, .ask q⟩ w r w') : w' = w ∧ ∀ a, r = .ok a → w.db.answer q = .ok a := by
  obtain ⟨rfl, rfl | ⟨x, rfl⟩⟩ := acts
  · exact ⟨rfl, fun a same => same⟩
  · exact ⟨rfl, fun a absurd => by cases absurd⟩

/-- What an effect leaves of the database: the call it writes is applied, or nothing changes. -/
theorem operates_db {a : Act} {r : a.Answer} (acts : operates a w r w') :
    (∃ call, a.effect = .write call ∧ w' = w.after (.store call)) ∨
      w'.db = w.db ∧ ∀ e, w'.alive e = true → w.alive e = true := by
  obtain ⟨site, effect⟩ := a
  cases effect with
  | ask q =>
    obtain ⟨rfl, -⟩ := acts
    exact .inr ⟨rfl, fun _ => id⟩
  | write call =>
    rcases acts with ⟨-, rfl⟩ | ⟨-, rfl⟩
    · exact .inl ⟨call, rfl, rfl⟩
    · exact .inr ⟨rfl, fun _ => id⟩
  | reapHolder => exact .inr acts
  | _ =>
    obtain rfl := acts
    exact .inr ⟨rfl, fun _ => id⟩

/-- The rule for a read: it leaves everything, and answers from the database or raises. -/
theorem safe_ask {α : Type} {allowed : Act → Scene → Prop} {post : Except Raised α → Scene → Prop}
    {site : Site} {q : Query} {f : q.Value → Routine α} (inv : Scene → Prop)
    (rely : ∀ w w', (operator others reads).rely w w' → inv w → inv w')
    (fine : ∀ w, inv w → allowed ⟨site, .ask q⟩ w) (start : inv w)
    (fails : ∀ x w, inv w → post (.error x) w)
    (goes : ∀ a w, inv w → w.db.answer q = .ok a → reads ⟨site, .ask q⟩ w (.ok a) →
      (operator others reads).Safe allowed post (f a) w) :
    (operator others reads).Safe allowed post (ask site q >>= f) w := by
  intro w₁ moves
  have held := rely w w₁ moves start
  refine ⟨fine w₁ held, ?_⟩
  rintro r w₂ ⟨acts, found⟩
  obtain ⟨rfl, answered⟩ := operates_ask acts
  cases r with
  | ok a => exact goes a w₂ held (answered a rfl) found
  | error x => exact fun w₃ later => fails x w₃ (rely w₂ w₃ later held)

/-! ### A handler -/

/-- The store answers, the reaper and the lease service say yes, and no process and no daemon is
there. -/
def Scene.handle : (a : Act) → Scene → a.Answer × Scene
  | ⟨_, .ask q⟩, w => (w.db.answer q, w)
  | ⟨_, .write call⟩, w => ((call.apply w.db).map fun _ => (), w.after (.store call))
  | ⟨_, .generations⟩, w => ([], w)
  | ⟨_, .forward ..⟩, w => (refuse .generationUnavailable "generation unavailable", w)
  | ⟨_, .lock⟩, w => (.ok (), w)
  | ⟨_, .unlock⟩, w => ((), w)
  | ⟨_, .reapHolder ..⟩, w => (.ok true, w)
  | ⟨_, .releaseEpoch ..⟩, w => (.ok (), w)
  | ⟨_, .pidAlive _⟩, w => (.ok false, w)
  | ⟨_, .readChild _⟩, w => (.missing, w)
  | ⟨_, .startFingerprint _⟩, w => (none, w)
  | ⟨_, .killpg ..⟩, w => (.processLookupError, w)
  | ⟨_, .time⟩, w => (0, w)

/-- Every incarnation that is recorded reads as one process. -/
def oneProcess : Surroundings where
  loads _ := some (.object [("pid", .int 7)])
  warns := false
  leases := true

theorem operates_handle (a : Act) (w : Scene) :
    operates a w (Scene.handle a w).1 (Scene.handle a w).2 := by
  obtain ⟨site, effect⟩ := a
  cases effect with
  | ask q => exact ⟨rfl, .inl rfl⟩
  | write call => exact .inl ⟨rfl, rfl⟩
  | reapHolder => exact ⟨rfl, fun _ => id⟩
  | _ => rfl

end Nelix.Router
