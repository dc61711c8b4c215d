import Nelix.Router.OperatorEffects

/-!
# Faults inside retire's helpers

What `retire` makes of a store error or a refusal inside its resolution of confirmed receipts or
inside its reap of an incarnation, over every trace: whatever the store, the daemon, the lease
service and the operating system answer.

## Main results

`retire_contained_iff`: the fault ends in a blocked answer that leaves the generation alone exactly
when the helpers' own warning does not raise and, for a fault of the last resolution, the oracle
finds something else.
-/
namespace Nelix.Router

open Contracts Core Store Prog Routine

/-- An effect that was performed, with its answer. -/
abbrev Performed : Type := Event Act Act.Answer

variable {at_ : Surroundings} {t : List Performed}

/-! ### Single effects -/

@[simp] theorem yields_ask {site : Site} {q : Query} {r : Except Raised q.Value} :
    Yields (ask site q) t r ↔ t = [⟨⟨site, .ask q⟩, r⟩] := by
  simp only [ask, yields_perform, yields_done]
  constructor
  · rintro ⟨a, t', rfl, rfl, rfl⟩
    rfl
  · rintro rfl
    exact ⟨r, [], rfl, rfl, rfl⟩

@[simp] theorem yields_write {site : Site} {call : Call} {r : Except Raised Unit} :
    Yields (write site call) t r ↔ t = [⟨⟨site, .write call⟩, r⟩] := by
  simp only [write, yields_perform, yields_done]
  constructor
  · rintro ⟨a, t', rfl, rfl, rfl⟩
    rfl
  · rintro rfl
    exact ⟨r, [], rfl, rfl, rfl⟩

@[simp] theorem yields_reapHolder {epoch generationId : String} {buildId : Option String}
    {incarnation : Json} {r : Except Raised Bool} :
    Yields (reapHolder epoch generationId buildId incarnation) t r ↔
      t = [⟨⟨.reaping epoch, .reapHolder generationId buildId incarnation⟩, r⟩] := by
  simp only [reapHolder, yields_perform, yields_done]
  constructor
  · rintro ⟨a, t', rfl, rfl, rfl⟩
    rfl
  · rintro rfl
    exact ⟨r, [], rfl, rfl, rfl⟩

@[simp] theorem yields_warnWithFields {r : Except Raised Unit} :
    Yields (warnWithFields at_) t r ↔
      t = [] ∧ r = if at_.warns then .error .typeError else .ok () := by
  unfold warnWithFields
  split <;> simp_all

/-! ### Faults -/

/-- What can go wrong inside a helper. -/
inductive Failure
  | raised
  | refused
  deriving DecidableEq, Repr

/-- The effect was answered with an exception. -/
def raises : (effect : Effect) → effect.Answer → Bool
  | .ask _, .error _ => true
  | .write _, .error _ => true
  | .reapHolder .., .error _ => true
  | _, _ => false

/-- What went wrong in the reap of an epoch: an exception, an incarnation that is not recorded or
cannot be decoded, or a holder that was not confirmed dead. -/
def reapFailure (at_ : Surroundings) (epoch : String) :
    (effect : Effect) → effect.Answer → Option Failure
  | .ask (.listEpochsStrict _), .ok epochs =>
    match recordedIncarnation at_ epoch epochs with
    | .error _ => some .raised
    | .ok none => some .refused
    | .ok (some _) => none
  | .reapHolder .., .ok false => some .refused
  | effect, answer => if raises effect answer then some .raised else none

/-- What went wrong in this effect, where it belongs to a helper. -/
def failureOf (at_ : Surroundings) : Performed → Option Failure
  | ⟨⟨.certifying, effect⟩, answer⟩ => if raises effect answer then some .raised else none
  | ⟨⟨.confirming, effect⟩, answer⟩ => if raises effect answer then some .raised else none
  | ⟨⟨.reaping epoch, effect⟩, answer⟩ => reapFailure at_ epoch effect answer
  | _ => none

def Fails (at_ : Surroundings) (kind : Failure) (t : List Performed) : Prop :=
  ∃ ev ∈ t, failureOf at_ ev = some kind

def Quiet (at_ : Surroundings) (t : List Performed) : Prop := ∀ ev ∈ t, failureOf at_ ev = none

instance (at_ : Surroundings) (t : List Performed) : Decidable (Quiet at_ t) :=
  inferInstanceAs (Decidable (∀ ev ∈ t, failureOf at_ ev = none))

theorem Quiet.not_fails {kind : Failure} (quiet : Quiet at_ t) : ¬ Fails at_ kind t := by
  rintro ⟨ev, member, failed⟩
  rw [quiet ev member] at failed
  cases failed

theorem fails_append {kind : Failure} {t₁ t₂ : List Performed} :
    Fails at_ kind (t₁ ++ t₂) ↔ Fails at_ kind t₁ ∨ Fails at_ kind t₂ := by
  simp only [Fails, List.mem_append, or_and_right, exists_or]

theorem quiet_append {t₁ t₂ : List Performed} :
    Quiet at_ (t₁ ++ t₂) ↔ Quiet at_ t₁ ∧ Quiet at_ t₂ := by
  simp only [Quiet, List.mem_append, or_imp, forall_and]

/-- How a helper ends: it went well, its warning raised, or it reports that it did not go well. -/
inductive HelperEnds (at_ : Surroundings) (t : List Performed) : Except Raised Bool → Prop
  | fine (quiet : Quiet at_ t) : HelperEnds at_ t (.ok true)
  | escaped (failed : Fails at_ .raised t) (warns : at_.warns = true) :
      HelperEnds at_ t (.error .typeError)
  | reported (unquiet : ¬ Quiet at_ t) (silent : Fails at_ .raised t → at_.warns = false) :
      HelperEnds at_ t (.ok false)

/-- Where the body raised, the warning decides. -/
theorem helperEnds_of_raised (failed : Fails at_ .raised t) :
    HelperEnds at_ t (if at_.warns then .error .typeError else .ok false) := by
  by_cases warns : at_.warns = true
  · rw [if_pos warns]
    exact .escaped failed warns
  · rw [if_neg warns]
    refine .reported (fun quiet => quiet.not_fails failed) fun _ => by simpa using warns

theorem yields_warned {r : Except Raised Bool} :
    Yields (do
      warnWithFields at_
      pure false) t r ↔ t = [] ∧ r = if at_.warns then .error .typeError else .ok false := by
  rw [yields_bind]
  simp only [yields_warnWithFields, yields_pure]
  by_cases warns : at_.warns = true
  · simp [warns]
  · simp [warns]

/-- Both effects of the resolution, and where each can raise. -/
theorem resolveConfirmed_ends {site : Site} (here : site = .certifying ∨ site = .confirming)
    {epoch : String} {r : Except Raised Bool}
    (yields : Yields (resolveConfirmed at_ site epoch) t r) :
    HelperEnds at_ t r ∧ ¬ Fails at_ .refused t := by
  have kind : ∀ effect answer, failureOf at_ ⟨⟨site, effect⟩, answer⟩ =
      if raises effect answer then some .raised else none := by
    rcases here with rfl | rfl <;> exact fun _ _ => rfl
  rw [resolveConfirmed, yields_rescue] at yields
  rcases yields with ⟨a, body, rfl⟩ | ⟨x, t₁, t₂, rfl, body, handled⟩
  · rcases yields_bind.mp body with ⟨terminals, t₁, t₂, rfl, asked, rest⟩ | ⟨x, -, absurd⟩
    · obtain rfl := yields_ask.mp asked
      dsimp only at rest
      split at rest
      · rcases yields_bind.mp rest with ⟨_, t₃, t₄, rfl, wrote, last⟩ | ⟨x, -, absurd⟩
        · obtain rfl := yields_write.mp wrote
          obtain ⟨rfl, same⟩ := yields_pure.mp last
          cases same
          constructor
          · refine .fine ?_
            simp [Quiet, kind, raises]
          · simp [Fails, kind, raises]
        · cases absurd
      · obtain ⟨rfl, same⟩ := yields_pure.mp rest
        cases same
        constructor
        · refine .fine ?_
          simp [Quiet, kind, raises]
        · simp [Fails, kind, raises]
    · cases absurd
  · obtain ⟨rfl, rfl⟩ := yields_warned.mp handled
    rw [List.append_nil]
    have failed : Fails at_ .raised t₁ ∧ ¬ Fails at_ .refused t₁ := by
      rcases yields_bind.mp body with ⟨terminals, t₃, t₄, rfl, asked, rest⟩ | ⟨x, asked, -⟩
      · obtain rfl := yields_ask.mp asked
        dsimp only at rest
        split at rest
        · rcases yields_bind.mp rest with ⟨_, t₅, t₆, rfl, wrote, last⟩ | ⟨x, wrote, -⟩
          · obtain ⟨-, absurd⟩ := yields_pure.mp last
            cases absurd
          · obtain rfl := yields_write.mp wrote
            simp [Fails, kind, raises]
        · obtain ⟨-, absurd⟩ := yields_pure.mp rest
          cases absurd
      · obtain rfl := yields_ask.mp asked
        simp [Fails, kind, raises]
    exact ⟨helperEnds_of_raised failed.1, failed.2⟩

theorem failureOf_reaping {epoch : String} {effect : Effect} {answer : effect.Answer} :
    failureOf at_ ⟨⟨.reaping epoch, effect⟩, answer⟩ = reapFailure at_ epoch effect answer := rfl

/-- The reap went well only when the holder was confirmed dead; everything else is reported, or
escapes through the warning. -/
theorem reapGeneration_ends {generationId epoch : String} {r : Except Raised Bool}
    (yields : Yields (reapGeneration at_ generationId epoch) t r) : HelperEnds at_ t r := by
  rw [reapGeneration, yields_rescue] at yields
  rcases yields with ⟨a, body, rfl⟩ | ⟨x, t₁, t₂, rfl, body, handled⟩
  · rcases yields_bind.mp body with ⟨gen, t₁, t₂, rfl, asked, after⟩ | ⟨x, -, absurd⟩
    swap
    · cases absurd
    obtain rfl := yields_ask.mp asked
    rcases yields_bind.mp after with ⟨epochs, t₃, t₄, rfl, listed, onward⟩ | ⟨x, -, absurd⟩
    swap
    · cases absurd
    obtain rfl := yields_ask.mp listed
    rcases yields_bind.mp onward with ⟨recorded, t₅, t₆, rfl, decoded, rest⟩ | ⟨x, -, absurd⟩
    swap
    · cases absurd
    obtain ⟨rfl, found⟩ := yields_done.mp decoded
    cases recorded with
    | none =>
      obtain ⟨rfl, same⟩ := yields_pure.mp rest
      cases same
      refine .reported ?_ ?_
      · simp [Quiet, failureOf_reaping, reapFailure, ← found]
      · simp [Fails, failureOf_reaping, reapFailure, raises, ← found]
    | some incarnation =>
      obtain rfl := yields_reapHolder.mp rest
      cases a with
      | true =>
        refine .fine ?_
        simp [Quiet, failureOf_reaping, reapFailure, raises, ← found]
      | false =>
        refine .reported ?_ ?_
        · simp [Quiet, failureOf_reaping, reapFailure, raises, ← found]
        · simp [Fails, failureOf_reaping, reapFailure, raises, ← found]
  · obtain ⟨rfl, rfl⟩ := yields_warned.mp handled
    rw [List.append_nil]
    refine helperEnds_of_raised ?_
    rcases yields_bind.mp body with ⟨gen, t₃, t₄, rfl, asked, after⟩ | ⟨x, asked, -⟩
    swap
    · obtain rfl := yields_ask.mp asked
      simp [Fails, failureOf_reaping, reapFailure, raises]
    obtain rfl := yields_ask.mp asked
    rcases yields_bind.mp after with ⟨epochs, t₅, t₆, rfl, listed, onward⟩ | ⟨x, listed, -⟩
    swap
    · obtain rfl := yields_ask.mp listed
      simp [Fails, failureOf_reaping, reapFailure, raises]
    obtain rfl := yields_ask.mp listed
    rcases yields_bind.mp onward with ⟨recorded, t₇, t₈, rfl, decoded, rest⟩ | ⟨x, decoded, -⟩
    swap
    · obtain ⟨rfl, found⟩ := yields_done.mp decoded
      simp [Fails, failureOf_reaping, reapFailure, raises, ← found]
    obtain ⟨rfl, found⟩ := yields_done.mp decoded
    cases recorded with
    | none =>
      obtain ⟨-, absurd⟩ := yields_pure.mp rest
      cases absurd
    | some incarnation =>
      obtain rfl := yields_reapHolder.mp rest
      simp [Fails, failureOf_reaping, reapFailure, raises]

/-! ### Where effects belong -/

/-- The call writes a row of the generations. -/
def writesGeneration : Call → Bool
  | .createGeneration .. | .casEpochServing .. | .setGenerationLifecycleState ..
  | .clearCurrentEpoch .. | .setCurrentEpoch .. | .setGenerationLifecycleStateAtomic ..
  | .reconcileEpochDead .. => true
  | _ => false

/-- The effect leaves every generation as it is. -/
def sparing : Effect → Bool
  | .write call => !writesGeneration call
  | _ => true

/-- The effect belongs to one of these parts and spares the generations. -/
def Within (sites : Site → Prop) (a : Act) : Prop := sites a.site ∧ sparing a.effect = true

/-- Only the last phase writes a row of the generations. -/
theorem fits_within {sites : Site → Prop} {site : Site} {stage : Stage} (here : sites site)
    (unfinished : stage ≠ .finalizing := by nofun) : stage.Fits (Within sites) site := by
  intro effect does
  refine ⟨here, ?_⟩
  cases effect with
  | write call => cases call <;> cases stage <;> simp_all [Stage.does, sparing, writesGeneration]
  | _ => rfl

theorem asks_within {sites : Site → Prop} {site : Site} (here : sites site) :
    Stage.asking.Fits (Within sites) site := fits_within here

/-! ### A fault ends the phase it is in -/

/-- The parts that are no helpers. -/
def Helperless (site : Site) : Prop := site = .retiring ∨ site = .reconciling ∨ site = .judging

theorem quiet_of_only {α : Type} {p : Routine α} {r : Except Raised α}
    (only : Only (Within Helperless) p) (yields : Yields p t r) : Quiet at_ t := by
  rintro ⟨⟨site, effect⟩, answer⟩ member
  rcases (only.events yields _ member).1 with here | here | here <;>
    simp only at here <;> subst here <;> rfl

/-- A fault in this phase is the end of it: the warning raised, or the phase reports a hold. -/
inductive Stops (at_ : Surroundings) (t : List Performed) : Except Raised (Option Hold) → Prop
  | quiet (quiet : Quiet at_ t) (r : Except Raised (Option Hold)) : Stops at_ t r
  | escaped (failed : Fails at_ .raised t) (warns : at_.warns = true) :
      Stops at_ t (.error .typeError)
  | held (unquiet : ¬ Quiet at_ t) (silent : Fails at_ .raised t → at_.warns = false)
      (hold : Hold) : Stops at_ t (.ok (some hold))

/-- Whatever a quiet trace is followed by. -/
theorem Stops.after {t₁ t₂ : List Performed} {r : Except Raised (Option Hold)}
    (quiet : Quiet at_ t₁) (stops : Stops at_ t₂ r) : Stops at_ (t₁ ++ t₂) r := by
  cases stops with
  | quiet later r => exact .quiet (quiet_append.mpr ⟨quiet, later⟩) r
  | escaped failed warns => exact .escaped (fails_append.mpr (.inr failed)) warns
  | held unquiet silent hold =>
    refine .held (fun both => unquiet (quiet_append.mp both).2) (fun failed => silent ?_) hold
    exact (fails_append.mp failed).resolve_left quiet.not_fails

def Stopping (at_ : Surroundings) (q : Routine (Option Hold)) : Prop :=
  ∀ t r, Yields q t r → Stops at_ t r

theorem Stopping.of_only {q : Routine (Option Hold)} (only : Only (Within Helperless) q) :
    Stopping at_ q :=
  fun _ r yields => .quiet (quiet_of_only only yields) r

theorem Stopping.bind {α : Type} {p : Routine α} {f : α → Routine (Option Hold)}
    (only : Only (Within Helperless) p) (rest : ∀ a, Stopping at_ (f a)) :
    Stopping at_ (p >>= f) := by
  intro t r yields
  rcases yields_bind.mp yields with ⟨a, t₁, t₂, rfl, here, later⟩ | ⟨x, here, rfl⟩
  · exact (rest a t₂ r later).after (quiet_of_only only here)
  · exact .quiet (quiet_of_only only here) _

/-- A helper that reports a failure ends the phase with a hold. -/
theorem Stopping.helper {p : Routine Bool} {f : Bool → Routine (Option Hold)} {hold : Hold}
    (ends : ∀ t r, Yields p t r → HelperEnds at_ t r) (bad : f false = pure (some hold))
    (good : Stopping at_ (f true)) : Stopping at_ (p >>= f) := by
  intro t r yields
  rcases yields_bind.mp yields with ⟨a, t₁, t₂, rfl, here, later⟩ | ⟨x, here, rfl⟩
  · cases ends t₁ _ here with
    | fine quiet => exact (good t₂ r later).after quiet
    | reported unquiet silent =>
      rw [bad] at later
      obtain ⟨rfl, rfl⟩ := yields_pure.mp later
      rw [List.append_nil]
      exact .held unquiet silent hold
  · cases ends t _ here with
    | escaped failed warns => exact .escaped failed warns

theorem Stopping.visit {α : Type} {step : α → Routine (Option Hold)}
    (each : ∀ a, Stopping at_ (step a)) (items : List α) :
    Stopping at_ (Prog.visit step items) := by
  intro t r yields
  have more : ∀ a t₁ t₂, Quiet at_ t₁ → Yields (step a) t₂ (.ok none) → Quiet at_ (t₁ ++ t₂) := by
    intro a t₁ t₂ before here
    cases each a t₂ _ here with
    | quiet quiet => exact quiet_append.mpr ⟨before, quiet⟩
  rcases yields_visit (Quiet at_) (by simp [Quiet]) more yields with
    ⟨quiet, rfl⟩ | ⟨t₁, t₂, a, -, rfl, before, -, here⟩
  · exact .quiet quiet _
  · exact (each a t₂ r here).after before

theorem certifyServing_stopping (g : String) (ep : EpochRecord) :
    Stopping at_ (certifyServing at_ g ep) := by
  have retiring : Helperless .retiring := .inl rfl
  have serves : (Stage.serving ep.generationEpoch).Fits (Within Helperless) .retiring :=
    fits_within retiring
  refine .bind (only_closeAdmission serves) fun _ => .bind (only_quiesce serves) fun _ => ?_
  refine .helper (fun t r yields => (resolveConfirmed_ends (.inl rfl) yields).1) (if_pos rfl) ?_
  rw [if_neg (by simp)]
  refine .bind (only_quiesceStatus serves) fun status => .bind .done fun quiesced => ?_
  split
  · exact .of_only .pure
  refine .bind (only_certify (fits_within retiring)) fun _ => .bind (only_ask (asks_within retiring)) fun refreshed => ?_
  split
  · exact .of_only .pure
  refine .helper (fun t r yields => (resolveConfirmed_ends (.inl rfl) yields).1) (if_pos rfl) ?_
  rw [if_neg (by simp)]
  refine .bind (only_confirmedReaches (asks_within retiring)) fun reaches => ?_
  split <;> exact .of_only .pure

theorem certifyListed_stopping (g : String) (current : Option String) (ep : EpochRecord) :
    Stopping at_ (certifyListed at_ g current ep) := by
  unfold certifyListed
  split
  · exact .of_only .pure
  split
  · refine .bind (only_crashReconcileEpoch (fits_within (.inr (.inl rfl)))
      (fits_within (.inr (.inl rfl)))) fun obstacle => ?_
    cases obstacle <;> exact .of_only .pure
  split
  · exact certifyServing_stopping g ep
  · exact .of_only .pure

theorem reapListed_stopping (g : String) (ep : EpochRecord) :
    Stopping at_ (reapListed at_ g ep) := by
  unfold reapListed
  split
  · exact .of_only .pure
  refine .helper (fun t r yields => reapGeneration_ends yields) (if_pos rfl) ?_
  rw [if_neg (by simp)]
  exact .of_only .pure

theorem reapAll_stopping (g : String) : Stopping at_ (reapAll at_ g) :=
  .bind (only_ask (asks_within (.inl rfl))) fun _ => .visit (reapListed_stopping g) _

/-! ### The last resolution -/

/-- How the last resolution ends: its warning raised, or it goes on whatever happened. -/
inductive ConfirmEnds (at_ : Surroundings) (t : List Performed) :
    Except Raised (Option Hold) → Prop
  | escaped (failed : Fails at_ .raised t) (warns : at_.warns = true) :
      ConfirmEnds at_ t (.error .typeError)
  | passed (silent : Fails at_ .raised t → at_.warns = false)
      (unrefused : ¬ Fails at_ .refused t) : ConfirmEnds at_ t (.ok none)

theorem confirmListed_ends {ep : EpochRecord} {r : Except Raised (Option Hold)}
    (yields : Yields (confirmListed at_ ep) t r) : ConfirmEnds at_ t r := by
  rcases yields_bind.mp yields with ⟨a, t₁, t₂, rfl, here, later⟩ | ⟨x, here, rfl⟩
  · obtain ⟨rfl, rfl⟩ := yields_pure.mp later
    rw [List.append_nil]
    obtain ⟨ends, unrefused⟩ := resolveConfirmed_ends (.inr rfl) here
    cases ends with
    | fine quiet => exact .passed (fun failed => absurd failed quiet.not_fails) unrefused
    | reported unquiet silent => exact .passed silent unrefused
  · cases (resolveConfirmed_ends (.inr rfl) here).1 with
    | escaped failed warns => exact .escaped failed warns

theorem confirmVisit_ends {epochs : List EpochRecord} {r : Except Raised (Option Hold)}
    (yields : Yields (Prog.visit (confirmListed at_) epochs) t r) : ConfirmEnds at_ t r := by
  let passed (t : List Performed) : Prop :=
    (Fails at_ .raised t → at_.warns = false) ∧ ¬ Fails at_ .refused t
  have more : ∀ ep t₁ t₂, passed t₁ → Yields (confirmListed at_ ep) t₂ (.ok none) →
      passed (t₁ ++ t₂) := by
    rintro ep t₁ t₂ ⟨silent, unrefused⟩ here
    cases confirmListed_ends here with
    | passed silent' unrefused' =>
      refine ⟨fun failed => ?_, fun failed => ?_⟩
      · exact (fails_append.mp failed).elim silent silent'
      · exact (fails_append.mp failed).elim unrefused unrefused'
  rcases yields_visit passed (by simp [passed, Fails]) more yields with
    ⟨⟨silent, unrefused⟩, rfl⟩ | ⟨t₁, t₂, ep, -, rfl, -, stopped, here⟩
  · exact .passed silent unrefused
  · cases confirmListed_ends here with
    | escaped failed warns => exact .escaped (fails_append.mpr (.inr failed)) warns
    | passed silent unrefused => exact absurd rfl stopped

/-! ### Retire as a whole -/

/-- The last resolution met an exception. -/
def ConfirmFails (at_ : Surroundings) (t : List Performed) : Prop :=
  ∃ ev ∈ t, ev.1.site = .confirming ∧ failureOf at_ ev = some .raised

/-- The oracle, on what the store answered it, finds something besides the pointer. -/
def JudgedAgainst (generationId : String) (t : List Performed) : Prop :=
  ∃ blockers, Yields (generationRetirementOracleBlockers (ask .judging) generationId)
    (t.filter fun ev => ev.1.site = .judging) (.ok blockers) ∧ tolerated blockers = false

/-- Retire answers that it is blocked, and has left every generation alone. -/
def Contained (t : List Performed) (r : Except Raised RetireReply) : Prop :=
  (∃ state hold, r = .ok (.blocked state hold)) ∧ ∀ ev ∈ t, sparing ev.1.effect = true

/-- How the gates end after a fault in them. -/
inductive GatesEnd (at_ : Surroundings) (g : String) :
    List Performed → Except Raised (Option Hold) → Prop
  | escaped {t : List Performed} (failed : Fails at_ .raised t) (warns : at_.warns = true) :
      GatesEnd at_ g t (.error .typeError)
  | held {t : List Performed} (silent : Fails at_ .raised t → at_.warns = false)
      (unconfirmed : ¬ ConfirmFails at_ t) (hold : Hold) : GatesEnd at_ g t (.ok (some hold))
  | judged {t₁ t₂ : List Performed} {r : Except Raised (Option Hold)}
      (silent : at_.warns = false) (failed : ConfirmFails at_ (t₁ ++ t₂))
      (before : ∀ ev ∈ t₁, ev.1.site ≠ .judging) (yields : Yields (judge g) t₂ r) :
      GatesEnd at_ g (t₁ ++ t₂) r

/-- Neither of the last two parts. -/
def Early (site : Site) : Prop := site ≠ .confirming ∧ site ≠ .judging

theorem early_reaping (epoch : String) : Early (.reaping epoch) := ⟨nofun, nofun⟩

theorem early_retiring : Early .retiring := ⟨nofun, nofun⟩

theorem not_confirmFails {α : Type} {p : Routine α} {r : Except Raised α}
    (only : Only (Within Early) p) (yields : Yields p t r) : ¬ ConfirmFails at_ t := by
  rintro ⟨ev, member, here, -⟩
  exact (only.events yields ev member).1.1 here

theorem confirmFails_append {t₁ t₂ : List Performed} :
    ConfirmFails at_ (t₁ ++ t₂) ↔ ConfirmFails at_ t₁ ∨ ConfirmFails at_ t₂ := by
  simp only [ConfirmFails, List.mem_append, or_and_right, exists_or]

theorem Quiet.not_confirmFails (quiet : Quiet at_ t) : ¬ ConfirmFails at_ t := by
  rintro ⟨ev, member, -, failed⟩
  rw [quiet ev member] at failed
  cases failed

theorem early_reapAll {g : String} : Only (Within Early) (reapAll at_ g) :=
  only_reapAll (fits_within early_retiring) fun epoch => fits_within (early_reaping epoch)

theorem confirmAll_ends {g : String} {r : Except Raised (Option Hold)}
    (yields : Yields (confirmAll at_ g) t r) (unquiet : ¬ Quiet at_ t) : ConfirmEnds at_ t r := by
  have retiring : Helperless .retiring := .inl rfl
  rcases yields_bind.mp yields with ⟨epochs, t₁, t₂, rfl, asked, here⟩ | ⟨x, asked, rfl⟩
  · have quiet : Quiet at_ t₁ := quiet_of_only (only_ask (asks_within retiring)) asked
    cases confirmVisit_ends here with
    | escaped failed warns => exact .escaped (fails_append.mpr (.inr failed)) warns
    | passed silent unrefused =>
      refine .passed (fun failed => silent ?_) fun failed => unrefused ?_
      · exact (fails_append.mp failed).resolve_left quiet.not_fails
      · exact (fails_append.mp failed).resolve_left quiet.not_fails
  · exact absurd (quiet_of_only (only_ask (asks_within retiring)) asked) unquiet

/-- What is not quiet and not refused in the last resolution is an exception there. -/
theorem confirmFails_of_unquiet {g : String} {r : Except Raised (Option Hold)}
    (yields : Yields (confirmAll at_ g) t r) (unquiet : ¬ Quiet at_ t)
    (unrefused : ¬ Fails at_ .refused t) : ConfirmFails at_ t := by
  simp only [Quiet, not_forall] at unquiet
  obtain ⟨ev, member, failed⟩ := unquiet
  have only : Only (Within fun site => site = .retiring ∨ site = .confirming)
      (confirmAll at_ g) := only_confirmAll (fits_within (.inl rfl)) (fits_within (.inr rfl))
  have here := (only.events yields ev member).1
  have confirming : ev.1.site = .confirming := by
    refine here.resolve_left fun retiring => failed ?_
    obtain ⟨⟨site, effect⟩, answer⟩ := ev
    simp only at retiring
    subst retiring
    rfl
  refine ⟨ev, member, confirming, ?_⟩
  cases kind : failureOf at_ ev with
  | none => exact absurd kind failed
  | some kind' =>
    cases kind' with
    | raised => rfl
    | refused => exact absurd ⟨ev, member, kind⟩ unrefused

theorem gates_ends {g : String} {r : Except Raised (Option Hold)}
    (yields : Yields (gates at_ g) t r) (unquiet : ¬ Quiet at_ t) : GatesEnd at_ g t r := by
  rcases yields_otherwise.mp yields with ⟨t₁, t₂, rfl, reaped, rest⟩ | ⟨stopped, reaped⟩
  swap
  · -- The reaps end it.
    cases reapAll_stopping g t r reaped with
    | quiet quiet => exact absurd quiet unquiet
    | escaped failed warns => exact .escaped failed warns
    | held unquiet' silent hold => exact .held silent (not_confirmFails early_reapAll reaped) hold
  have quiet₁ : Quiet at_ t₁ := by
    cases reapAll_stopping g t₁ _ reaped with
    | quiet quiet => exact quiet
  rcases yields_otherwise.mp rest with ⟨t₃, t₄, rfl, released, rest'⟩ | ⟨stopped, released⟩
  swap
  · have quiet₂ : Quiet at_ t₂ := quiet_of_only (only_releaseAll (fits_within (.inl rfl))) released
    exact absurd (quiet_append.mpr ⟨quiet₁, quiet₂⟩) unquiet
  have quiet₃ : Quiet at_ t₃ := quiet_of_only (only_releaseAll (fits_within (.inl rfl))) released
  have unquiet₄ : ¬ Quiet at_ t₄ := fun quiet₄ =>
    unquiet (quiet_append.mpr ⟨quiet₁, quiet_append.mpr ⟨quiet₃, quiet₄⟩⟩)
  have early : ∀ ev ∈ t₁ ++ t₃, ev.1.site ≠ .judging := by
    intro ev member
    rcases List.mem_append.mp member with member | member
    · exact (early_reapAll.events reaped ev member).1.2
    · exact ((only_releaseAll (fits_within early_retiring)).events released ev member).1.2
  rcases yields_otherwise.mp rest' with ⟨t₅, t₆, rfl, confirmed, judged⟩ | ⟨stopped, confirmed⟩
  · have quiet₆ : Quiet at_ t₆ := quiet_of_only (only_judge (fits_within (.inr (.inr rfl)))) judged
    have unquiet₅ : ¬ Quiet at_ t₅ := fun quiet₅ => unquiet₄ (quiet_append.mpr ⟨quiet₅, quiet₆⟩)
    have only : Only (Within (· ≠ .judging)) (confirmAll at_ g) := only_confirmAll (fits_within nofun) (fits_within nofun)
    have notJudging : ∀ ev ∈ t₅, ev.1.site ≠ .judging := fun ev member =>
      (only.events confirmed ev member).1
    cases confirmAll_ends confirmed unquiet₅ with
    | passed silent unrefused =>
      have failed := confirmFails_of_unquiet confirmed unquiet₅ unrefused
      have whole : t₁ ++ (t₃ ++ (t₅ ++ t₆)) = (t₁ ++ t₃ ++ t₅) ++ t₆ := by simp
      rw [whole]
      refine .judged (silent ?_) ?_ ?_ judged
      · obtain ⟨ev, member, -, raised⟩ := failed
        exact ⟨ev, member, raised⟩
      · exact confirmFails_append.mpr (.inl (confirmFails_append.mpr (.inr failed)))
      · intro ev member
        rcases List.mem_append.mp member with member | member
        · exact early ev member
        · exact notJudging ev member
  · cases confirmAll_ends confirmed unquiet₄ with
    | escaped failed warns =>
      exact .escaped (fails_append.mpr (.inr (fails_append.mpr (.inr failed)))) warns
    | passed silent unrefused => exact absurd rfl stopped

/-- What the last phase ends with is never a blocked answer. -/
theorem finalize_not_blocked {g : String} {state : Lifecycle} {hold : Hold} :
    ¬ Yields (finalize g) t (.ok (.blocked state hold)) := by
  intro yields
  rcases yields_bind.mp yields with ⟨_, _, _, -, -, yields⟩ | ⟨x, -, absurd⟩
  swap
  · cases absurd
  rcases yields_bind.mp yields with ⟨_, _, _, -, -, yields'⟩ | ⟨x, -, absurd⟩
  swap
  · cases absurd
  rcases yields_bind.mp yields' with ⟨_, _, _, -, -, yields⟩ | ⟨x, -, absurd⟩
  swap
  · cases absurd
  rcases yields_bind.mp yields with ⟨_, _, _, -, -, yields'⟩ | ⟨x, -, absurd⟩
  swap
  · cases absurd
  rcases yields_bind.mp yields' with ⟨_, _, _, -, -, yields⟩ | ⟨x, -, absurd⟩
  swap
  · cases absurd
  obtain ⟨-, absurd⟩ := yields_pure.mp yields
  cases absurd

/-- The judging part of a trace, when only its end judges. -/
theorem filter_judging {t₁ t₂ : List Performed} {g : String} {r : Except Raised (Option Hold)}
    (before : ∀ ev ∈ t₁, ev.1.site ≠ .judging) (judged : Yields (judge g) t₂ r) :
    (t₁ ++ t₂).filter (fun ev => ev.1.site = .judging) = t₂ := by
  have only : Only (Within (· = .judging)) (judge g) := only_judge (fits_within rfl)
  rw [List.filter_append, List.filter_eq_nil_iff.mpr (by simpa using before), List.nil_append,
    List.filter_eq_self]
  exact fun ev member => by simpa using (only.events judged ev member).1

/-- The oracle decides how the judging ends. -/
theorem judge_blocks {t₁ t₂ : List Performed} {g : String} {r : Except Raised (Option Hold)}
    (before : ∀ ev ∈ t₁, ev.1.site ≠ .judging) (judged : Yields (judge g) t₂ r) :
    JudgedAgainst g (t₁ ++ t₂) ↔ ∃ hold, r = .ok (some hold) := by
  unfold JudgedAgainst
  rw [filter_judging before judged]
  rcases yields_bind.mp judged with ⟨blockers, t₃, t₄, rfl, asked, verdict⟩ | ⟨x, asked, rfl⟩
  · have ended : t₄ = [] := by
      split at verdict <;> exact (yields_pure.mp verdict).1
    subst ended
    rw [List.append_nil]
    constructor
    · rintro ⟨blockers', asked', against⟩
      have same := asked.det asked'
      cases same
      rw [if_neg (by simp [against])] at verdict
      exact ⟨.oracle blockers, (yields_pure.mp verdict).2⟩
    · rintro ⟨hold, rfl⟩
      refine ⟨blockers, asked, ?_⟩
      by_contra against
      rw [if_pos (by simpa using against)] at verdict
      cases (yields_pure.mp verdict).2
  · constructor
    · rintro ⟨blockers, asked', -⟩
      cases asked.det asked'
    · rintro ⟨hold, absurd⟩
      cases absurd

theorem sparing_of_only {α : Type} {p : Routine α} {r : Except Raised α} {sites : Site → Prop}
    (only : Only (Within sites) p) (yields : Yields p t r) :
    ∀ ev ∈ t, sparing ev.1.effect = true :=
  fun ev member => (only.events yields ev member).2

/-- The two phases before the last one, as one verdict. -/
theorem phases_contained {g : String} {current : Option String} {epochs : List EpochRecord}
    {r : Except Raised (Option Hold)}
    (yields : Yields ((Prog.visit (certifyListed at_ g current) epochs).otherwise (gates at_ g)) t r)
    (unquiet : ¬ Quiet at_ t) :
    (∃ hold, r = .ok (some hold)) ↔
      (Fails at_ .raised t → at_.warns = false) ∧ (ConfirmFails at_ t → JudgedAgainst g t) := by
  have early : Only (Within Early) (Prog.visit (certifyListed at_ g current) epochs) :=
    only_certifyVisit (fun _ => fits_within early_retiring) (fun _ => fits_within early_retiring)
      (fits_within ⟨nofun, nofun⟩) (fun _ => fits_within ⟨nofun, nofun⟩)
      fun _ => fits_within ⟨nofun, nofun⟩
  have stopping : Stopping at_ (Prog.visit (certifyListed at_ g current) epochs) :=
    .visit (certifyListed_stopping g current) epochs
  -- A warning that raised is what both sides exclude.
  have escapes : Fails at_ .raised t → at_.warns = true →
      ((∃ hold, (.error .typeError : Except Raised (Option Hold)) = .ok (some hold)) ↔
        (Fails at_ .raised t → at_.warns = false) ∧
          (ConfirmFails at_ t → JudgedAgainst g t)) := by
    intro failed warns
    constructor
    · rintro ⟨hold, absurd⟩
      cases absurd
    · rintro ⟨silent, -⟩
      rw [silent failed] at warns
      cases warns
  rcases yields_otherwise.mp yields with ⟨t₁, t₂, rfl, certified, rest⟩ | ⟨stopped, certified⟩
  · have quiet₁ : Quiet at_ t₁ := by
      cases stopping t₁ _ certified with
      | quiet quiet => exact quiet
    have unquiet₂ : ¬ Quiet at_ t₂ := fun quiet₂ => unquiet (quiet_append.mpr ⟨quiet₁, quiet₂⟩)
    have before : ∀ ev ∈ t₁, ev.1.site ≠ .judging := fun ev member =>
      (early.events certified ev member).1.2
    cases gates_ends rest unquiet₂ with
    | escaped failed warns => exact escapes (fails_append.mpr (.inr failed)) warns
    | held silent unconfirmed hold =>
      refine ⟨fun _ => ⟨fun failed => silent ?_, fun failed => absurd failed ?_⟩,
        fun _ => ⟨hold, rfl⟩⟩
      · exact (fails_append.mp failed).resolve_left quiet₁.not_fails
      · exact fun failed =>
          (confirmFails_append.mp failed).elim quiet₁.not_confirmFails unconfirmed
    | @judged t₃ t₄ _ silent failed earlier judged =>
      have whole : t₁ ++ (t₃ ++ t₄) = (t₁ ++ t₃) ++ t₄ := by simp
      have unjudged : ∀ ev ∈ t₁ ++ t₃, ev.1.site ≠ .judging := by
        intro ev member
        rcases List.mem_append.mp member with member | member
        · exact before ev member
        · exact earlier ev member
      rw [whole, judge_blocks unjudged judged]
      refine ⟨fun blocked => ⟨fun _ => silent, fun _ => blocked⟩, fun both => both.2 ?_⟩
      rw [← whole]
      exact confirmFails_append.mpr (.inr failed)
  · cases stopping t r certified with
    | quiet quiet => exact absurd quiet unquiet
    | escaped failed warns => exact escapes failed warns
    | held unquiet' silent hold =>
      exact ⟨fun _ => ⟨silent, fun failed => absurd failed (not_confirmFails early certified)⟩,
        fun _ => ⟨hold, rfl⟩⟩

/-! ### What stands around the phases -/

/-- The condition under which a fault is contained. -/
def FaultCovered (at_ : Surroundings) (generationId : String) (t : List Performed) : Prop :=
  (Fails at_ .raised t → at_.warns = false) ∧
    (ConfirmFails at_ t → JudgedAgainst generationId t)

/-- The parts that are `retire` itself. -/
def Owned (site : Site) : Prop := site = .retiring ∨ site = .reading

/-- Effects of `retire` itself, on no helper's behalf. -/
def Own (t : List Performed) : Prop := ∀ ev ∈ t, Owned ev.1.site

theorem Own.quiet (own : Own t) : Quiet at_ t := by
  rintro ⟨⟨site, effect⟩, answer⟩ member
  rcases own _ member with here | here <;> simp only at here <;> subst here <;> rfl

theorem own_of_only {α : Type} {p : Routine α} {r : Except Raised α}
    (only : Only (fun a => Owned a.site) p) (yields : Yields p t r) : Own t :=
  fun ev member => only.events yields ev member

/-- Effects of its own before and after change nothing. -/
theorem faultCovered_frame {before after : List Performed} {g : String} (own : Own before)
    (own' : Own after) : FaultCovered at_ g (before ++ t ++ after) ↔ FaultCovered at_ g t := by
  have fails : ∀ kind, Fails at_ kind (before ++ t ++ after) ↔ Fails at_ kind t := by
    intro kind
    have quiet : Quiet at_ before := own.quiet
    have quiet' : Quiet at_ after := own'.quiet
    simp [fails_append, quiet.not_fails, quiet'.not_fails]
  have confirms : ConfirmFails at_ (before ++ t ++ after) ↔ ConfirmFails at_ t := by
    have quiet : Quiet at_ before := own.quiet
    have quiet' : Quiet at_ after := own'.quiet
    simp [confirmFails_append, quiet.not_confirmFails, quiet'.not_confirmFails]
  have unjudged : ∀ {u : List Performed}, Own u →
      u.filter (fun ev => ev.1.site = .judging) = [] := by
    intro u own
    rw [List.filter_eq_nil_iff]
    intro ev member
    rcases own ev member with here | here <;> simp [here]
  have judged : JudgedAgainst g (before ++ t ++ after) ↔ JudgedAgainst g t := by
    simp only [JudgedAgainst, List.filter_append, unjudged own, unjudged own', List.nil_append,
      List.append_nil]
  rw [FaultCovered, FaultCovered, fails, confirms, judged]

theorem own_finalize {g : String} : Only (fun a => Owned a.site) (finalize g) :=
  only_finalize fun _ _ => .inl rfl

theorem retireLocked_contained {g : String} {gen : GenerationRow} {epochs : List EpochRecord}
    {r : Except Raised RetireReply} (yields : Yields (retireLocked at_ g gen epochs) t r)
    (unquiet : ¬ Quiet at_ t) : Contained t r ↔ FaultCovered at_ g t := by
  have only : Only (Within fun _ => True)
      ((Prog.visit (certifyListed at_ g gen.currentEpoch) epochs).otherwise (gates at_ g)) :=
    .otherwise
      (only_certifyVisit (fun _ => fits_within trivial) (fun _ => fits_within trivial)
        (fits_within trivial) (fun _ => fits_within trivial) fun _ => fits_within trivial)
      (only_gates (fits_within trivial) (fun _ => fits_within trivial) (fits_within trivial)
        (fits_within trivial))
  rcases yields_bind.mp yields with ⟨verdict, t₁, t₂, rfl, phases, last⟩ | ⟨x, phases, rfl⟩
  · have spared := sparing_of_only only phases
    cases verdict with
    | some hold =>
      obtain ⟨rfl, rfl⟩ := yields_pure.mp last
      rw [List.append_nil] at unquiet ⊢
      rw [FaultCovered, ← phases_contained phases unquiet]
      exact ⟨fun _ => ⟨hold, rfl⟩, fun _ => ⟨⟨gen.lifecycleState, hold, rfl⟩, spared⟩⟩
    | none =>
      -- The last phase was reached: the answer is not a blocked one.
      have own := own_of_only own_finalize last
      have unquiet₁ : ¬ Quiet at_ t₁ := fun quiet₁ =>
        unquiet (quiet_append.mpr ⟨quiet₁, own.quiet⟩)
      have framed : FaultCovered at_ g ([] ++ t₁ ++ t₂) ↔ FaultCovered at_ g t₁ :=
        faultCovered_frame (by simp [Own]) own
      rw [List.nil_append] at framed
      rw [framed, FaultCovered, ← phases_contained phases unquiet₁]
      constructor
      · rintro ⟨⟨state, hold, rfl⟩, -⟩
        exact absurd last finalize_not_blocked
      · rintro ⟨hold, absurd⟩
        cases absurd
  · rw [FaultCovered, ← phases_contained phases unquiet]
    constructor
    · rintro ⟨⟨state, hold, absurd⟩, -⟩
      cases absurd
    · rintro ⟨hold, absurd⟩
      cases absurd

/-- What `retire` does around the phases spares the generations. -/
abbrev Plain (a : Act) : Prop := Within Owned a

theorem plain_readGeneration {g : String} : Only Plain (readGeneration g) :=
  only_readGeneration (asks_within (.inr rfl))

theorem plain_listing {g : String} : Only Plain (ask .reading (.listEpochs g)) :=
  only_ask (asks_within (.inr rfl))

theorem plain_lock : Only Plain lock := .perform ⟨.inl rfl, rfl⟩ fun _ => .done

/-- Plain effects, as a trace. -/
def AllPlain (t : List Performed) : Prop := ∀ ev ∈ t, Plain ev.1

theorem AllPlain.own (plain : AllPlain t) : Own t := fun ev member => (plain ev member).1

theorem AllPlain.append {t₁ t₂ : List Performed} (left : AllPlain t₁) (right : AllPlain t₂) :
    AllPlain (t₁ ++ t₂) := by
  intro ev member
  rcases List.mem_append.mp member with member | member
  · exact left ev member
  · exact right ev member

theorem yields_unlock {r r' : Except Raised RetireReply}
    (yields : Yields (unlock >>= fun _ => (.done r' : Routine RetireReply)) t r) :
    AllPlain t ∧ r = r' := by
  obtain ⟨_, t', rfl, rest⟩ := yields_perform.mp yields
  obtain ⟨rfl, rfl⟩ := yields_done.mp rest
  refine ⟨fun ev member => ?_, rfl⟩
  rw [List.mem_singleton] at member
  subst member
  exact ⟨.inl rfl, rfl⟩

/-- A store error or a refusal inside a helper ends in a blocked answer that leaves the generation
alone exactly when it raised nothing past the helpers' warning and the oracle catches what the last
resolution passed over. -/
theorem retire_contained_iff {g : String} {r : Except Raised RetireReply}
    (yields : Yields (retire at_ g) t r) (fault : ¬ Quiet at_ t) :
    Contained t r ↔ FaultCovered at_ g t := by
  unfold retire at yields
  split at yields
  · obtain ⟨rfl, -⟩ := yields_raise.mp yields
    exact absurd (by simp [Quiet]) fault
  -- What is read before the lock belongs to no helper.
  rcases yields_bind.mp yields with ⟨gen, t₁, t₂, rfl, read, rest⟩ | ⟨x, read, rfl⟩
  swap
  · have plain : AllPlain t := plain_readGeneration.events read
    exact absurd plain.own.quiet fault
  have plain₁ : AllPlain t₁ := plain_readGeneration.events read
  split at rest
  · obtain ⟨rfl, -⟩ := yields_pure.mp rest
    exact absurd (by simpa using plain₁.own.quiet) fault
  split at rest
  · obtain ⟨rfl, -⟩ := yields_raise.mp rest
    exact absurd (by simpa using plain₁.own.quiet) fault
  rcases yields_bind.mp rest with ⟨epochs, t₃, t₄, rfl, listed, rest'⟩ | ⟨x, listed, rfl⟩
  swap
  · have plain₂ : AllPlain t₂ := plain_listing.events listed
    exact absurd (plain₁.append plain₂).own.quiet fault
  have plain₃ : AllPlain t₃ := plain_listing.events listed
  unfold retireListed at rest'
  split at rest'
  · obtain ⟨rfl, -⟩ := yields_raise.mp rest'
    exact absurd (by simpa using (plain₁.append plain₃).own.quiet) fault
  rcases yields_bind.mp rest' with ⟨_, t₅, t₆, rfl, locked, body⟩ | ⟨x, locked, rfl⟩
  swap
  · have plain₄ : AllPlain t₄ := plain_lock.events locked
    exact absurd (plain₁.append (plain₃.append plain₄)).own.quiet fault
  have plain₅ : AllPlain t₅ := plain_lock.events locked
  obtain ⟨r', t₇, t₈, rfl, body', unlocked⟩ := yields_ensure.mp body
  obtain ⟨plain₈, rfl⟩ := yields_unlock unlocked
  have before : AllPlain (t₁ ++ (t₃ ++ t₅)) := plain₁.append (plain₃.append plain₅)
  have whole : t₁ ++ (t₃ ++ (t₅ ++ (t₇ ++ t₈))) = (t₁ ++ (t₃ ++ t₅)) ++ t₇ ++ t₈ := by simp
  rw [whole] at fault ⊢
  have unquiet : ¬ Quiet at_ t₇ := fun quiet =>
    fault (quiet_append.mpr ⟨quiet_append.mpr ⟨before.own.quiet, quiet⟩, plain₈.own.quiet⟩)
  rw [faultCovered_frame before.own plain₈.own, ← retireLocked_contained body' unquiet]
  refine and_congr_right fun _ => ⟨fun spared ev member => spared ev (by simp [member]), ?_⟩
  intro spared ev member
  rcases List.mem_append.mp member with member | member
  · rcases List.mem_append.mp member with member | member
    · exact (before ev member).2
    · exact spared ev member
  · exact (plain₈ ev member).2

/-! ### A fault that gets away -/

/-- A draining generation whose one epoch is certified and dead. -/
def certifiedDead : Db :=
  Store.machine.after {}
    [.createGeneration sampleGeneration none .draining none (.finite 1),
      .insertEpoch firstEpoch sampleGeneration none (.finite 1),
      .setEpochProcessState firstEpoch .dead,
      .setEpochRetirement firstEpoch .certified (.text "c") (some 0)]

/-- A store whose listing of receipts fails, with nobody else about. -/
def listingFails : (a : Act) → Db → a.Answer × Db
  | ⟨_, .ask (.listTerminalForEpoch _)⟩, db =>
    (.error (.nelix ⟨.storeUnavailable, "database is locked"⟩), db)
  | ⟨_, .ask q⟩, db => (db.answer q, db)
  | ⟨_, .write call⟩, db => ((call.apply db).map fun _ => (), settled db (call.apply db))
  | ⟨_, .generations⟩, db => ([], db)
  | ⟨_, .forward ..⟩, db => (.error (.nelix ⟨.generationUnavailable, "no daemon"⟩), db)
  | ⟨_, .lock⟩, db => (.ok (), db)
  | ⟨_, .unlock⟩, db => ((), db)
  | ⟨_, .reapHolder ..⟩, db => (.ok true, db)
  | ⟨_, .releaseEpoch ..⟩, db => (.ok (), db)
  | ⟨_, .pidAlive _⟩, db => (.ok false, db)
  | ⟨_, .readChild _⟩, db => (.missing, db)
  | ⟨_, .startFingerprint _⟩, db => (none, db)
  | ⟨_, .killpg ..⟩, db => (.processLookupError, db)
  | ⟨_, .time⟩, db => (0, db)

/-- Warnings are let through, as the standard logger does by default. -/
def noisy : Surroundings := { loads := fun _ => none, warns := true, leases := true }

def silent : Surroundings := { noisy with warns := false }

theorem retire_contained_listing :
    Contained ((retire silent sampleGeneration).trail listingFails certifiedDead)
        ((retire silent sampleGeneration).run listingFails certifiedDead).1 ↔
      FaultCovered silent sampleGeneration
        ((retire silent sampleGeneration).trail listingFails certifiedDead) :=
  retire_contained_iff (yields_run ..) (by decide +kernel)

/-- With warnings on the store's error ends in a TypeError; with warnings off the generation is
retired past it. -/
theorem listing_fault_uncontained :
    ((retire noisy sampleGeneration).run listingFails certifiedDead).1 = .error .typeError ∧
      ((retire silent sampleGeneration).run listingFails certifiedDead).1 =
        .ok (.ok .retired false) := by
  decide +kernel

end Nelix.Router
