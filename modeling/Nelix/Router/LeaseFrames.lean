import Nelix.Router.LeaseAccounting

/-!
# What a lease operation leaves alone

`Steady lost s s'` says that a step stays in the incarnation, takes no registration back and loses
no recorded entry but those in `lost`. Each request of a daemon is steady up to the entries it
names, and no request takes a count above its limit.
-/
namespace Nelix.Router

open Core

namespace LeaseService

/-- The entry stands under its own key. -/
def Recorded (s : LeaseService) (entry : TokenEntry) : Prop :=
  (s.epochState entry.key.base.epoch).byKindKey.lookup entry.key = some entry

structure Steady (lost : TokenEntry → Prop) (s s' : LeaseService) : Prop where
  id : s'.reconciliationId = s.reconciliationId
  limit : ∀ kind, s'.limit kind = s.limit kind
  reconciled : ∀ k, s.reconciled k = true → s'.reconciled k = true
  recorded : ∀ entry, s.Recorded entry → ¬ lost entry → s'.Recorded entry

variable {s s' s'' : LeaseService} {lost : TokenEntry → Prop}

theorem Steady.refl (lost : TokenEntry → Prop) (s : LeaseService) : Steady lost s s :=
  ⟨rfl, fun _ => rfl, fun _ kept => kept, fun _ kept _ => kept⟩

theorem Steady.trans (first : Steady lost s s') (second : Steady lost s' s'') :
    Steady lost s s'' where
  id := second.id.trans first.id
  limit kind := (second.limit kind).trans (first.limit kind)
  reconciled k kept := second.reconciled k (first.reconciled k kept)
  recorded entry kept safe := second.recorded entry (first.recorded entry kept safe) safe

theorem Steady.mono {lost' : TokenEntry → Prop} (steady : Steady lost s s')
    (more : ∀ entry, lost entry → lost' entry) : Steady lost' s s' :=
  { steady with
    recorded := fun entry kept safe =>
      steady.recorded entry kept fun gone => safe (more entry gone) }

theorem SameRecords.steady (same : SameRecords s s') (id : s'.reconciliationId = s.reconciliationId)
    (limit : ∀ kind, s'.limit kind = s.limit kind) : Steady lost s s' where
  id := id
  limit := limit
  reconciled k kept := (same.reconciled id k).trans kept
  recorded entry kept _ := by
    rw [Recorded, same.epochs]
    exact kept

theorem touch_steady (k : EpochKey) : Steady lost s (s.touch k) := by
  refine (@touch_same s k).steady ?_ fun kind => ?_
  · simp only [touch]
    split <;> rfl
  · simp only [touch]
    split
    · rfl
    · cases kind <;> rfl

/-- A new record for one epoch that keeps its registration. -/
theorem setEpoch_steady {k : EpochKey} {es : EpochLeaseState}
    (rid : es.reconciledRid = (s.epochState k).reconciledRid)
    (epochs : s'.epochs = s.epochs.insert k es)
    (id : s'.reconciliationId = s.reconciliationId)
    (limit : ∀ kind, s'.limit kind = s.limit kind)
    (kept : ∀ entry, entry.key.base.epoch = k → s.Recorded entry → ¬ lost entry →
      es.byKindKey.lookup entry.key = some entry) : Steady lost s s' := by
  have here : s'.epochState k = es := by simp [epochState, epochs]
  have elsewhere : ∀ k', k' ≠ k → s'.epochState k' = s.epochState k' := by
    intro k' other
    simp only [epochState, epochs]
    rw [AList.lookup_insert_ne other]
  refine ⟨id, limit, fun k' registered => ?_, fun entry held safe => ?_⟩
  · by_cases same : k' = k
    · subst same
      simp only [reconciled, here, rid, id]
      exact registered
    · simp only [reconciled, elsewhere k' same, id]
      exact registered
  · by_cases same : entry.key.base.epoch = k
    · rw [Recorded, same, here]
      exact kept entry same held safe
    · rw [Recorded, elsewhere _ same]
      exact held

/-! ### Acquire -/

theorem grant_steady {base : BaseKey} {kind : LeaseKind} {tokenId : String}
    (absent : (s.epochState base.epoch).byKindKey.lookup ⟨base, kind⟩ = none) :
    Steady lost s (s.grant base kind tokenId) := by
  have rid : (((s.epochState base.epoch).record ⟨⟨base, kind⟩, kind, tokenId⟩).bump kind
      1).reconciledRid = (s.epochState base.epoch).reconciledRid := by
    rw [EpochLeaseState.bump_reconciledRid]
    rfl
  refine setEpoch_steady rid (by rw [grant, bumpGlobal_epochs]; rfl) (by cases kind <;> rfl)
    (fun kind' => by cases kind <;> cases kind' <;> rfl) ?_
  intro entry epoch held _
  have other : entry.key ≠ ⟨base, kind⟩ := by
    intro same
    rw [Recorded, epoch, same, absent] at held
    cases held
  rw [EpochLeaseState.bump_byKindKey, EpochLeaseState.record, AList.lookup_insert_ne other]
  rwa [Recorded, epoch] at held

theorem settleIf_steady {base : BaseKey} {kind : LeaseKind} {mint : LeaseKind → String}
    {found : Option (Option TokenEntry)}
    (absent : found = some none →
      (s.epochState base.epoch).byKindKey.lookup ⟨base, kind⟩ = none) :
    Steady lost s (s.settleIf base kind mint found).1 := by
  rcases found with _ | _ | entry
  · exact .refl lost s
  · exact grant_steady (absent rfl)
  · exact .refl lost s

/-- What a settled kind was given stands under its key. -/
theorem settleIf_recorded (ok : s.Ok) {base : BaseKey} {kind : LeaseKind}
    {mint : LeaseKind → String} {found : Option (Option TokenEntry)} {granted : Granted}
    (holds : ∀ inner, found = some inner →
      (s.epochState base.epoch).byKindKey.lookup ⟨base, kind⟩ = inner)
    (given : (s.settleIf base kind mint found).2 = some granted) :
    (s.settleIf base kind mint found).1.Recorded ⟨⟨base, kind⟩, kind, granted.tokenId⟩ := by
  rcases found with _ | _ | entry
  · cases given
  · simp only [settleIf, settle, Option.some.injEq] at given
    subst given
    simp only [settleIf, settle, Recorded, grant_epochState, EpochLeaseState.bump_byKindKey]
    simp [EpochLeaseState.record]
  · simp only [settleIf, settle, Option.some.injEq] at given
    subst given
    have held := holds (some entry) rfl
    obtain ⟨own, token⟩ := (ok.epochState base.epoch).matched.keys _ entry held
    obtain ⟨-, kinds, -⟩ := (ok.epochState base.epoch).matched.tokens _ entry token
    have same : (⟨⟨base, kind⟩, kind, entry.tokenId⟩ : TokenEntry) = entry := by
      obtain ⟨key, kind', tid⟩ := entry
      simp only at own kinds
      subst own
      subst kinds
      rfl
    simpa only [settleIf, settle, Recorded, same, own] using held

theorem acquire_steady (base : BaseKey) (kinds : List String) (rid : Option String)
    (mint : LeaseKind → String) : Steady lost s (s.acquire base kinds rid mint).1 := by
  have touched : Steady lost s (s.touch base.epoch) := touch_steady base.epoch
  cases reply : (s.acquire base kinds rid mint).2 with
  | error err =>
    simp only [acquire] at reply ⊢
    split
    · exact .refl lost s
    · split
      · exact touched
      · split
        · exact touched
        · split
          · exact touched
          · simp_all
  | ok grants =>
    obtain ⟨active, live, admitsActive, admitsLive, result, -, -⟩ := acquire_ok reply
    rw [result]
    refine touched.trans (.trans (settleIf_steady fun none => ?_) (settleIf_steady fun none => ?_))
    · exact ((admitIf_ok admitsActive).2 _ none).1
    · rw [settleIf_otherKey base (by decide) mint active]
      exact ((admitIf_ok admitsLive).2 _ none).1

/-- An admitted acquire comes from a registered epoch, and what it grants is recorded. -/
theorem acquire_grants (ok : s.Ok) {base : BaseKey} {kinds : List String} {rid : Option String}
    {mint : LeaseKind → String} {grants : Grants} (unique : s.MintsFresh base mint)
    (done : (s.acquire base kinds rid mint).2 = .ok grants) :
    rid = some s.reconciliationId ∧ s.reconciled base.epoch = true ∧
      ∀ kind granted, grants.get kind = some granted →
        (s.acquire base kinds rid mint).1.Recorded ⟨⟨base, kind⟩, kind, granted.tokenId⟩ := by
  have touched := ok.touch base.epoch
  have same := @touch_same s base.epoch
  have id : (s.touch base.epoch).reconciliationId = s.reconciliationId :=
    (@touch_steady s (fun _ => False) base.epoch).id
  refine ⟨?_, ?_, ?_⟩
  · by_contra stale
    simp [acquire, fresh, stale] at done
  · by_contra unregistered
    rw [← same.reconciled id base.epoch] at unregistered
    simp only [acquire, unregistered] at done
    split at done <;> cases done
  · obtain ⟨active, live, admitsActive, admitsLive, result, first, second⟩ := acquire_ok done
    have firstOk : ((s.touch base.epoch).settleIf base .active mint active).1.Ok := by
      refine touched.settleIf ?_ fun none => ((admitIf_ok admitsActive).2 _ none).1
      rw [same.epochs]
      exact unique.2 .active
    have liveHolds : ∀ inner, live = some inner →
        ((((s.touch base.epoch).settleIf base .active mint active).1.epochState
          base.epoch).byKindKey.lookup ⟨base, .live⟩) = inner := by
      intro inner found
      rw [settleIf_otherKey base (by decide) mint active]
      exact ((admitIf_ok admitsLive).2 inner found).1
    intro kind granted given
    rw [result]
    cases kind with
    | active =>
      have recorded := settleIf_recorded touched
        (fun inner found => ((admitIf_ok admitsActive).2 inner found).1) (first.symm.trans given)
      have steady : Steady (fun _ => False)
          ((s.touch base.epoch).settleIf base .active mint active).1
          (((s.touch base.epoch).settleIf base .active mint active).1.settleIf base .live mint
            live).1 :=
        settleIf_steady fun none => liveHolds _ none
      exact steady.recorded _ recorded (by simp)
    | live => exact settleIf_recorded firstOk liveHolds (second.symm.trans given)

/-! ### Release -/

theorem drop_steady (ok : s.Ok) {k : EpochKey} {entry : TokenEntry}
    (present : (s.epochState k).tokens.lookup entry.tokenId = some entry) :
    Steady (fun e => e.key.base.epoch = k ∧ e.tokenId = entry.tokenId) s (s.drop k entry) := by
  have rid : (((s.epochState k).forget entry).bump entry.kind (-1)).reconciledRid =
      (s.epochState k).reconciledRid := by
    rw [EpochLeaseState.bump_reconciledRid]
    rfl
  refine setEpoch_steady rid (by rw [drop, bumpGlobal_epochs]; rfl)
    (by simp only [drop]; cases entry.kind <;> rfl)
    (fun kind => by simp only [drop]; cases entry.kind <;> cases kind <;> rfl) ?_
  intro other epoch held safe
  rw [Recorded, epoch] at held
  have different : other.key ≠ entry.key := by
    intro same
    have own := ((ok.epochState k).matched.tokens _ entry present).2.2
    rw [← same, held] at own
    cases own
    exact safe ⟨epoch, rfl⟩
  rw [EpochLeaseState.bump_byKindKey, EpochLeaseState.forget, AList.lookup_erase_ne different]
  exact held

theorem release_steady (ok : s.Ok) (k : EpochKey) (tokenId : String) (rid : Option String) :
    Steady (fun e => e.key.base.epoch = k ∧ e.tokenId = tokenId) s (s.release k tokenId rid).1 := by
  have touched := ok.touch k
  simp only [release]
  split
  · exact .refl _ s
  · split
    · exact touch_steady k
    · split
      · exact touch_steady k
      next entry found =>
        have own := ((touched.epochState k).matched.tokens tokenId entry found).1
        have dropped := drop_steady touched (own ▸ found)
        rw [own] at dropped
        exact (touch_steady k).trans dropped

/-- A release takes no count up. -/
theorem release_count (k : EpochKey) (tokenId : String) (rid : Option String)
    (kind : LeaseKind) : (s.release k tokenId rid).1.globalCount kind ≤ s.globalCount kind := by
  have same := @touch_same s k
  simp only [release]
  split
  · exact le_refl _
  · split
    · exact le_of_eq (same.counts kind)
    · split
      · exact le_of_eq (same.counts kind)
      next entry found =>
        simp only [drop, bumpGlobal_count, setEpoch_count, same.counts]
        split <;> omega

/-! ### Registration -/

/-- The registration replaces what the epoch held. -/
def takesOver (s : LeaseService) (k : EpochKey) (rid : String)
    (active live : Option (List RawEntry)) : Bool :=
  !s.reconciled k && (s.registerSnapshot k rid active live).2.isOk

theorem load_steady (k : EpochKey) (entries : List TokenEntry) (activeSize liveSize : Nat) :
    Steady (fun e => e.key.base.epoch = k) s (s.load k entries activeSize liveSize) := by
  have elsewhere : ∀ k', k' ≠ k →
      (s.load k entries activeSize liveSize).epochState k' = s.epochState k' := by
    intro k' other
    simp only [load, epochState]
    rw [AList.lookup_insert_ne other]
  refine ⟨rfl, fun kind => by cases kind <;> rfl, fun k' registered => ?_, fun e held safe => ?_⟩
  · by_cases same : k' = k
    · subst same
      simp [load, reconciled, epochState]
    · rw [reconciled, elsewhere k' same]
      exact registered
  · rw [Recorded, elsewhere _ safe]
    exact held

theorem registerSnapshot_steady (k : EpochKey) (rid : String)
    (active live : Option (List RawEntry)) :
    Steady (fun e => e.key.base.epoch = k ∧ s.takesOver k rid active live = true) s
      (s.registerSnapshot k rid active live).1 := by
  have same := @touch_same s k
  have touched : Steady (fun _ => False) s (s.touch k) := touch_steady k
  by_cases takes : s.takesOver k rid active live = true
  · simp only [takes, and_true]
    simp only [registerSnapshot]
    split
    · exact .refl _ s
    · split
      · exact touch_steady k
      · split
        · exact touch_steady k
        · exact (touch_steady k).trans (load_steady k _ _ _)
  · suffices kept : Steady (fun _ => False) s (s.registerSnapshot k rid active live).1 from
      kept.mono (by simp)
    simp only [takesOver, registerSnapshot] at takes ⊢
    split
    · exact .refl _ s
    · split
      · exact touched
      next current unregistered =>
        split
        · exact touched
        next checked =>
          have before : s.reconciled k = false := by
            rw [← same.reconciled touched.id]
            simpa using unregistered
          simp [before, current, unregistered, checked, Except.isOk, Except.toBool] at takes

/-- After a registration that took over, the epoch is registered and each listed entry stands. -/
theorem registerSnapshot_over {k : EpochKey} {rid : String} {active live : Option (List RawEntry)}
    (takes : s.takesOver k rid active live = true) :
    (s.registerSnapshot k rid active live).1.reconciled k = true ∧
      ∀ entry : TokenEntry, entry.key.kind = entry.kind → entry.key.base.epoch = k →
        entry.wire ∈ (match entry.kind with | .active => active | .live => live).getD [] →
        (s.registerSnapshot k rid active live).1.Recorded entry := by
  simp only [takesOver, Bool.and_eq_true, Bool.not_eq_true'] at takes
  obtain ⟨unregistered, done⟩ := takes
  cases reply : (s.registerSnapshot k rid active live).2 with
  | error err => simp [reply, Except.isOk, Except.toBool] at done
  | ok rid' =>
    constructor
    · have same := @touch_same s k
      have touched : Steady (fun _ => False) s (s.touch k) := touch_steady k
      simp only [registerSnapshot] at reply ⊢
      split at reply
      · cases reply
      next current =>
        split at reply
        next registered =>
          rw [same.reconciled touched.id, unregistered] at registered
          cases registered
        next fresh =>
          split at reply
          · cases reply
          next checked =>
            simp only [current, fresh]
            simp [load, reconciled, epochState]
    · intro entry own epoch listed
      rw [Recorded, epoch]
      exact registerSnapshot_holds unregistered reply own listed

/-- A registration keeps the counts within the limits. -/
theorem registerSnapshot_fits (fits : ∀ kind, s.globalCount kind ≤ s.limit kind) (k : EpochKey)
    (rid : String) (active live : Option (List RawEntry)) (kind : LeaseKind) :
    (s.registerSnapshot k rid active live).1.globalCount kind ≤ s.limit kind := by
  have same := @touch_same s k
  have touched : Steady (fun _ => False) s (s.touch k) := touch_steady k
  simp only [registerSnapshot]
  split
  · exact fits kind
  · split
    · rw [same.counts]
      exact fits kind
    · split
      · rw [same.counts]
        exact fits kind
      next entries activeSize liveSize checked =>
        have admissible := checkSnapshot_ok checked
        have activeFits := admissible.activeFits
        have liveFits := admissible.liveFits
        have activeLimit := touched.limit .active
        have liveLimit := touched.limit .live
        rw [load_count]
        simp only [projected, limit] at activeFits liveFits activeLimit liveLimit
        cases kind <;> simp only [limit] <;> omega

end LeaseService

end Nelix.Router
