import Nelix.Core.Machine
import Nelix.Router.LeaseRecords

/-!
# Lease accounting

The four redundant indexes of the lease service (tokens, kind-keys, epoch counts, global counts)
agree in every state that its operations reach, and each operation keeps to what it promises.
-/
namespace Nelix.Router

open Core

namespace LeaseService

variable {s : LeaseService}

/-! ### Acquire -/

theorem SameRecords.reconciled {s' : LeaseService} (same : SameRecords s s')
    (id : s'.reconciliationId = s.reconciliationId) (k : EpochKey) :
    s'.reconciled k = s.reconciled k := by
  simp only [LeaseService.reconciled, same.epochs k, id]

/-- What admission of one kind says about the records. -/
theorem admitIf_ok {wanted : Bool} {base : BaseKey} {kind : LeaseKind}
    {found : Option (Option TokenEntry)} (admitted : s.admitIf wanted base kind = .ok found) :
    found.isSome = wanted ∧ ∀ holds, found = some holds →
      (s.epochState base.epoch).byKindKey.lookup ⟨base, kind⟩ = holds ∧
        (holds = none → s.globalCount kind < s.limit kind) := by
  simp only [admitIf] at admitted
  split at admitted
  next want =>
    obtain ⟨holds, admits, rfl⟩ := except_map_ok admitted
    refine ⟨by simp [want], fun holds' same => ?_⟩
    obtain rfl : holds = holds' := Option.some.inj same
    simp only [admission] at admits
    split at admits
    next entry held =>
      cases admits
      exact ⟨held, fun none => by simp at none⟩
    next absent =>
      split at admits
      · cases admits
      next room =>
        cases admits
        exact ⟨absent, fun _ => not_le.mp room⟩
  next skip =>
    cases admitted
    exact ⟨by simp [skip], fun holds same => by cases same⟩

/-- Settling one kind counts it when it is new, and leaves the other kind alone. -/
theorem settleIf_count (base : BaseKey) (kind kind' : LeaseKind) (mint : LeaseKind → String)
    (found : Option (Option TokenEntry)) :
    (s.settleIf base kind mint found).1.globalCount kind' =
        s.globalCount kind' + if kind = kind' ∧ found = some none then 1 else 0 := by
  rcases found with _ | _ | entry
  · simp [settleIf]
  · simp [settleIf, settle, grant_count]
  · simp [settleIf, settle]

/-- The epoch after settling one kind: the same record, or one more entry under its key. -/
theorem settleIf_epochState (base : BaseKey) (kind : LeaseKind) (mint : LeaseKind → String)
    (found : Option (Option TokenEntry)) :
    (s.settleIf base kind mint found).1.epochState base.epoch =
      if found = some none then
        ((s.epochState base.epoch).record ⟨⟨base, kind⟩, kind, mint kind⟩).bump kind 1
      else s.epochState base.epoch := by
  rcases found with _ | _ | entry
  · simp [settleIf]
  · simp [settleIf, settle, grant_epochState]
  · simp [settleIf, settle]

theorem settleIf_epochCount (base : BaseKey) (kind kind' : LeaseKind) (mint : LeaseKind → String)
    (found : Option (Option TokenEntry)) :
    ((s.settleIf base kind mint found).1.epochState base.epoch).count kind' =
      (s.epochState base.epoch).count kind' +
        if kind = kind' ∧ found = some none then 1 else 0 := by
  rw [settleIf_epochState]
  rcases found with _ | _ | entry <;> simp [EpochLeaseState.bump_count]

/-- An acquire that is admitted, step by step. -/
theorem acquire_ok {base : BaseKey} {kinds : List String} {rid : Option String}
    {mint : LeaseKind → String} {grants : Grants}
    (done : (s.acquire base kinds rid mint).2 = .ok grants) :
    ∃ active live, (s.touch base.epoch).admitIf ("active" ∈ kinds) base .active = .ok active ∧
      (s.touch base.epoch).admitIf ("live" ∈ kinds) base .live = .ok live ∧
      (s.acquire base kinds rid mint).1 =
        (((s.touch base.epoch).settleIf base .active mint active).1.settleIf base .live mint
          live).1 ∧
      grants.active = ((s.touch base.epoch).settleIf base .active mint active).2 ∧
      grants.live =
        (((s.touch base.epoch).settleIf base .active mint active).1.settleIf base .live mint
          live).2 := by
  simp only [acquire] at done ⊢
  split at done
  · cases done
  next admissible =>
    split at done
    · cases done
    next registered =>
      split at done
      · cases done
      next active admitsActive =>
        split at done
        · cases done
        next live admitsLive =>
          cases done
          simp only [admissible, registered, admitsActive, admitsLive]
          exact ⟨active, live, rfl, rfl, rfl, rfl, rfl⟩

/-- An acquire that is refused changes no record. -/
theorem acquire_error {base : BaseKey} {kinds : List String} {rid : Option String}
    {mint : LeaseKind → String} {err : LeaseError}
    (refused : (s.acquire base kinds rid mint).2 = .error err) :
    SameRecords s (s.acquire base kinds rid mint).1 := by
  simp only [acquire] at refused ⊢
  split
  · exact SameRecords.refl s
  · split
    · exact touch_same base.epoch
    · split
      · exact touch_same base.epoch
      next admitsActive =>
        split
        · exact touch_same base.epoch
        next admitsLive => simp_all

theorem settleIf_otherKey (base : BaseKey) {kind kind' : LeaseKind} (other : kind' ≠ kind)
    (mint : LeaseKind → String) (found : Option (Option TokenEntry)) :
    ((s.settleIf base kind mint found).1.epochState base.epoch).byKindKey.lookup ⟨base, kind'⟩ =
      (s.epochState base.epoch).byKindKey.lookup ⟨base, kind'⟩ := by
  rw [settleIf_epochState]
  split
  · have different : (⟨base, kind'⟩ : LeaseKey) ≠ ⟨base, kind⟩ := by simp [other]
    rw [EpochLeaseState.bump_byKindKey, EpochLeaseState.record, AList.lookup_insert_ne different]
  · rfl

theorem settleIf_otherToken (base : BaseKey) (kind : LeaseKind) (mint : LeaseKind → String)
    (found : Option (Option TokenEntry)) {tid : String} (other : tid ≠ mint kind) :
    ((s.settleIf base kind mint found).1.epochState base.epoch).tokens.lookup tid =
      (s.epochState base.epoch).tokens.lookup tid := by
  rw [settleIf_epochState]
  split
  · rw [EpochLeaseState.bump_tokens, EpochLeaseState.record, AList.lookup_insert_ne other]
  · rfl

theorem Ok.settleIf (ok : s.Ok) {base : BaseKey} {kind : LeaseKind} {mint : LeaseKind → String}
    {found : Option (Option TokenEntry)}
    (freshId : (s.epochState base.epoch).tokens.lookup (mint kind) = none)
    (absent : found = some none →
      (s.epochState base.epoch).byKindKey.lookup ⟨base, kind⟩ = none) :
    (s.settleIf base kind mint found).1.Ok := by
  rcases found with _ | _ | entry
  · exact ok
  · exact ok.grant base kind (mint kind) freshId (absent rfl)
  · exact ok

/-- `uuid4` mints two ids that the epoch has not recorded. -/
def MintsFresh (s : LeaseService) (base : BaseKey) (mint : LeaseKind → String) : Prop :=
  mint .active ≠ mint .live ∧
    ∀ kind, (s.epochState base.epoch).tokens.lookup (mint kind) = none

instance (s : LeaseService) (base : BaseKey) (mint : LeaseKind → String) :
    Decidable (s.MintsFresh base mint) :=
  decidable_of_iff
    (mint .active ≠ mint .live ∧
      (s.epochState base.epoch).tokens.lookup (mint .active) = none ∧
      (s.epochState base.epoch).tokens.lookup (mint .live) = none)
    ⟨fun h => ⟨h.1, fun kind => by cases kind <;> simp [h.2]⟩, fun h => ⟨h.1, h.2 _, h.2 _⟩⟩

theorem Ok.acquire (ok : s.Ok) {base : BaseKey} {kinds : List String} {rid : Option String}
    {mint : LeaseKind → String} (unique : s.MintsFresh base mint) :
    (s.acquire base kinds rid mint).1.Ok := by
  have touched := ok.touch base.epoch
  have same := @touch_same s base.epoch
  have freshIds : ∀ kind, ((s.touch base.epoch).epochState base.epoch).tokens.lookup (mint kind) =
      none := by
    intro kind
    rw [same.epochs]
    exact unique.2 kind
  cases reply : (s.acquire base kinds rid mint).2 with
  | error err =>
    simp only [LeaseService.acquire] at reply ⊢
    split
    · exact ok
    · split
      · exact touched
      · split
        · exact touched
        · split
          · exact touched
          · simp_all
  | ok grants =>
    obtain ⟨active, live, admitsActive, admitsLive, result, -, -⟩ := acquire_ok reply
    rw [result]
    refine Ok.settleIf (touched.settleIf (freshIds .active) ?_) ?_ ?_
    · exact fun none => ((admitIf_ok admitsActive).2 _ none).1
    · rw [settleIf_otherToken base .active mint active (Ne.symm unique.1)]
      exact freshIds .live
    · intro none
      rw [settleIf_otherKey base (by decide) mint active]
      exact ((admitIf_ok admitsLive).2 _ none).1

/-- Acquire takes no count above its limit. -/
theorem acquire_bounded (base : BaseKey) (kinds : List String) (rid : Option String)
    (mint : LeaseKind → String) (kind : LeaseKind) :
    (s.acquire base kinds rid mint).1.globalCount kind = s.globalCount kind ∨
      (s.acquire base kinds rid mint).1.globalCount kind ≤ s.limit kind := by
  have same := @touch_same s base.epoch
  have limits : ∀ kind, (s.touch base.epoch).limit kind = s.limit kind := by
    intro kind
    simp only [touch]
    split
    · rfl
    · cases kind <;> rfl
  cases reply : (s.acquire base kinds rid mint).2 with
  | error err => exact .inl ((acquire_error reply).counts kind)
  | ok grants =>
    obtain ⟨active, live, admitsActive, admitsLive, result, -, -⟩ := acquire_ok reply
    rw [result, settleIf_count, settleIf_count, same.counts]
    have room : ∀ {wanted found} {kind : LeaseKind},
        (s.touch base.epoch).admitIf wanted base kind = .ok found → found = some none →
        s.globalCount kind < s.limit kind := by
      intro wanted found kind admits none
      rw [← limits, ← same.counts]
      exact ((admitIf_ok admits).2 _ none).2 rfl
    cases kind with
    | active =>
      by_cases new : active = some none
      · have := room admitsActive new
        right
        simp [new]
        omega
      · left
        simp [new]
    | live =>
      by_cases new : live = some none
      · have := room admitsLive new
        right
        simp [new]
        omega
      · left
        simp [new]

def Grants.get (grants : Grants) : LeaseKind → Option Granted
  | .active => grants.active
  | .live => grants.live

/-- An admitted acquire of a key that holds a token returns that token and counts nothing. -/
theorem acquire_again {base : BaseKey} {kinds : List String} {rid : Option String}
    {mint : LeaseKind → String} {grants : Grants} {kind : LeaseKind} {entry : TokenEntry}
    (held : (s.epochState base.epoch).byKindKey.lookup ⟨base, kind⟩ = some entry)
    (wanted : kind.spelling ∈ kinds)
    (done : (s.acquire base kinds rid mint).2 = .ok grants) :
    grants.get kind = some { tokenId := entry.tokenId, fresh := false } ∧
      (s.acquire base kinds rid mint).1.globalCount kind = s.globalCount kind ∧
      ((s.acquire base kinds rid mint).1.epochState base.epoch).count kind =
        (s.epochState base.epoch).count kind := by
  have same := @touch_same s base.epoch
  obtain ⟨active, live, admitsActive, admitsLive, result, first, second⟩ := acquire_ok done
  rw [result, settleIf_count, settleIf_count, settleIf_epochCount, settleIf_epochCount,
    same.counts, same.epochs]
  rw [← same.epochs] at held
  cases kind with
  | active =>
    obtain ⟨asked, holds⟩ := admitIf_ok admitsActive
    obtain ⟨found, rfl⟩ := Option.isSome_iff_exists.mp (asked.trans (decide_eq_true wanted))
    have keeps := (holds found rfl).1
    rw [held] at keeps
    subst keeps
    exact ⟨first, by simp⟩
  | live =>
    obtain ⟨asked, holds⟩ := admitIf_ok admitsLive
    obtain ⟨found, rfl⟩ := Option.isSome_iff_exists.mp (asked.trans (decide_eq_true wanted))
    have keeps := (holds found rfl).1
    rw [held] at keeps
    subst keeps
    exact ⟨second, by simp⟩

/-- A token was recorded, is held under its key, and was counted once. -/
structure Enters (s s' : LeaseService) (base : BaseKey) (kind : LeaseKind) (tokenId : String) :
    Prop where
  held : (s'.epochState base.epoch).byKindKey.lookup ⟨base, kind⟩ =
    some ⟨⟨base, kind⟩, kind, tokenId⟩
  recorded : (s'.epochState base.epoch).tokens.lookup tokenId =
    some ⟨⟨base, kind⟩, kind, tokenId⟩
  counted : s'.globalCount kind = s.globalCount kind + 1
  epochCounted : (s'.epochState base.epoch).count kind = (s.epochState base.epoch).count kind + 1

theorem settleIf_enters (base : BaseKey) (kind : LeaseKind) (mint : LeaseKind → String) :
    Enters s (s.settleIf base kind mint (some none)).1 base kind (mint kind) where
  held := by simp [settleIf_epochState, EpochLeaseState.record]
  recorded := by simp [settleIf_epochState, EpochLeaseState.record]
  counted := by simp [settleIf_count]
  epochCounted := by simp [settleIf_epochCount]

/-- An admitted acquire of a key that holds no token enters the one it mints. -/
theorem acquire_enters {base : BaseKey} {kinds : List String} {rid : Option String}
    {mint : LeaseKind → String} {grants : Grants} {kind : LeaseKind}
    (unique : s.MintsFresh base mint)
    (free : (s.epochState base.epoch).byKindKey.lookup ⟨base, kind⟩ = none)
    (wanted : kind.spelling ∈ kinds)
    (done : (s.acquire base kinds rid mint).2 = .ok grants) :
    grants.get kind = some { tokenId := mint kind, fresh := true } ∧
      Enters s (s.acquire base kinds rid mint).1 base kind (mint kind) := by
  have same := @touch_same s base.epoch
  obtain ⟨active, live, admitsActive, admitsLive, result, first, second⟩ := acquire_ok done
  rw [result]
  rw [← same.epochs] at free
  cases kind with
  | active =>
    obtain ⟨asked, holds⟩ := admitIf_ok admitsActive
    obtain ⟨found, rfl⟩ := Option.isSome_iff_exists.mp (asked.trans (decide_eq_true wanted))
    obtain rfl : none = found := free.symm.trans (holds found rfl).1
    have entered := settleIf_enters (s := s.touch base.epoch) base .active mint
    -- The live kind is settled after it, under a key and an id of its own.
    refine ⟨first, ?_, ?_, ?_, ?_⟩
    · rw [settleIf_otherKey base (by decide) mint live]
      exact entered.held
    · rw [settleIf_otherToken base .live mint live unique.1]
      exact entered.recorded
    · rw [settleIf_count, entered.counted, same.counts]
      simp
    · rw [settleIf_epochCount, entered.epochCounted, same.epochs]
      simp
  | live =>
    obtain ⟨asked, holds⟩ := admitIf_ok admitsLive
    obtain ⟨found, rfl⟩ := Option.isSome_iff_exists.mp (asked.trans (decide_eq_true wanted))
    obtain rfl : none = found := free.symm.trans (holds found rfl).1
    have entered := settleIf_enters
      (s := ((s.touch base.epoch).settleIf base .active mint active).1) base .live mint
    refine ⟨second, entered.held, entered.recorded, ?_, ?_⟩
    · rw [entered.counted, settleIf_count, same.counts]
      simp
    · rw [entered.epochCounted, settleIf_epochCount, same.epochs]
      simp

/-- A kind that is not asked for is granted nothing and keeps its key and its counts. -/
theorem acquire_unasked {base : BaseKey} {kinds : List String} {rid : Option String}
    {mint : LeaseKind → String} {grants : Grants} {kind : LeaseKind}
    (unasked : kind.spelling ∉ kinds)
    (done : (s.acquire base kinds rid mint).2 = .ok grants) :
    grants.get kind = none ∧
      ((s.acquire base kinds rid mint).1.epochState base.epoch).byKindKey.lookup ⟨base, kind⟩ =
        (s.epochState base.epoch).byKindKey.lookup ⟨base, kind⟩ ∧
      (s.acquire base kinds rid mint).1.globalCount kind = s.globalCount kind ∧
      ((s.acquire base kinds rid mint).1.epochState base.epoch).count kind =
        (s.epochState base.epoch).count kind := by
  have same := @touch_same s base.epoch
  obtain ⟨active, live, admitsActive, admitsLive, result, first, second⟩ := acquire_ok done
  rw [result, settleIf_count, settleIf_count, settleIf_epochCount, settleIf_epochCount,
    same.counts, same.epochs]
  cases kind with
  | active =>
    have skipped : active.isSome = false := (admitIf_ok admitsActive).1.trans (decide_eq_false unasked)
    obtain rfl : active = none := Option.not_isSome_iff_eq_none.mp (by simp [skipped])
    refine ⟨first, ?_, by simp, by simp⟩
    rw [settleIf_otherKey base (by decide) mint live, settleIf, same.epochs]
  | live =>
    have skipped : live.isSome = false := (admitIf_ok admitsLive).1.trans (decide_eq_false unasked)
    obtain rfl : live = none := Option.not_isSome_iff_eq_none.mp (by simp [skipped])
    refine ⟨second, ?_, by simp, by simp⟩
    refine (settleIf_otherKey base (by decide) mint active).trans ?_
    rw [same.epochs]

/-! ### Release and registration -/

theorem Ok.release (ok : s.Ok) (k : EpochKey) (tokenId : String) (rid : Option String) :
    (s.release k tokenId rid).1.Ok := by
  have touched := ok.touch k
  simp only [LeaseService.release]
  split
  · exact ok
  · split
    · exact touched
    · split
      · exact touched
      next entry found =>
        have own := ((touched.epochState k).matched.tokens tokenId entry found).1
        exact touched.drop k entry (own ▸ found)

theorem release_error {k : EpochKey} {tokenId : String} {rid : Option String} {err : LeaseError}
    (refused : (s.release k tokenId rid).2 = .error err) :
    SameRecords s (s.release k tokenId rid).1 := by
  simp only [release] at refused ⊢
  split
  · exact SameRecords.refl s
  · split
    · exact touch_same k
    · split
      · exact touch_same k
      · simp_all

/-- A token is in neither table any more, and was uncounted once. -/
structure Frees (s s' : LeaseService) (k : EpochKey) (entry : TokenEntry) : Prop where
  unrecorded : (s'.epochState k).tokens.lookup entry.tokenId = none
  unheld : (s'.epochState k).byKindKey.lookup entry.key = none
  counted : s'.globalCount entry.kind = s.globalCount entry.kind - 1
  epochCounted : (s'.epochState k).count entry.kind = (s.epochState k).count entry.kind - 1

theorem drop_frees (k : EpochKey) (entry : TokenEntry) : Frees s (s.drop k entry) k entry where
  unrecorded := by simp [drop_epochState, EpochLeaseState.forget]
  unheld := by simp [drop_epochState, EpochLeaseState.forget]
  counted := by
    simp only [drop, bumpGlobal_count, setEpoch_count, if_true]
    rfl
  epochCounted := by
    simp only [drop_epochState, EpochLeaseState.bump_count, EpochLeaseState.forget_count, if_true]
    rfl

/-- A release frees a token that is recorded, or there was none. -/
theorem release_ok (ok : s.Ok) {k : EpochKey} {tokenId : String} {rid : Option String}
    {freed : Bool} (done : (s.release k tokenId rid).2 = .ok freed) :
    if freed then ∃ entry, (s.epochState k).tokens.lookup tokenId = some entry ∧
      entry.tokenId = tokenId ∧ Frees s (s.release k tokenId rid).1 k entry
    else (s.epochState k).tokens.lookup tokenId = none ∧
      SameRecords s (s.release k tokenId rid).1 := by
  have same := @touch_same s k
  simp only [release] at done ⊢
  split at done
  · cases done
  next admissible =>
    split at done
    · cases done
    next registered =>
      split at done
      next absent =>
        cases done
        simp only [admissible, registered]
        exact ⟨by rwa [same.epochs] at absent, same⟩
      next entry found =>
        cases done
        simp only [admissible, registered]
        -- the heartbeat changes no record, so the entry is the one found before
        have frees := drop_frees (s := s.touch k) k entry
        rw [same.epochs] at found
        refine ⟨entry, found, ((ok.epochState k).matched.tokens tokenId entry found).1,
          frees.unrecorded, frees.unheld, ?_, ?_⟩
        · exact frees.counted.trans (by rw [same.counts])
        · exact frees.epochCounted.trans (by rw [same.epochs])

/-- An epoch that was released holds and counts nothing. -/
theorem releaseEpoch_empties (ok : s.Ok) (k : EpochKey) :
    (∀ tid, ((s.releaseEpoch k).epochState k).tokens.lookup tid = none) ∧
      (∀ key, ((s.releaseEpoch k).epochState k).byKindKey.lookup key = none) ∧
      ∀ kind, ((s.releaseEpoch k).epochState k).count kind = 0 := by
  have absent : ∀ tid, ((s.releaseEpoch k).epochState k).tokens.lookup tid = none := by
    intro tid
    cases found : s.epochs.lookup k with
    | none => simp [releaseEpoch, epochState, found]
    | some es => simp [releaseEpoch, found, EpochLeaseState.clear]
  have fine := (ok.releaseEpoch k).epochState k
  refine ⟨absent, fun key => ?_, fun kind => ?_⟩
  · -- A key that is held would have its token.
    cases held : ((s.releaseEpoch k).epochState k).byKindKey.lookup key with
    | none => rfl
    | some entry =>
      have token := (fine.matched.keys key entry held).2
      rw [absent] at token
      cases token
  · rw [fine.counts, EpochLeaseState.tokensOf, tally_of_absent absent]

theorem Ok.registerSnapshot (ok : s.Ok) (k : EpochKey) (rid : String)
    (active live : Option (List RawEntry)) : (s.registerSnapshot k rid active live).1.Ok := by
  have touched := ok.touch k
  simp only [LeaseService.registerSnapshot]
  split
  · exact ok
  · split
    · exact touched
    · split
      · exact touched
      next checked => exact touched.load (checkSnapshot_ok checked)

theorem registerSnapshot_error {k : EpochKey} {rid : String}
    {active live : Option (List RawEntry)} {err : LeaseError}
    (refused : (s.registerSnapshot k rid active live).2 = .error err) :
    SameRecords s (s.registerSnapshot k rid active live).1 := by
  simp only [registerSnapshot] at refused ⊢
  split
  · exact SameRecords.refl s
  · split
    · exact touch_same k
    · split
      · exact touch_same k
      · simp_all

theorem validateEntry_wire {k : EpochKey} {kind : LeaseKind} {entry : TokenEntry} {c : Checked}
    (valid : validateEntry k kind entry.wire = .ok c) :
    c = ⟨entry.tokenId, .scalar entry.key.base.sessionId, entry.key.base.activationId, kind⟩ ∧
      entry.key.kind = kind ∧ entry.key.base.epoch = k := by
  simp only [validateEntry, TokenEntry.wire] at valid
  split at valid
  · cases valid
  · split at valid
    · cases valid
    next sameKind =>
      split at valid
      · cases valid
      next sameEpoch =>
        cases valid
        refine ⟨rfl, ?_, ?_⟩
        · revert sameKind
          cases entry.key.kind <;> cases kind <;> decide
        · simp only [Part.text, ne_eq, Part.scalar.injEq, Scalar.string.injEq, not_or,
            Decidable.not_not] at sameEpoch
          exact congrArg₂ EpochKey.mk sameEpoch.1 sameEpoch.2

theorem validateBatch_wire {k : EpochKey} {kind : LeaseKind} {index : Nat}
    {raws : List RawEntry} {batch : List Checked} {entry : TokenEntry}
    (valid : validateBatch k kind index raws = .ok batch) (listed : entry.wire ∈ raws) :
    ∃ c ∈ batch, validateEntry k kind entry.wire = .ok c := by
  induction raws generalizing index batch with
  | nil => simp at listed
  | cons raw rest ih =>
    simp only [validateBatch] at valid
    split at valid
    · cases valid
    next c checked =>
      obtain ⟨tail, later, rfl⟩ := except_map_ok valid
      rcases List.mem_cons.mp listed with rfl | old
      · exact ⟨c, by simp, checked⟩
      · obtain ⟨c', member, fine⟩ := ih later old
        exact ⟨c', by simp [member], fine⟩

theorem validate_wire {k : EpochKey} {kind : LeaseKind} {raws : Option (List RawEntry)}
    {batch : List Checked} {entry : TokenEntry} (valid : validate k kind raws = .ok batch)
    (listed : entry.wire ∈ raws.getD []) :
    ∃ c ∈ batch, validateEntry k kind entry.wire = .ok c := by
  cases raws with
  | none => cases valid
  | some entries => exact validateBatch_wire valid listed

/-- An entry of a batch is recorded by the registration. -/
theorem Admissible.records {k : EpochKey} {active live : Option (List RawEntry)}
    {entries : List TokenEntry} {activeSize liveSize : Nat} {entry : TokenEntry}
    (checked : Admissible s k active live entries activeSize liveSize)
    (own : entry.key.kind = entry.kind)
    (listed : entry.wire ∈ (match entry.kind with | .active => active | .live => live).getD []) :
    entry.key.base.epoch = k ∧ entry ∈ entries := by
  obtain ⟨activeBatch, liveBatch, validActive, validLive, scanned⟩ := checked.batches
  obtain ⟨-, -, -, holds⟩ := distinct_ok scanned
  obtain ⟨c, member, valid⟩ : ∃ c ∈ activeBatch ++ liveBatch,
      validateEntry k entry.kind entry.wire = .ok c := by
    cases kind : entry.kind with
    | active =>
      rw [kind] at listed
      obtain ⟨c, member, valid⟩ := validate_wire validActive listed
      exact ⟨c, by simp [member], valid⟩
    | live =>
      rw [kind] at listed
      obtain ⟨c, member, valid⟩ := validate_wire validLive listed
      exact ⟨c, by simp [member], valid⟩
  obtain ⟨rfl, -, epoch⟩ := validateEntry_wire valid
  refine ⟨epoch, ?_⟩
  have recorded := holds _ member entry.key.base.sessionId rfl
  obtain ⟨⟨⟨epoch', session, activation⟩, kind⟩, kind', tid⟩ := entry
  simp only at own epoch recorded
  subst own
  subst epoch
  exact recorded

/-- After a registration each listed entry is held under its key. -/
theorem registerSnapshot_holds {k : EpochKey} {rid reply : String}
    {active live : Option (List RawEntry)} (unregistered : s.reconciled k = false)
    (done : (s.registerSnapshot k rid active live).2 = .ok reply) {entry : TokenEntry}
    (own : entry.key.kind = entry.kind)
    (listed : entry.wire ∈ (match entry.kind with | .active => active | .live => live).getD []) :
    ((s.registerSnapshot k rid active live).1.epochState k).byKindKey.lookup entry.key =
      some entry := by
  have same := @touch_same s k
  simp only [registerSnapshot] at done ⊢
  split at done
  · cases done
  next current =>
    split at done
    next registered =>
      have id : (s.touch k).reconciliationId = s.reconciliationId := by
        simp only [touch]
        split <;> rfl
      rw [same.reconciled id, unregistered] at registered
      cases registered
    next fresh =>
      split at done
      · cases done
      next entries activeSize liveSize checked =>
        simp only [current, fresh]
        have admissible := checkSnapshot_ok checked
        obtain ⟨-, member⟩ := admissible.records own listed
        have cleared : ((s.touch k).epochState k).clear.Matched :=
          EpochLeaseState.matched_empty rfl rfl
        obtain ⟨-, -, -, holds⟩ := EpochLeaseState.records_matched entries cleared
          admissible.listed (fun _ _ => rfl) (fun _ _ => rfl)
        have state : ((s.touch k).load k entries activeSize liveSize).epochState k =
            { entries.foldl EpochLeaseState.record ((s.touch k).epochState k).clear with
              activeCount := activeSize
              livePtyCount := liveSize
              rebuilding := false
              reconciledRid := some (s.touch k).reconciliationId } := by
          simp [load, epochState]
        simp only [Bool.not_eq_true] at fresh
        simpa [state] using holds entry member

/-! ### Runs -/

/-- The flags touch no count and no table. -/
theorem Ok.setFlags (ok : s.Ok) (k : EpochKey) {es : EpochLeaseState}
    (tokens : es.tokens = (s.epochState k).tokens)
    (keys : es.byKindKey = (s.epochState k).byKindKey)
    (counts : ∀ kind, es.count kind = (s.epochState k).count kind) : (s.setEpoch k es).Ok :=
  ok.replace k ((ok.epochState k).of_tables tokens keys counts) rfl fun kind => by
    rw [setEpoch_count, counts]
    omega

theorem Ok.setRebuilding (ok : s.Ok) (value : Bool) : (s.setRebuilding value).Ok where
  epochs k es found := by
    rw [LeaseService.setRebuilding, lookup_mapValues] at found
    obtain ⟨es', held, rfl⟩ := Option.map_eq_some_iff.mp found
    exact (ok.epochs k es' held).of_tables rfl rfl (EpochLeaseState.flagged_count value)
  counts kind := by
    have epochs : tally (·.count kind) (s.setRebuilding value).epochs =
        tally (·.count kind) s.epochs := by
      simp only [LeaseService.setRebuilding, tally_mapValues, EpochLeaseState.flagged_count]
    rw [epochs, ← ok.counts]
    cases kind <;> rfl

end LeaseService

/-! ### The operations as a machine -/

inductive LeaseOp
  | acquire (base : BaseKey) (kinds : List String) (rid : Option String)
      (mint : LeaseKind → String)
  | release (k : EpochKey) (tokenId : String) (rid : Option String)
  | releaseEpoch (k : EpochKey)
  | registerSnapshot (k : EpochKey) (rid : String)
      (active live : Option (List LeaseService.RawEntry))
  | setReconciliationId (rid : String)
  | markEpochRebuilding (k : EpochKey)
  | setEpochRebuilding (k : EpochKey) (value : Bool)
  | setRebuilding (value : Bool)

inductive LeaseReply
  | grants (g : LeaseService.Grants)
  | released (freed : Bool)
  | registered (rid : String)
  | done

namespace LeaseService

variable {s : LeaseService}

/-- One operation, with what it returns or raises. -/
def perform (s : LeaseService) : LeaseOp → LeaseService × Except LeaseError LeaseReply
  | .acquire base kinds rid mint =>
    ((s.acquire base kinds rid mint).1, (s.acquire base kinds rid mint).2.map .grants)
  | .release k tokenId rid =>
    ((s.release k tokenId rid).1, (s.release k tokenId rid).2.map .released)
  | .releaseEpoch k => (s.releaseEpoch k, .ok .done)
  | .registerSnapshot k rid active live =>
    ((s.registerSnapshot k rid active live).1,
      (s.registerSnapshot k rid active live).2.map .registered)
  | .setReconciliationId rid => (s.setReconciliationId rid, .ok .done)
  | .markEpochRebuilding k => (s.markEpochRebuilding k, .ok .done)
  | .setEpochRebuilding k value => (s.setEpochRebuilding k value, .ok .done)
  | .setRebuilding value => (s.setRebuilding value, .ok .done)

def machine : Machine LeaseService LeaseOp (Except LeaseError LeaseReply) where
  step s op := ((s.perform op).1, [(s.perform op).2])

/-- The ids an operation mints are new to the epoch it enters them in. -/
def Unique (s : LeaseService) : LeaseOp → Prop
  | .acquire base _ _ mint => s.MintsFresh base mint
  | _ => True

instance (s : LeaseService) : ∀ op, Decidable (s.Unique op)
  | .acquire base _ _ mint => inferInstanceAs (Decidable (s.MintsFresh base mint))
  | .release _ _ _ | .releaseEpoch _ | .registerSnapshot _ _ _ _ | .setReconciliationId _
  | .markEpochRebuilding _ | .setEpochRebuilding _ _ | .setRebuilding _ => isTrue trivial

theorem Ok.perform (ok : s.Ok) (op : LeaseOp) (unique : s.Unique op) : (s.perform op).1.Ok := by
  cases op with
  | acquire base kinds rid mint => exact ok.acquire unique
  | release k tokenId rid => exact ok.release k tokenId rid
  | releaseEpoch k => exact ok.releaseEpoch k
  | registerSnapshot k rid active live => exact ok.registerSnapshot k rid active live
  | setReconciliationId rid =>
    refine ⟨ok.epochs, fun kind => ?_⟩
    have counts := ok.counts kind
    cases kind <;> exact counts
  | markEpochRebuilding k =>
    exact (ok.touch k).setFlags k rfl rfl fun kind => by cases kind <;> rfl
  | setEpochRebuilding k value =>
    exact (ok.touch k).setFlags k rfl rfl (EpochLeaseState.flagged_count value)
  | setRebuilding value => exact ok.setRebuilding value

theorem except_map_error {ε α β : Type*} {f : α → β} {x : Except ε α} {err : ε}
    (failed : x.map f = .error err) : x = .error err := by
  cases x with
  | error err' => exact congrArg Except.error (Except.error.inj failed)
  | ok a => cases failed

theorem perform_error {op : LeaseOp} {err : LeaseError}
    (raised : (s.perform op).2 = .error err) : SameRecords s (s.perform op).1 := by
  cases op with
  | acquire base kinds rid mint => exact acquire_error (except_map_error raised)
  | release k tokenId rid => exact release_error (except_map_error raised)
  | registerSnapshot k rid active live => exact registerSnapshot_error (except_map_error raised)
  | releaseEpoch k => cases raised
  | setReconciliationId rid => cases raised
  | markEpochRebuilding k => cases raised
  | setEpochRebuilding k value => cases raised
  | setRebuilding value => cases raised

theorem ok_fresh (activeLimit livePtyLimit : ℤ) (rid : String) :
    Ok { activeLimit, livePtyLimit, reconciliationId := rid } where
  epochs k es found := by simp at found
  counts kind := by cases kind <;> rfl

theorem ok_after {ops : List LeaseOp} (ok : s.Ok) (unique : machine.Along Unique s ops) :
    (machine.after s ops).Ok :=
  machine.invariant_along Ok (fun _ op ok unique => ok.perform op unique) ok unique

/-- The indexes agree: the global counts with the epoch counts and with the recorded tokens, and in
each epoch the tokens with the kind-keys. -/
structure Accounted (s : LeaseService) : Prop where
  sums : ∀ kind, s.globalCount kind = tally (·.count kind) s.epochs
  recorded : ∀ kind, s.globalCount kind = tally (·.tokensOf kind) s.epochs
  nonneg : ∀ kind, 0 ≤ s.globalCount kind ∧ ∀ k, 0 ≤ (s.epochState k).count kind
  bijective : ∀ k tid key,
    (∃ entry, (s.epochState k).tokens.lookup tid = some entry ∧ entry.key = key) ↔
      ∃ entry, (s.epochState k).byKindKey.lookup key = some entry ∧ entry.tokenId = tid

/-- What the next operation does. -/
structure Disciplined (s : LeaseService) : Prop where
  /-- An acquire takes no count above its limit. -/
  bounded : ∀ base kinds rid mint kind,
    (s.acquire base kinds rid mint).1.globalCount kind = s.globalCount kind ∨
      (s.acquire base kinds rid mint).1.globalCount kind ≤ s.limit kind
  /-- An operation that raises changes no count and no record. -/
  unchanged : ∀ op err, (s.perform op).2 = .error err → SameRecords s (s.perform op).1
  /-- A key that holds a token gets that token again, and nothing is counted. -/
  again : ∀ base kinds rid mint grants kind entry,
    (s.epochState base.epoch).byKindKey.lookup ⟨base, kind⟩ = some entry →
    kind.spelling ∈ kinds → (s.acquire base kinds rid mint).2 = .ok grants →
    grants.get kind = some { tokenId := entry.tokenId, fresh := false } ∧
      (s.acquire base kinds rid mint).1.globalCount kind = s.globalCount kind ∧
      ((s.acquire base kinds rid mint).1.epochState base.epoch).count kind =
        (s.epochState base.epoch).count kind
  /-- A key that holds none gets the token that is minted for it: recorded, held under the key and
  counted once. -/
  anew : ∀ base kinds rid mint grants kind, s.MintsFresh base mint →
    (s.epochState base.epoch).byKindKey.lookup ⟨base, kind⟩ = none →
    kind.spelling ∈ kinds → (s.acquire base kinds rid mint).2 = .ok grants →
    grants.get kind = some { tokenId := mint kind, fresh := true } ∧
      Enters s (s.acquire base kinds rid mint).1 base kind (mint kind)
  /-- A kind that is not asked for is granted nothing, and keeps its key and its counts. -/
  unasked : ∀ base kinds rid mint grants kind, kind.spelling ∉ kinds →
    (s.acquire base kinds rid mint).2 = .ok grants →
    grants.get kind = none ∧
      ((s.acquire base kinds rid mint).1.epochState base.epoch).byKindKey.lookup ⟨base, kind⟩ =
        (s.epochState base.epoch).byKindKey.lookup ⟨base, kind⟩ ∧
      (s.acquire base kinds rid mint).1.globalCount kind = s.globalCount kind ∧
      ((s.acquire base kinds rid mint).1.epochState base.epoch).count kind =
        (s.epochState base.epoch).count kind
  /-- A release takes the token out of both tables and uncounts it, or there was none. -/
  released : ∀ k tokenId rid freed, (s.release k tokenId rid).2 = .ok freed →
    if freed then ∃ entry, (s.epochState k).tokens.lookup tokenId = some entry ∧
      entry.tokenId = tokenId ∧ Frees s (s.release k tokenId rid).1 k entry
    else (s.epochState k).tokens.lookup tokenId = none ∧
      SameRecords s (s.release k tokenId rid).1
  /-- An epoch that is released holds and counts nothing. -/
  emptied : ∀ k, (∀ tid, ((s.releaseEpoch k).epochState k).tokens.lookup tid = none) ∧
    (∀ key, ((s.releaseEpoch k).epochState k).byKindKey.lookup key = none) ∧
    ∀ kind, ((s.releaseEpoch k).epochState k).count kind = 0
  /-- A registration records each entry of its snapshot under its key. -/
  registered : ∀ k rid active live reply (entry : TokenEntry), s.reconciled k = false →
    (s.registerSnapshot k rid active live).2 = .ok reply → entry.key.kind = entry.kind →
    entry.wire ∈ (match entry.kind with | .active => active | .live => live).getD [] →
    ((s.registerSnapshot k rid active live).1.epochState k).byKindKey.lookup entry.key = some entry

theorem Ok.accounted (ok : s.Ok) : s.Accounted where
  sums := ok.counts
  recorded kind := by
    rw [ok.counts]
    exact tally_congr fun k es found => (ok.epochs k es found).counts kind
  nonneg kind := by
    constructor
    · rw [ok.counts kind, tally_congr fun k es found => (ok.epochs k es found).counts kind]
      exact tally_nonneg (fun es => es.tokensOf_nonneg kind) s.epochs
    · intro k
      rw [(ok.epochState k).counts]
      exact EpochLeaseState.tokensOf_nonneg kind
  bijective k tid key := by
    have matched := (ok.epochState k).matched
    constructor
    · rintro ⟨entry, held, rfl⟩
      obtain ⟨id, -, listed⟩ := matched.tokens tid entry held
      exact ⟨entry, listed, id⟩
    · rintro ⟨entry, listed, rfl⟩
      obtain ⟨own, held⟩ := matched.keys key entry listed
      exact ⟨entry, held, own⟩

/-- Over every run of a fresh service whose minted ids are new, the indexes agree and the next
operation keeps to the limits, to its promises and to what it raised. -/
theorem lease_accounting (activeLimit livePtyLimit : ℤ) (rid : String) (ops : List LeaseOp)
    (unique : machine.Along Unique { activeLimit, livePtyLimit, reconciliationId := rid } ops) :
    (machine.after { activeLimit, livePtyLimit, reconciliationId := rid } ops).Accounted ∧
      (machine.after { activeLimit, livePtyLimit, reconciliationId := rid } ops).Disciplined := by
  have ok := ok_after (ok_fresh activeLimit livePtyLimit rid) unique
  exact ⟨ok.accounted,
    { bounded := acquire_bounded
      unchanged := fun _ _ raised => perform_error raised
      again := fun _ _ _ _ _ _ _ held wanted done => acquire_again held wanted done
      anew := fun _ _ _ _ _ _ unique free wanted done => acquire_enters unique free wanted done
      unasked := fun _ _ _ _ _ _ unasked done => acquire_unasked unasked done
      released := fun _ _ _ _ done => release_ok ok done
      emptied := fun k => releaseEpoch_empties ok k
      registered := fun _ _ _ _ _ _ unregistered done own listed =>
        registerSnapshot_holds unregistered done own listed }⟩

/-- A generation registers an empty snapshot and takes an active lease. -/
def registerThenAcquire : List LeaseOp :=
  [.registerSnapshot ⟨"g", "1"⟩ "r" (some []) (some []),
    .acquire ⟨⟨"g", "1"⟩, .string "s", "1"⟩ ["active"] (some "r")
      fun kind => match kind with | .active => "a" | .live => "b"]

theorem lease_accounting_one :
    (machine.after { reconciliationId := "r" } registerThenAcquire).Accounted ∧
      (machine.after { reconciliationId := "r" } registerThenAcquire).Disciplined :=
  lease_accounting 5 5 "r" registerThenAcquire (by decide)

end LeaseService

end Nelix.Router
