import Nelix.Router.Leases

/-!
# Lease records

The invariant of the lease service: in each epoch the tokens and the kind-keys hold the same
entries and the counts count them, and the global counts add the epochs up. Entering a token,
taking one out, clearing an epoch and loading a snapshot keep it.
-/
namespace Nelix.Router

open Core

/-! ### One epoch -/

/-- One for an entry of the kind. -/
def isKind (kind : LeaseKind) (entry : TokenEntry) : ℤ := if entry.kind = kind then 1 else 0

namespace EpochLeaseState

/-- The number of recorded tokens of a kind. -/
def tokensOf (es : EpochLeaseState) (kind : LeaseKind) : ℤ := tally (isKind kind) es.tokens

/-- The two tables hold the same entries, one under the token id, one under the kind-key. -/
structure Matched (es : EpochLeaseState) : Prop where
  tokens : ∀ tid entry, es.tokens.lookup tid = some entry →
    entry.tokenId = tid ∧ entry.key.kind = entry.kind ∧
      es.byKindKey.lookup entry.key = some entry
  keys : ∀ key entry, es.byKindKey.lookup key = some entry →
    entry.key = key ∧ es.tokens.lookup entry.tokenId = some entry

structure Ok (es : EpochLeaseState) : Prop where
  matched : es.Matched
  counts : ∀ kind, es.count kind = es.tokensOf kind

variable {es : EpochLeaseState}

theorem matched_of_tables {es' : EpochLeaseState} (matched : es.Matched)
    (tokens : es'.tokens = es.tokens) (keys : es'.byKindKey = es.byKindKey) : es'.Matched where
  tokens tid entry found := by
    rw [keys]
    exact matched.tokens tid entry (tokens ▸ found)
  keys key entry found := by
    rw [tokens]
    exact matched.keys key entry (keys ▸ found)

theorem matched_empty {es : EpochLeaseState} (tokens : es.tokens = ∅) (keys : es.byKindKey = ∅) :
    es.Matched where
  tokens tid entry found := by simp [tokens] at found
  keys key entry found := by simp [keys] at found

theorem ok_empty : Ok {} where
  matched := matched_empty rfl rfl
  counts kind := by cases kind <;> rfl

@[simp] theorem bump_tokens (kind : LeaseKind) (delta : ℤ) :
    (es.bump kind delta).tokens = es.tokens := by cases kind <;> rfl

@[simp] theorem bump_byKindKey (kind : LeaseKind) (delta : ℤ) :
    (es.bump kind delta).byKindKey = es.byKindKey := by cases kind <;> rfl

@[simp] theorem bump_reconciledRid (kind : LeaseKind) (delta : ℤ) :
    (es.bump kind delta).reconciledRid = es.reconciledRid := by cases kind <;> rfl

theorem bump_count (kind kind' : LeaseKind) (delta : ℤ) :
    (es.bump kind delta).count kind' = es.count kind' + if kind = kind' then delta else 0 := by
  cases kind <;> cases kind' <;> simp [bump, count]

@[simp] theorem record_count (entry : TokenEntry) (kind : LeaseKind) :
    (es.record entry).count kind = es.count kind := by cases kind <;> rfl

@[simp] theorem forget_count (entry : TokenEntry) (kind : LeaseKind) :
    (es.forget entry).count kind = es.count kind := by cases kind <;> rfl

theorem lookup_ne_of_fresh {es : EpochLeaseState} {entry other : TokenEntry}
    (freshId : es.tokens.lookup entry.tokenId = none)
    (found : es.tokens.lookup other.tokenId = some other) : other.tokenId ≠ entry.tokenId := by
  intro same
  rw [same, freshId] at found
  cases found

/-- Entering an entry whose id and key are new. -/
theorem record_matched (matched : es.Matched) {entry : TokenEntry}
    (kinds : entry.key.kind = entry.kind) (freshId : es.tokens.lookup entry.tokenId = none)
    (freshKey : es.byKindKey.lookup entry.key = none) : (es.record entry).Matched where
  tokens tid other found := by
    by_cases same : tid = entry.tokenId
    · subst same
      simp only [record, AList.lookup_insert, Option.some.injEq] at found
      subst found
      exact ⟨rfl, kinds, by simp [record]⟩
    · rw [record, AList.lookup_insert_ne same] at found
      obtain ⟨id, kind, key⟩ := matched.tokens tid other found
      have otherKey : other.key ≠ entry.key := by
        intro clash
        rw [clash, freshKey] at key
        cases key
      exact ⟨id, kind, by simpa [record, AList.lookup_insert_ne otherKey] using key⟩
  keys key other found := by
    by_cases same : key = entry.key
    · subst same
      simp only [record, AList.lookup_insert, Option.some.injEq] at found
      subst found
      exact ⟨rfl, by simp [record]⟩
    · rw [record, AList.lookup_insert_ne same] at found
      obtain ⟨id, token⟩ := matched.keys key other found
      have otherId := lookup_ne_of_fresh freshId token
      exact ⟨id, by simpa [record, AList.lookup_insert_ne otherId] using token⟩

theorem record_tokensOf {entry : TokenEntry} (freshId : es.tokens.lookup entry.tokenId = none)
    (kind : LeaseKind) :
    (es.record entry).tokensOf kind = es.tokensOf kind + isKind kind entry :=
  tally_insert_new (isKind kind) entry freshId

theorem record_ok (ok : es.Ok) {entry : TokenEntry} (kinds : entry.key.kind = entry.kind)
    (freshId : es.tokens.lookup entry.tokenId = none)
    (freshKey : es.byKindKey.lookup entry.key = none) :
    ((es.record entry).bump entry.kind 1).Ok where
  matched := matched_of_tables (record_matched ok.matched kinds freshId freshKey)
    (bump_tokens _ _) (bump_byKindKey _ _)
  counts kind := by
    have tokens := record_tokensOf freshId kind
    simp only [bump_count, record_count, ok.counts, tokensOf, bump_tokens] at tokens ⊢
    rw [tokens, isKind]

/-- Taking out an entry that is in the tables. -/
theorem forget_ok (ok : es.Ok) {entry : TokenEntry}
    (present : es.tokens.lookup entry.tokenId = some entry) :
    ((es.forget entry).bump entry.kind (-1)).Ok where
  matched := by
    suffices tables : (es.forget entry).Matched from
      matched_of_tables tables (bump_tokens _ _) (bump_byKindKey _ _)
    constructor
    · intro tid other found
      have otherId : tid ≠ entry.tokenId := by
        rintro rfl
        simp [forget] at found
      rw [forget, AList.lookup_erase_ne otherId] at found
      obtain ⟨id, kind, key⟩ := ok.matched.tokens tid other found
      have otherKey : other.key ≠ entry.key := by
        intro clash
        obtain ⟨-, -, own⟩ := ok.matched.tokens _ entry present
        rw [clash, own] at key
        exact otherId (id.symm.trans (congrArg TokenEntry.tokenId (Option.some.inj key).symm))
      exact ⟨id, kind, by simpa [forget, AList.lookup_erase_ne otherKey] using key⟩
    · intro key other found
      have otherKey : key ≠ entry.key := by
        rintro rfl
        simp [forget] at found
      rw [forget, AList.lookup_erase_ne otherKey] at found
      obtain ⟨id, token⟩ := ok.matched.keys key other found
      have otherId : other.tokenId ≠ entry.tokenId := by
        intro clash
        rw [clash, present] at token
        exact otherKey (id.symm.trans (congrArg TokenEntry.key (Option.some.inj token).symm))
      exact ⟨id, by simpa [forget, AList.lookup_erase_ne otherId] using token⟩
  counts kind := by
    have tokens : (es.forget entry).tokensOf kind = es.tokensOf kind - isKind kind entry := by
      simp only [tokensOf, forget, tally_erase, present, share_some]
    simp only [bump_count, forget_count, ok.counts, tokensOf, bump_tokens] at tokens ⊢
    rw [tokens, isKind]
    split <;> omega

theorem tokensOf_nonneg (kind : LeaseKind) : 0 ≤ es.tokensOf kind := by
  apply tally_nonneg
  intro entry
  simp only [isKind]
  split <;> omega

/-- The tables decide; the flags do not matter. -/
theorem Ok.of_tables (ok : es.Ok) {es' : EpochLeaseState} (tokens : es'.tokens = es.tokens)
    (keys : es'.byKindKey = es.byKindKey) (counts : ∀ kind, es'.count kind = es.count kind) :
    es'.Ok where
  matched := matched_of_tables ok.matched tokens keys
  counts kind := by rw [counts, ok.counts, tokensOf, tokensOf, tokens]

@[simp] theorem flagged_count (value : Bool) (kind : LeaseKind) :
    (es.flagged value).count kind = es.count kind := by cases kind <;> rfl

/-! ### Entering a whole snapshot -/

/-- The entries of a snapshot: ids and keys are distinct, kinds agree with the keys. -/
structure Listed (entries : List TokenEntry) : Prop where
  ids : (entries.map TokenEntry.tokenId).Nodup
  keys : (entries.map TokenEntry.key).Nodup
  kinds : ∀ entry ∈ entries, entry.key.kind = entry.kind

theorem Listed.tail {entry : TokenEntry} {rest : List TokenEntry}
    (listed : Listed (entry :: rest)) : Listed rest where
  ids := (List.nodup_cons.mp listed.ids).2
  keys := (List.nodup_cons.mp listed.keys).2
  kinds other member := listed.kinds other (by simp [member])

/-- The number of entries of a kind in a list. -/
def kindCount (entries : List TokenEntry) (kind : LeaseKind) : ℤ :=
  (entries.map (isKind kind)).sum

theorem records_matched (entries : List TokenEntry) (matched : es.Matched)
    (listed : Listed entries)
    (freshIds : ∀ entry ∈ entries, es.tokens.lookup entry.tokenId = none)
    (freshKeys : ∀ entry ∈ entries, es.byKindKey.lookup entry.key = none) :
    (entries.foldl record es).Matched ∧
      (∀ kind, (entries.foldl record es).tokensOf kind =
        es.tokensOf kind + kindCount entries kind) ∧
      (∀ key entry, es.byKindKey.lookup key = some entry →
        (entries.foldl record es).byKindKey.lookup key = some entry) ∧
      ∀ entry ∈ entries, (entries.foldl record es).byKindKey.lookup entry.key = some entry := by
  induction entries generalizing es with
  | nil => simpa [kindCount] using matched
  | cons entry rest ih =>
    have freshId := freshIds entry (by simp)
    have freshKey := freshKeys entry (by simp)
    have otherIds : ∀ other ∈ rest, other.tokenId ≠ entry.tokenId := by
      intro other member same
      exact (List.nodup_cons.mp listed.ids).1 (List.mem_map.mpr ⟨other, member, same⟩)
    have otherKeys : ∀ other ∈ rest, other.key ≠ entry.key := by
      intro other member same
      exact (List.nodup_cons.mp listed.keys).1 (List.mem_map.mpr ⟨other, member, same⟩)
    have entered : (es.record entry).byKindKey.lookup entry.key = some entry := by simp [record]
    obtain ⟨all, counts, stays, holds⟩ := ih
      (record_matched matched (listed.kinds entry (by simp)) freshId freshKey) listed.tail
      (fun other member => by
        rw [record, AList.lookup_insert_ne (otherIds other member)]
        exact freshIds other (by simp [member]))
      (fun other member => by
        rw [record, AList.lookup_insert_ne (otherKeys other member)]
        exact freshKeys other (by simp [member]))
    refine ⟨all, ?_, ?_, ?_⟩
    · intro kind
      rw [List.foldl_cons, counts kind, record_tokensOf freshId, kindCount, kindCount,
        List.map_cons, List.sum_cons, add_assoc]
    · intro key old found
      apply stays
      have other : key ≠ entry.key := by
        rintro rfl
        rw [freshKey] at found
        cases found
      rwa [record, AList.lookup_insert_ne other]
    · intro other member
      rcases List.mem_cons.mp member with rfl | later
      · exact stays _ _ entered
      · exact holds other later

end EpochLeaseState

/-- An entry as a snapshot lists it. -/
def TokenEntry.wire (entry : TokenEntry) : LeaseService.RawEntry :=
  LeaseService.RawEntry.dict (.text entry.tokenId)
    (some [.text entry.key.base.epoch.genId, .text entry.key.base.epoch.genEpoch,
      .scalar entry.key.base.sessionId, .text entry.key.base.activationId,
      .text entry.key.kind.spelling])

/-! ### The service -/

namespace LeaseService

structure Ok (s : LeaseService) : Prop where
  epochs : ∀ k es, s.epochs.lookup k = some es → es.Ok
  counts : ∀ kind, s.globalCount kind = tally (·.count kind) s.epochs

/-- The same counts and the same record for every epoch. -/
structure SameRecords (s s' : LeaseService) : Prop where
  counts : ∀ kind, s'.globalCount kind = s.globalCount kind
  epochs : ∀ k, s'.epochState k = s.epochState k

variable {s : LeaseService}

theorem SameRecords.refl (s : LeaseService) : SameRecords s s := ⟨fun _ => rfl, fun _ => rfl⟩

@[simp] theorem bumpGlobal_epochs (kind : LeaseKind) (delta : ℤ) :
    (s.bumpGlobal kind delta).epochs = s.epochs := by cases kind <;> rfl

@[simp] theorem bumpGlobal_epochState (kind : LeaseKind) (delta : ℤ) (k : EpochKey) :
    (s.bumpGlobal kind delta).epochState k = s.epochState k := by
  simp [epochState]

theorem bumpGlobal_count (kind kind' : LeaseKind) (delta : ℤ) :
    (s.bumpGlobal kind delta).globalCount kind' =
      s.globalCount kind' + if kind = kind' then delta else 0 := by
  cases kind <;> cases kind' <;> simp [bumpGlobal, globalCount]

@[simp] theorem setEpoch_count (k : EpochKey) (es : EpochLeaseState) (kind : LeaseKind) :
    (s.setEpoch k es).globalCount kind = s.globalCount kind := by cases kind <;> rfl

@[simp] theorem setEpoch_epochState (k : EpochKey) (es : EpochLeaseState) :
    (s.setEpoch k es).epochState k = es := by simp [setEpoch, epochState]

theorem setEpoch_epochState_ne {k k' : EpochKey} (other : k' ≠ k) (es : EpochLeaseState) :
    (s.setEpoch k es).epochState k' = s.epochState k' := by
  simp only [setEpoch, epochState]
  rw [AList.lookup_insert_ne other]

theorem share_epoch (k : EpochKey) (kind : LeaseKind) :
    share (·.count kind) (s.epochs.lookup k) = (s.epochState k).count kind := by
  cases found : s.epochs.lookup k with
  | none => cases kind <;> simp [epochState, found, EpochLeaseState.count]
  | some es => simp [epochState, found]

theorem Ok.epochState (ok : s.Ok) (k : EpochKey) : (s.epochState k).Ok := by
  cases found : s.epochs.lookup k with
  | none => simpa [LeaseService.epochState, found] using EpochLeaseState.ok_empty
  | some es => simpa [LeaseService.epochState, found] using ok.epochs k es found

/-- A new record for one epoch, with the global counts moved by the difference. -/
theorem Ok.replace (ok : s.Ok) {s' : LeaseService} (k : EpochKey) {es : EpochLeaseState}
    (fine : es.Ok) (epochs : s'.epochs = s.epochs.insert k es)
    (counts : ∀ kind, s'.globalCount kind =
      s.globalCount kind + (es.count kind - (s.epochState k).count kind)) : s'.Ok where
  epochs k' es' found := by
    rw [epochs] at found
    by_cases same : k' = k
    · subst same
      rw [AList.lookup_insert] at found
      cases found
      exact fine
    · rw [AList.lookup_insert_ne same] at found
      exact ok.epochs k' es' found
  counts kind := by
    rw [epochs, tally_insert, share_epoch, counts, ok.counts]
    omega

theorem touch_same (k : EpochKey) : SameRecords s (s.touch k) := by
  cases found : s.epochs.lookup k with
  | some es => simpa [touch, found] using SameRecords.refl s
  | none =>
    simp only [touch, found]
    refine ⟨fun kind => setEpoch_count k {} kind, fun k' => ?_⟩
    by_cases same : k' = k
    · subst same
      simp [epochState, found, setEpoch]
    · exact setEpoch_epochState_ne same {}

theorem Ok.touch (ok : s.Ok) (k : EpochKey) : (s.touch k).Ok := by
  cases found : s.epochs.lookup k with
  | some es => simpa [LeaseService.touch, found] using ok
  | none =>
    simp only [LeaseService.touch, found]
    refine ok.replace k EpochLeaseState.ok_empty rfl fun kind => ?_
    rw [setEpoch_count]
    cases kind <;> simp [LeaseService.epochState, found, EpochLeaseState.count]

/-! ### One token in, one token out -/

theorem grant_epochState (base : BaseKey) (kind : LeaseKind) (tokenId : String) :
    (s.grant base kind tokenId).epochState base.epoch =
      ((s.epochState base.epoch).record ⟨⟨base, kind⟩, kind, tokenId⟩).bump kind 1 := by
  simp [grant]

theorem grant_count (base : BaseKey) (kind kind' : LeaseKind) (tokenId : String) :
    (s.grant base kind tokenId).globalCount kind' =
      s.globalCount kind' + if kind = kind' then 1 else 0 := by
  simp only [grant, bumpGlobal_count, setEpoch_count]

theorem Ok.grant (ok : s.Ok) (base : BaseKey) (kind : LeaseKind) (tokenId : String)
    (freshId : (s.epochState base.epoch).tokens.lookup tokenId = none)
    (freshKey : (s.epochState base.epoch).byKindKey.lookup ⟨base, kind⟩ = none) :
    (s.grant base kind tokenId).Ok := by
  have fine : (((s.epochState base.epoch).record ⟨⟨base, kind⟩, kind, tokenId⟩).bump kind 1).Ok :=
    EpochLeaseState.record_ok (ok.epochState base.epoch) rfl freshId freshKey
  refine ok.replace base.epoch fine (by rw [LeaseService.grant, bumpGlobal_epochs]; rfl) ?_
  intro kind'
  rw [grant_count, EpochLeaseState.bump_count, EpochLeaseState.record_count, add_sub_cancel_left]

theorem drop_epochState (k : EpochKey) (entry : TokenEntry) :
    (s.drop k entry).epochState k =
      ((s.epochState k).forget entry).bump entry.kind (-1) := by
  simp [drop]

theorem Ok.drop (ok : s.Ok) (k : EpochKey) (entry : TokenEntry)
    (present : (s.epochState k).tokens.lookup entry.tokenId = some entry) :
    (s.drop k entry).Ok := by
  refine ok.replace k (EpochLeaseState.forget_ok (ok.epochState k) present)
    (by rw [LeaseService.drop, bumpGlobal_epochs]; rfl) fun kind => ?_
  simp only [LeaseService.drop, bumpGlobal_count, setEpoch_count, EpochLeaseState.bump_count,
    EpochLeaseState.forget_count]
  omega

/-- Dropping the entries of a list that holds what is recorded empties the records. -/
theorem drops_ok (k : EpochKey) (entries : List TokenEntry) (ok : s.Ok)
    (ids : (entries.map TokenEntry.tokenId).Nodup)
    (present : ∀ entry ∈ entries, (s.epochState k).tokens.lookup entry.tokenId = some entry)
    (all : ∀ tid entry, (s.epochState k).tokens.lookup tid = some entry → entry ∈ entries) :
    (entries.foldl (fun s entry => s.drop k entry) s).Ok ∧
      ∀ tid, ((entries.foldl (fun s entry => s.drop k entry) s).epochState k).tokens.lookup tid =
        none := by
  induction entries generalizing s with
  | nil =>
    refine ⟨ok, fun tid => ?_⟩
    cases found : (s.epochState k).tokens.lookup tid with
    | none => exact found
    | some entry => exact absurd (all tid entry found) (by simp)
  | cons entry rest ih =>
    have here := present entry (by simp)
    obtain ⟨absent, ids⟩ := List.nodup_cons.mp ids
    have tokens : ((s.drop k entry).epochState k).tokens =
        (s.epochState k).tokens.erase entry.tokenId := by
      rw [drop_epochState, EpochLeaseState.bump_tokens]
      rfl
    refine ih (ok.drop k entry here) ids ?_ ?_
    · intro other member
      have different : other.tokenId ≠ entry.tokenId := fun same =>
        absent (List.mem_map.mpr ⟨other, member, same⟩)
      rw [tokens, AList.lookup_erase_ne different]
      exact present other (by simp [member])
    · intro tid other found
      rw [tokens] at found
      by_cases same : tid = entry.tokenId
      · subst same
        rw [AList.lookup_erase] at found
        cases found
      · rw [AList.lookup_erase_ne same] at found
        rcases List.mem_cons.mp (all tid other found) with rfl | later
        · exact absurd ((ok.epochState k).matched.tokens tid other found).1.symm same
        · exact later

theorem tally_of_absent {f : TokenEntry → ℤ} {m : AList fun _ : String => TokenEntry}
    (absent : ∀ tid, m.lookup tid = none) : tally f m = 0 := by
  have nothing : tally f m = tally (fun _ => (0 : ℤ)) m :=
    tally_congr fun tid entry found => by simp [absent tid] at found
  rw [nothing]
  simp [tally]

theorem values_ids {es : EpochLeaseState} (matched : es.Matched) :
    (es.tokens.entries.map Sigma.snd).map TokenEntry.tokenId = es.tokens.keys := by
  rw [List.map_map]
  refine List.map_congr_left fun p member => ?_
  exact (matched.tokens p.1 p.2 (AList.mem_lookup_iff.mpr member)).1

theorem mem_values {m : AList fun _ : String => TokenEntry} (entry : TokenEntry) :
    entry ∈ m.entries.map Sigma.snd ↔ ∃ tid, m.lookup tid = some entry := by
  constructor
  · intro member
    obtain ⟨p, listed, rfl⟩ := List.mem_map.mp member
    exact ⟨p.1, AList.mem_lookup_iff.mpr listed⟩
  · rintro ⟨tid, found⟩
    exact List.mem_map.mpr ⟨⟨tid, entry⟩, AList.mem_lookup_iff.mp found, rfl⟩

theorem Ok.releaseEpoch (ok : s.Ok) (k : EpochKey) : (s.releaseEpoch k).Ok := by
  cases found : s.epochs.lookup k with
  | none => simpa [LeaseService.releaseEpoch, found] using ok
  | some es =>
    have state : s.epochState k = es := by simp [LeaseService.epochState, found]
    have matched := (ok.epochs k es found).matched
    obtain ⟨fine, empty⟩ := drops_ok k (es.tokens.entries.map Sigma.snd) ok
      (by rw [values_ids matched]; exact es.tokens.keys_nodup)
      (by
        intro entry member
        obtain ⟨tid, held⟩ := (mem_values entry).mp member
        rw [state, (matched.tokens tid entry held).1]
        exact held)
      (by
        intro tid entry held
        exact (mem_values entry).mpr ⟨tid, state ▸ held⟩)
    simp only [LeaseService.releaseEpoch, found]
    generalize (es.tokens.entries.map Sigma.snd).foldl (fun s entry => s.drop k entry) s = s₁
      at fine empty
    have cleared : (s₁.epochState k).clear.Ok := by
      refine ⟨EpochLeaseState.matched_empty rfl rfl, fun kind => ?_⟩
      have counts := (fine.epochState k).counts kind
      rw [EpochLeaseState.tokensOf, tally_of_absent empty] at counts
      cases kind <;> exact counts
    refine fine.replace k cleared rfl fun kind => ?_
    rw [setEpoch_count]
    cases kind <;> simp [EpochLeaseState.clear, EpochLeaseState.count]

/-! ### Snapshots -/

theorem except_map_ok {ε α β : Type*} {f : α → β} {x : Except ε α} {b : β}
    (done : x.map f = .ok b) : ∃ a, x = .ok a ∧ f a = b := by
  cases x with
  | error err => cases done
  | ok a => exact ⟨a, rfl, Except.ok.inj done⟩

/-- What the duplicate scan lets through. -/
theorem distinct_ok {k : EpochKey} {batch : List Checked} {entries : List TokenEntry}
    {seenTids : List String} {seenKeys : List LeaseKey}
    (done : distinct k seenTids seenKeys batch = .ok entries) :
    EpochLeaseState.Listed entries ∧
      (∀ entry ∈ entries, entry.tokenId ∉ seenTids ∧ entry.key ∉ seenKeys) ∧
      entries.map TokenEntry.kind = batch.map Checked.kind ∧
      ∀ c ∈ batch, ∀ session, c.session = .scalar session →
        (⟨⟨⟨k, session, c.activationId⟩, c.kind⟩, c.kind, c.tokenId⟩ : TokenEntry) ∈ entries := by
  induction batch generalizing seenTids seenKeys entries with
  | nil =>
    simp only [distinct, Except.ok.injEq] at done
    subst done
    exact ⟨⟨by simp, by simp, by simp⟩, by simp, rfl, by simp⟩
  | cons c rest ih =>
    simp only [distinct] at done
    split at done
    · cases done
    next newTid =>
      split at done
      · cases done
      next session hashed =>
        split at done
        · cases done
        next newKey =>
          obtain ⟨tail, scanned, rfl⟩ := except_map_ok done
          obtain ⟨listed, unseen, kinds, holds⟩ := ih scanned
          have ids := fun entry member => (unseen entry member).1
          have keys := fun entry member => (unseen entry member).2
          simp only [List.mem_cons, not_or] at ids keys
          refine ⟨⟨?_, ?_, ?_⟩, ?_, ?_, ?_⟩
          · refine List.nodup_cons.mpr ⟨fun clash => ?_, listed.ids⟩
            obtain ⟨entry, member, same⟩ := List.mem_map.mp clash
            exact (ids entry member).1 same
          · refine List.nodup_cons.mpr ⟨fun clash => ?_, listed.keys⟩
            obtain ⟨entry, member, same⟩ := List.mem_map.mp clash
            exact (keys entry member).1 same
          · intro entry member
            rcases List.mem_cons.mp member with rfl | later
            · rfl
            · exact listed.kinds entry later
          · intro entry member
            rcases List.mem_cons.mp member with rfl | later
            · exact ⟨newTid, newKey⟩
            · exact ⟨(ids entry later).2, (keys entry later).2⟩
          · simp [kinds]
          · intro other member session' scalar
            rcases List.mem_cons.mp member with rfl | later
            · rw [hashed] at scalar
              cases scalar
              simp
            · exact List.mem_cons_of_mem _ (holds other later session' scalar)

theorem validateEntry_kind {k : EpochKey} {kind : LeaseKind} {raw : RawEntry} {c : Checked}
    (valid : validateEntry k kind raw = .ok c) : c.kind = kind := by
  simp only [validateEntry] at valid
  repeat' split at valid
  all_goals
    cases valid
    try rfl

theorem validateBatch_kinds {k : EpochKey} {kind : LeaseKind} {index : Nat}
    {raws : List RawEntry} {batch : List Checked}
    (valid : validateBatch k kind index raws = .ok batch) : ∀ c ∈ batch, c.kind = kind := by
  induction raws generalizing index batch with
  | nil =>
    simp only [validateBatch, Except.ok.injEq] at valid
    subst valid
    simp
  | cons raw rest ih =>
    simp only [validateBatch] at valid
    split at valid
    · cases valid
    next c checked =>
      obtain ⟨tail, later, rfl⟩ := except_map_ok valid
      intro other member
      rcases List.mem_cons.mp member with rfl | old
      · exact validateEntry_kind checked
      · exact ih later other old

theorem validate_kinds {k : EpochKey} {kind : LeaseKind} {raws : Option (List RawEntry)}
    {batch : List Checked} (valid : validate k kind raws = .ok batch) :
    ∀ c ∈ batch, c.kind = kind := by
  cases raws with
  | none => cases valid
  | some entries => exact validateBatch_kinds valid

/-- What the checks of a registration establish. -/
structure Admissible (s : LeaseService) (k : EpochKey) (active live : Option (List RawEntry))
    (entries : List TokenEntry) (activeSize liveSize : Nat) : Prop where
  listed : EpochLeaseState.Listed entries
  activeCount : EpochLeaseState.kindCount entries .active = activeSize
  liveCount : EpochLeaseState.kindCount entries .live = liveSize
  activeFits : s.projected k .active activeSize ≤ s.activeLimit
  liveFits : s.projected k .live liveSize ≤ s.livePtyLimit
  batches : ∃ activeBatch liveBatch, validate k .active active = .ok activeBatch ∧
    validate k .live live = .ok liveBatch ∧
    distinct k [] [] (activeBatch ++ liveBatch) = .ok entries

/-- The number of entries of a kind in a list of kinds. -/
theorem kindCount_of_kinds {entries : List TokenEntry} {batch other : List Checked}
    {kind kind' : LeaseKind} (different : kind' ≠ kind)
    (kinds : entries.map TokenEntry.kind = (batch ++ other).map Checked.kind)
    (all : ∀ c ∈ batch, c.kind = kind) (none : ∀ c ∈ other, c.kind = kind') :
    EpochLeaseState.kindCount entries kind = batch.length ∧
      EpochLeaseState.kindCount entries kind' = other.length := by
  have count : ∀ want : LeaseKind, EpochLeaseState.kindCount entries want =
      ((entries.map TokenEntry.kind).map fun k => if k = want then (1 : ℤ) else 0).sum := by
    intro want
    rw [EpochLeaseState.kindCount, List.map_map]
    rfl
  have batchKinds : batch.map Checked.kind = List.replicate batch.length kind := by
    rw [List.eq_replicate_iff]
    refine ⟨by simp, fun k member => ?_⟩
    obtain ⟨c, listed, rfl⟩ := List.mem_map.mp member
    exact all c listed
  have otherKinds : other.map Checked.kind = List.replicate other.length kind' := by
    rw [List.eq_replicate_iff]
    refine ⟨by simp, fun k member => ?_⟩
    obtain ⟨c, listed, rfl⟩ := List.mem_map.mp member
    exact none c listed
  constructor <;>
    simp [count, kinds, batchKinds, otherKinds, different, Ne.symm different]

theorem checkSnapshot_ok {k : EpochKey} {active live : Option (List RawEntry)}
    {entries : List TokenEntry} {activeSize liveSize : Nat}
    (done : s.checkSnapshot k active live = .ok (entries, activeSize, liveSize)) :
    Admissible s k active live entries activeSize liveSize := by
  simp only [checkSnapshot] at done
  cases validActive : validate k .active active with
  | error err => simp [validActive, bind, Except.bind] at done
  | ok activeBatch =>
    cases validLive : validate k .live live with
    | error err => simp [validActive, validLive, bind, Except.bind] at done
    | ok liveBatch =>
      cases scanned : distinct k [] [] (activeBatch ++ liveBatch) with
      | error err => simp [validActive, validLive, scanned, bind, Except.bind] at done
      | ok listed =>
        simp only [validActive, validLive, scanned, bind, Except.bind] at done
        split at done
        · cases done
        next activeFits =>
          split at done
          · cases done
          next liveFits =>
            cases done
            obtain ⟨fine, -, kinds, -⟩ := distinct_ok scanned
            obtain ⟨actives, lives⟩ := kindCount_of_kinds (by decide) kinds
              (validate_kinds validActive) (validate_kinds validLive)
            exact ⟨fine, actives, lives, not_lt.mp activeFits, not_lt.mp liveFits,
              activeBatch, liveBatch, validActive, validLive, scanned⟩

theorem load_count (k : EpochKey) (entries : List TokenEntry) (activeSize liveSize : Nat)
    (kind : LeaseKind) :
    (s.load k entries activeSize liveSize).globalCount kind = s.globalCount kind +
      ((match kind with
        | .active => (activeSize : ℤ)
        | .live => liveSize) - (s.epochState k).count kind) := by
  cases kind <;>
    simp only [load, globalCount, EpochLeaseState.count] <;> omega

theorem Ok.load (ok : s.Ok) {k : EpochKey} {active live : Option (List RawEntry)}
    {entries : List TokenEntry} {activeSize liveSize : Nat}
    (checked : Admissible s k active live entries activeSize liveSize) :
    (s.load k entries activeSize liveSize).Ok := by
  have cleared : (s.epochState k).clear.Matched := EpochLeaseState.matched_empty rfl rfl
  obtain ⟨matched, counts, -, -⟩ := EpochLeaseState.records_matched entries cleared checked.listed
    (fun _ _ => rfl) (fun _ _ => rfl)
  have actives := counts .active
  have lives := counts .live
  rw [checked.activeCount] at actives
  rw [checked.liveCount] at lives
  refine ok.replace k ?_ rfl ?_
  · refine ⟨EpochLeaseState.matched_of_tables matched rfl rfl, fun kind => ?_⟩
    cases kind with
    | active => exact (actives.trans (zero_add _)).symm
    | live => exact (lives.trans (zero_add _)).symm
  · intro kind
    rw [load_count]
    cases kind <;> rfl

end LeaseService

end Nelix.Router
