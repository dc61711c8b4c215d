import Nelix.Contracts.Errors
import Nelix.Core.Tally
import Mathlib.Data.Rat.Defs

/-!
# The lease service

The router's lease state, one record for each generation epoch. A reconciliation id marks the
incarnation of the router; an epoch admits lease mutations only once it registered under it.
Each operation returns the next state with its reply. Token ids are minted outside: `mint` is what
`uuid4` returns for the two kinds.
-/
namespace Nelix.Router

open Nelix.Contracts

inductive LeaseKind
  | active | live
  deriving DecidableEq, Repr

/-- A hashable JSON value that is not a container; `number` covers the booleans too. -/
inductive Scalar
  | null
  | number (value : ℚ)
  | string (value : String)
  deriving DecidableEq

/-- A JSON value as far as a lease key can hold one: lists and objects cannot be hashed. -/
inductive Part
  | scalar (value : Scalar)
  | unhashable
  deriving DecidableEq

abbrev Part.text (s : String) : Part := .scalar (.string s)

/-- A generation epoch. -/
structure EpochKey where
  genId : String
  genEpoch : String
  deriving DecidableEq, Repr

structure BaseKey where
  epoch : EpochKey
  sessionId : Scalar
  activationId : String
  deriving DecidableEq

/-- The fenced key of a lease. -/
structure LeaseKey where
  base : BaseKey
  kind : LeaseKind
  deriving DecidableEq

structure TokenEntry where
  key : LeaseKey
  kind : LeaseKind
  tokenId : String
  deriving DecidableEq

structure EpochLeaseState where
  activeCount : ℤ := 0
  livePtyCount : ℤ := 0
  tokens : AList fun _ : String => TokenEntry := ∅
  byKindKey : AList fun _ : LeaseKey => TokenEntry := ∅
  rebuilding : Bool := false
  reconciledRid : Option String := none
  deriving DecidableEq

structure LeaseService where
  activeLimit : ℤ := 5
  livePtyLimit : ℤ := 5
  reconciliationId : String
  epochs : AList fun _ : EpochKey => EpochLeaseState := ∅
  globalActiveCount : ℤ := 0
  globalLivePtyCount : ℤ := 0
  deriving DecidableEq

/-- What is wrong with an entry of a snapshot. -/
inductive EntryFault
  | expectedDict
  | tokenIdRequired
  | keyArity
  | activationIdString
  | keyKind (kind : Part)
  | keyEpoch
  deriving DecidableEq

/-- The errors of the service, with the data their texts carry. -/
inductive LeaseError
  | staleAcquire (given : Option String) (current : String)
  | staleSnapshot (given : String) (current : String)
  | rebuilding
  | limitReached (kind : LeaseKind) (limit : ℤ)
  | badEntry (kind : LeaseKind) (index : Nat) (fault : EntryFault)
  | duplicateTokenId (tokenId : String)
  | duplicateKindKey
  | snapshotLimit (kind : LeaseKind) (projected limit : ℤ)
  | typeError
  deriving DecidableEq

/-- The code of a contract error; Python's own `TypeError` has none. -/
def LeaseError.code : LeaseError → Option ErrorCode
  | staleAcquire _ _ | staleSnapshot _ _ => some .staleReconciliationId
  | rebuilding => some .rebuilding
  | limitReached _ _ | snapshotLimit _ _ _ => some .concurrencyLimit
  | badEntry _ _ _ | duplicateTokenId _ | duplicateKindKey => some .invalidRequest
  | typeError => none

namespace LeaseKind

def spelling : LeaseKind → String
  | active => "active"
  | live => "live"

/-- The kind as the two limit texts name it. -/
def limitName : LeaseKind → String
  | active => "active"
  | live => "live-PTY"

end LeaseKind

/-- The text of an error; `repr` is Python's, on strings and on key parts. -/
def LeaseError.message (reprText : String → String) (reprPart : Part → String) :
    LeaseError → String
  | staleAcquire given current =>
    "missing or stale reconciliation_id " ++ (given.elim "None" reprText) ++ ", current is " ++
      reprText current
  | staleSnapshot given current =>
    "stale reconciliation_id " ++ reprText given ++ " in register_snapshot, current is " ++
      reprText current
  | rebuilding => "lease service is rebuilding in-memory state"
  | limitReached kind limit => kind.limitName ++ " lease limit (" ++ toString limit ++ ") reached"
  | badEntry kind index fault =>
    kind.spelling ++ " token " ++ toString index ++ ": " ++
      match fault with
      | .expectedDict => "expected dict"
      | .tokenIdRequired => "non-empty string token_id required"
      | .keyArity => "key must have arity 5 (gen_id, gen_epoch, session_id, activation_id, kind)"
      | .activationIdString => "activation_id must be a string"
      | .keyKind part =>
        "key kind " ++ reprPart part ++ " does not match expected " ++ reprText kind.spelling
      | .keyEpoch => "key gen_id/gen_epoch does not match epoch being registered"
  | duplicateTokenId tokenId => "duplicate token_id " ++ reprText tokenId
  | duplicateKindKey => "duplicate kind-key"
  | snapshotLimit kind projected limit =>
    "snapshot would push global " ++ kind.spelling ++ " count to " ++ toString projected ++
      " exceeding limit (" ++ toString limit ++ ")"
  | typeError => ""

/-! ### The records of one epoch -/

namespace EpochLeaseState

def count (es : EpochLeaseState) : LeaseKind → ℤ
  | .active => es.activeCount
  | .live => es.livePtyCount

def bump (es : EpochLeaseState) (kind : LeaseKind) (delta : ℤ) : EpochLeaseState :=
  match kind with
  | .active => { es with activeCount := es.activeCount + delta }
  | .live => { es with livePtyCount := es.livePtyCount + delta }

/-- Enter a token in both tables. -/
def record (es : EpochLeaseState) (entry : TokenEntry) : EpochLeaseState :=
  { es with
    tokens := es.tokens.insert entry.tokenId entry
    byKindKey := es.byKindKey.insert entry.key entry }

/-- Take a token out of both tables. -/
def forget (es : EpochLeaseState) (entry : TokenEntry) : EpochLeaseState :=
  { es with
    tokens := es.tokens.erase entry.tokenId
    byKindKey := es.byKindKey.erase entry.key }

/-- Raising the rebuilding flag also takes the registration back. -/
def flagged (value : Bool) (es : EpochLeaseState) : EpochLeaseState :=
  { es with
    rebuilding := value
    reconciledRid := if value then none else es.reconciledRid }

def clear (es : EpochLeaseState) : EpochLeaseState := { es with tokens := ∅, byKindKey := ∅ }

end EpochLeaseState

namespace LeaseService

def globalCount (s : LeaseService) : LeaseKind → ℤ
  | .active => s.globalActiveCount
  | .live => s.globalLivePtyCount

def limit (s : LeaseService) : LeaseKind → ℤ
  | .active => s.activeLimit
  | .live => s.livePtyLimit

def bumpGlobal (s : LeaseService) (kind : LeaseKind) (delta : ℤ) : LeaseService :=
  match kind with
  | .active => { s with globalActiveCount := s.globalActiveCount + delta }
  | .live => { s with globalLivePtyCount := s.globalLivePtyCount + delta }

/-- The record of an epoch; one that was never seen reads as empty. -/
def epochState (s : LeaseService) (k : EpochKey) : EpochLeaseState := (s.epochs.lookup k).getD {}

def setEpoch (s : LeaseService) (k : EpochKey) (es : EpochLeaseState) : LeaseService :=
  { s with epochs := s.epochs.insert k es }

/-- `_epoch`: an epoch is created the first time it is named. -/
def touch (s : LeaseService) (k : EpochKey) : LeaseService :=
  match s.epochs.lookup k with
  | some _ => s
  | none => s.setEpoch k {}

/-- A missing id, or one of another incarnation, is refused. -/
def fresh (s : LeaseService) (rid : Option String) : Bool := rid == some s.reconciliationId

/-- The epoch registered under the current incarnation. -/
def reconciled (s : LeaseService) (k : EpochKey) : Bool :=
  (s.epochState k).reconciledRid == some s.reconciliationId

/-! ### Acquire -/

structure Granted where
  tokenId : String
  fresh : Bool
  deriving DecidableEq, Repr

/-- The reply of an acquire, by kind. -/
structure Grants where
  active : Option Granted := none
  live : Option Granted := none
  deriving DecidableEq, Repr

/-- A kind that is asked for: the token its key holds, or room for a new one. -/
def admission (s : LeaseService) (base : BaseKey) (kind : LeaseKind) :
    Except LeaseError (Option TokenEntry) :=
  match (s.epochState base.epoch).byKindKey.lookup ⟨base, kind⟩ with
  | some entry => .ok (some entry)
  | none =>
    if s.limit kind ≤ s.globalCount kind then .error (.limitReached kind (s.limit kind))
    else .ok none

/-- Enter a new token and count it. -/
def grant (s : LeaseService) (base : BaseKey) (kind : LeaseKind) (tokenId : String) :
    LeaseService :=
  let entry : TokenEntry := { key := ⟨base, kind⟩, kind := kind, tokenId := tokenId }
  (s.setEpoch base.epoch (((s.epochState base.epoch).record entry).bump kind 1)).bumpGlobal kind 1

/-- The outcome for one kind that was admitted. -/
def settle (s : LeaseService) (base : BaseKey) (kind : LeaseKind) (mint : LeaseKind → String) :
    Option TokenEntry → LeaseService × Granted
  | some entry => (s, { tokenId := entry.tokenId, fresh := false })
  | none => (s.grant base kind (mint kind), { tokenId := mint kind, fresh := true })

/-- A kind that is not asked for is left alone. -/
def admitIf (s : LeaseService) (wanted : Bool) (base : BaseKey) (kind : LeaseKind) :
    Except LeaseError (Option (Option TokenEntry)) :=
  if wanted then (s.admission base kind).map some else .ok none

def settleIf (s : LeaseService) (base : BaseKey) (kind : LeaseKind) (mint : LeaseKind → String) :
    Option (Option TokenEntry) → LeaseService × Option Granted
  | some found => ((s.settle base kind mint found).1, some (s.settle base kind mint found).2)
  | none => (s, none)

/-- Both kinds are validated before either is granted. -/
def acquire (s : LeaseService) (base : BaseKey) (kinds : List String) (rid : Option String)
    (mint : LeaseKind → String) : LeaseService × Except LeaseError Grants :=
  if ¬ s.fresh rid then (s, .error (.staleAcquire rid s.reconciliationId))
  else
    let s := s.touch base.epoch
    if ¬ s.reconciled base.epoch then (s, .error .rebuilding)
    else
      match s.admitIf ("active" ∈ kinds) base .active with
      | .error err => (s, .error err)
      | .ok active =>
        match s.admitIf ("live" ∈ kinds) base .live with
        | .error err => (s, .error err)
        | .ok live =>
          let first := s.settleIf base .active mint active
          let second := first.1.settleIf base .live mint live
          (second.1, .ok { active := first.2, live := second.2 })

/-! ### Release -/

/-- Take a token out and uncount it. -/
def drop (s : LeaseService) (k : EpochKey) (entry : TokenEntry) : LeaseService :=
  (s.setEpoch k (((s.epochState k).forget entry).bump entry.kind (-1))).bumpGlobal entry.kind (-1)

/-- `true` when the token was freed, `false` when a reconciled epoch does not know it. -/
def release (s : LeaseService) (k : EpochKey) (tokenId : String) (rid : Option String) :
    LeaseService × Except LeaseError Bool :=
  if ¬ s.fresh rid then (s, .error (.staleAcquire rid s.reconciliationId))
  else
    let s := s.touch k
    if ¬ s.reconciled k then (s, .error .rebuilding)
    else
      match (s.epochState k).tokens.lookup tokenId with
      | none => (s, .ok false)
      | some entry => (s.drop k entry, .ok true)

/-- Release all tokens of an epoch whose daemon is dead. -/
def releaseEpoch (s : LeaseService) (k : EpochKey) : LeaseService :=
  match s.epochs.lookup k with
  | none => s
  | some es =>
    let s := (es.tokens.entries.map Sigma.snd).foldl (fun s entry => s.drop k entry) s
    s.setEpoch k (s.epochState k).clear

/-! ### Snapshots -/

/-- An entry of a snapshot as it came over the wire; an absent field reads as null. -/
inductive RawEntry
  | notDict
  | dict (tokenId : Part) (key : Option (List Part))

/-- A validated entry: only the session part of its key is still unchecked. -/
structure Checked where
  tokenId : String
  session : Part
  activationId : String
  kind : LeaseKind

def validateEntry (k : EpochKey) (kind : LeaseKind) : RawEntry → Except EntryFault Checked
  | .notDict => .error .expectedDict
  | .dict tokenId key =>
    match tokenId with
    | .scalar (.string tid) =>
      if tid = "" then .error .tokenIdRequired
      else
        match key with
        | some [genId, genEpoch, session, activation, keyKind] =>
          match activation with
          | .scalar (.string activationId) =>
            if keyKind ≠ .text kind.spelling then .error (.keyKind keyKind)
            else if genId ≠ .text k.genId ∨ genEpoch ≠ .text k.genEpoch then .error .keyEpoch
            else .ok { tokenId := tid, session, activationId, kind }
          | _ => .error .activationIdString
        | _ => .error .keyArity
    | _ => .error .tokenIdRequired

/-- `_validate_snapshot_entry_batch`; a batch that is no list at all cannot be enumerated. -/
def validateBatch (k : EpochKey) (kind : LeaseKind) :
    Nat → List RawEntry → Except LeaseError (List Checked)
  | _, [] => .ok []
  | index, raw :: rest =>
    match validateEntry k kind raw with
    | .error fault => .error (.badEntry kind index fault)
    | .ok checked => (validateBatch k kind (index + 1) rest).map (checked :: ·)

def validate (k : EpochKey) (kind : LeaseKind) : Option (List RawEntry) →
    Except LeaseError (List Checked)
  | none => .error .typeError
  | some entries => validateBatch k kind 0 entries

/-- The duplicate scan over both batches; hashing a key fails on a container. -/
def distinct (k : EpochKey) : List String → List LeaseKey → List Checked →
    Except LeaseError (List TokenEntry)
  | _, _, [] => .ok []
  | seenTids, seenKeys, c :: rest =>
    if c.tokenId ∈ seenTids then .error (.duplicateTokenId c.tokenId)
    else
      match c.session with
      | .unhashable => .error .typeError
      | .scalar session =>
        let key : LeaseKey := ⟨⟨k, session, c.activationId⟩, c.kind⟩
        if key ∈ seenKeys then .error .duplicateKindKey
        else
          (distinct k (c.tokenId :: seenTids) (key :: seenKeys) rest).map
            ({ key := key, kind := c.kind, tokenId := c.tokenId } :: ·)

/-- The global count if the epoch held the snapshot instead of what it holds. -/
def projected (s : LeaseService) (k : EpochKey) (kind : LeaseKind) (size : Nat) : ℤ :=
  s.globalCount kind - (s.epochState k).count kind + size

/-- Replace the records of an epoch by a snapshot. -/
def load (s : LeaseService) (k : EpochKey) (entries : List TokenEntry) (activeSize liveSize : Nat) :
    LeaseService :=
  let es := entries.foldl EpochLeaseState.record (s.epochState k).clear
  { s with
    globalActiveCount := s.globalActiveCount - (s.epochState k).activeCount + activeSize
    globalLivePtyCount := s.globalLivePtyCount - (s.epochState k).livePtyCount + liveSize
    epochs := s.epochs.insert k
      { es with
        activeCount := activeSize
        livePtyCount := liveSize
        rebuilding := false
        reconciledRid := some s.reconciliationId } }

/-- Everything `register_snapshot` checks before it changes anything. -/
def checkSnapshot (s : LeaseService) (k : EpochKey) (active live : Option (List RawEntry)) :
    Except LeaseError (List TokenEntry × Nat × Nat) := do
  let activeBatch ← validate k .active active
  let liveBatch ← validate k .live live
  let entries ← distinct k [] [] (activeBatch ++ liveBatch)
  let projectedActive := s.projected k .active activeBatch.length
  let projectedLive := s.projected k .live liveBatch.length
  if s.activeLimit < projectedActive then
    .error (.snapshotLimit .active projectedActive s.activeLimit)
  else if s.livePtyLimit < projectedLive then
    .error (.snapshotLimit .live projectedLive s.livePtyLimit)
  else .ok (entries, activeBatch.length, liveBatch.length)

/-- An epoch that already registered under this incarnation keeps its records. -/
def registerSnapshot (s : LeaseService) (k : EpochKey) (rid : String)
    (active live : Option (List RawEntry)) : LeaseService × Except LeaseError String :=
  if rid ≠ s.reconciliationId then (s, .error (.staleSnapshot rid s.reconciliationId))
  else
    let s := s.touch k
    if s.reconciled k then (s, .ok s.reconciliationId)
    else
      match s.checkSnapshot k active live with
      | .error err => (s, .error err)
      | .ok (entries, activeSize, liveSize) =>
        (s.load k entries activeSize liveSize, .ok s.reconciliationId)

/-! ### Incarnations and the rebuilding flag -/

def setReconciliationId (s : LeaseService) (rid : String) : LeaseService :=
  { s with reconciliationId := rid }

def markEpochRebuilding (s : LeaseService) (k : EpochKey) : LeaseService :=
  let s := s.touch k
  s.setEpoch k { s.epochState k with rebuilding := true }

def setEpochRebuilding (s : LeaseService) (k : EpochKey) (value : Bool) : LeaseService :=
  let s := s.touch k
  s.setEpoch k ((s.epochState k).flagged value)

def setRebuilding (s : LeaseService) (value : Bool) : LeaseService :=
  { s with epochs := Core.mapValues (EpochLeaseState.flagged value) s.epochs }

end LeaseService

end Nelix.Router
