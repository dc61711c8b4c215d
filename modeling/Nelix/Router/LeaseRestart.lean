import Nelix.Router.LeaseFrames

/-!
# Router restarts

The daemons of several epochs and a router that loses its lease service at every restart. Requests
and replies travel on their own: a grant, a snapshot and a release each take effect at the router
and at the daemon in separate steps, in any order, and any of them may never arrive.

Admission is decided per epoch: an epoch that has registered with the current incarnation may
acquire while another still holds leases that this incarnation has not heard of.
-/
namespace Nelix.Router

open Core

/-- A lease in a daemon's hands, with the incarnation that granted it or registered it last. -/
structure Held where
  entry : TokenEntry
  rid : String
  deriving DecidableEq

/-- A snapshot on its way to the router. -/
structure Snapshot where
  epoch : EpochKey
  rid : String
  entries : List TokenEntry
  deriving DecidableEq

def Snapshot.wires (snap : Snapshot) (kind : LeaseKind) : List LeaseService.RawEntry :=
  (snap.entries.filter (·.kind = kind)).map TokenEntry.wire

/-- The router, what all daemons hold, and what is under way between them. -/
structure Cluster where
  service : LeaseService
  held : List Held := []
  /-- Grants whose reply has not arrived. -/
  granted : List Held := []
  snapshots : List Snapshot := []
  /-- Tokens that their daemon has given up; a release of one may reach the router any number of
  times. -/
  retired : List (EpochKey × String) := []

inductive ClusterStep
  | restart (rid : String)
  | acquire (base : BaseKey) (kinds : List String) (rid : Option String)
      (mint : LeaseKind → String)
  | deliver (lease : Held)
  | retire (lease : Held)
  | release (k : EpochKey) (tokenId : String) (rid : Option String)
  | capture (k : EpochKey) (rid : String)
  | register (snap : Snapshot)

namespace Cluster

/-- The lease of a kind in a reply. -/
def leaseOf (base : BaseKey) (rid : String) (kind : LeaseKind) (granted : LeaseService.Granted) :
    Held :=
  { entry := ⟨⟨base, kind⟩, kind, granted.tokenId⟩, rid := rid }

def leases (base : BaseKey) (rid : String) :
    Except LeaseError LeaseService.Grants → List Held
  | .error _ => []
  | .ok grants =>
    ((grants.active.map (leaseOf base rid .active)).toList ++
      (grants.live.map (leaseOf base rid .live)).toList)

/-- A registration that took over confirms the leases it listed. -/
def confirm (snap : Snapshot) (lease : Held) : Held :=
  if lease.entry ∈ snap.entries then { lease with rid := snap.rid } else lease

/-- A step that is not enabled does nothing. -/
def apply (c : Cluster) : ClusterStep → Cluster
  | .restart rid =>
    { c with service :=
        { activeLimit := c.service.activeLimit
          livePtyLimit := c.service.livePtyLimit
          reconciliationId := rid } }
  | .acquire base kinds rid mint =>
    let r := c.service.acquire base kinds rid mint
    { c with
      service := r.1
      granted := leases base c.service.reconciliationId r.2 ++ c.granted }
  | .deliver lease =>
    if lease ∈ c.granted then
      { c with
        granted := c.granted.erase lease
        held := lease :: c.held.filter (·.entry ≠ lease.entry) }
    else c
  | .retire lease =>
    if lease ∈ c.held then
      { c with
        held := c.held.filter (·.entry ≠ lease.entry)
        retired := (lease.entry.key.base.epoch, lease.entry.tokenId) :: c.retired }
    else c
  | .release k tokenId rid =>
    if (k, tokenId) ∈ c.retired then { c with service := (c.service.release k tokenId rid).1 }
    else c
  | .capture k rid =>
    { c with snapshots :=
        ⟨k, rid, (c.held.filter (·.entry.key.base.epoch = k)).map Held.entry⟩ :: c.snapshots }
  | .register snap =>
    if snap ∈ c.snapshots then
      { c with
        service := (c.service.registerSnapshot snap.epoch snap.rid (some (snap.wires .active))
          (some (snap.wires .live))).1
        held :=
          if c.service.takesOver snap.epoch snap.rid (some (snap.wires .active))
            (some (snap.wires .live))
          then c.held.map (confirm snap) else c.held }
    else c

def machine : Machine Cluster ClusterStep Unit where
  step c i := (c.apply i, [])

/-- Ids are minted once: a restart takes an id that no lease carries, an acquire mints tokens that
its epoch does not know. -/
def Unique (c : Cluster) : ClusterStep → Prop
  | .restart rid => ∀ lease ∈ c.held ++ c.granted, lease.rid ≠ rid
  | .acquire base _ _ mint => c.service.MintsFresh base mint
  | _ => True

instance (c : Cluster) : ∀ i, Decidable (c.Unique i)
  | .restart rid => inferInstanceAs (Decidable (∀ lease ∈ c.held ++ c.granted, lease.rid ≠ rid))
  | .acquire base _ _ mint => inferInstanceAs (Decidable (c.service.MintsFresh base mint))
  | .deliver _ | .retire _ | .release _ _ _ | .capture _ _ | .register _ => isTrue trivial

/-! ### The invariant -/

/-- The lease is in force: the current incarnation granted or registered it, and its daemon has not
given it up. -/
def InForce (c : Cluster) (lease : Held) : Prop :=
  lease.rid = c.service.reconciliationId ∧
    (lease.entry.key.base.epoch, lease.entry.tokenId) ∉ c.retired

instance (c : Cluster) (lease : Held) : Decidable (c.InForce lease) :=
  inferInstanceAs (Decidable (_ ∧ _))

structure Ok (c : Cluster) : Prop where
  service : c.service.Ok
  positive : ∀ kind, 0 ≤ c.service.limit kind
  fits : ∀ kind, c.service.globalCount kind ≤ c.service.limit kind
  distinct : (c.held.map Held.entry).Nodup
  own : ∀ lease ∈ c.held ++ c.granted, lease.entry.key.kind = lease.entry.kind
  listed : ∀ snap ∈ c.snapshots, ∀ entry ∈ snap.entries,
    entry.key.kind = entry.kind ∧ entry.key.base.epoch = snap.epoch
  registered : ∀ lease ∈ c.held ++ c.granted, lease.rid = c.service.reconciliationId →
    c.service.reconciled lease.entry.key.base.epoch = true
  recorded : ∀ lease ∈ c.held ++ c.granted, c.InForce lease → c.service.Recorded lease.entry

variable {c : Cluster}

/-- A step of the service that keeps the leases in force, with the leases and the retired tokens
only shrinking and growing. -/
theorem Ok.steady (ok : c.Ok) {lost : TokenEntry → Prop} {c' : Cluster}
    (steady : LeaseService.Steady lost c.service c'.service) (service : c'.service.Ok)
    (fits : ∀ kind, c'.service.globalCount kind ≤ c'.service.limit kind)
    (distinct : (c'.held.map Held.entry).Nodup)
    (leases : ∀ lease ∈ c'.held ++ c'.granted, lease ∈ c.held ++ c.granted)
    (retired : ∀ gone ∈ c.retired, gone ∈ c'.retired)
    (safe : ∀ lease ∈ c'.held ++ c'.granted, c'.InForce lease → ¬ lost lease.entry)
    (listed : ∀ snap ∈ c'.snapshots, ∀ entry ∈ snap.entries,
      entry.key.kind = entry.kind ∧ entry.key.base.epoch = snap.epoch) : c'.Ok where
  service := service
  positive kind := by
    rw [steady.limit]
    exact ok.positive kind
  fits := fits
  distinct := distinct
  own lease member := ok.own lease (leases lease member)
  listed := listed
  registered lease member current :=
    steady.reconciled _ (ok.registered lease (leases lease member) (current.trans steady.id))
  recorded lease member force := by
    have before : c.InForce lease :=
      ⟨force.1.trans steady.id, fun gone => force.2 (retired _ gone)⟩
    exact steady.recorded _ (ok.recorded lease (leases lease member) before)
      (safe lease member force)

theorem ok_start {activeLimit livePtyLimit : ℤ} (active : 0 ≤ activeLimit) (live : 0 ≤ livePtyLimit)
    (rid : String) :
    Ok { service := { activeLimit, livePtyLimit, reconciliationId := rid } } where
  service := LeaseService.ok_fresh activeLimit livePtyLimit rid
  positive kind := by cases kind <;> assumption
  fits kind := by cases kind <;> assumption
  distinct := by simp
  own := by simp
  listed := by simp
  registered := by simp
  recorded := by simp

theorem Ok.restart (ok : c.Ok) {rid : String} (unique : c.Unique (.restart rid)) :
    (c.apply (.restart rid)).Ok where
  service := LeaseService.ok_fresh _ _ rid
  positive kind := by
    have positive := ok.positive kind
    cases kind <;> exact positive
  fits kind := by
    have positive := ok.positive kind
    cases kind <;> exact positive
  distinct := ok.distinct
  own := ok.own
  listed := ok.listed
  registered lease member current := absurd current (unique lease member)
  recorded lease member force := absurd force.1 (unique lease member)

theorem mem_leases {base : BaseKey} {rid : String} {reply : Except LeaseError LeaseService.Grants}
    {lease : Held} (member : lease ∈ leases base rid reply) :
    ∃ grants kind granted, reply = .ok grants ∧ grants.get kind = some granted ∧
      lease = leaseOf base rid kind granted := by
  cases reply with
  | error err => simp [leases] at member
  | ok grants =>
    simp only [leases, List.mem_append, Option.mem_toList, Option.map_eq_some_iff] at member
    rcases member with ⟨granted, given, rfl⟩ | ⟨granted, given, rfl⟩
    · exact ⟨grants, .active, granted, rfl, given, rfl⟩
    · exact ⟨grants, .live, granted, rfl, given, rfl⟩

theorem Ok.acquire (ok : c.Ok) {base : BaseKey} {kinds : List String} {rid : Option String}
    {mint : LeaseKind → String} (unique : c.service.MintsFresh base mint) :
    (c.apply (.acquire base kinds rid mint)).Ok := by
  have steady : LeaseService.Steady (fun _ => False) c.service
      (c.service.acquire base kinds rid mint).1 := LeaseService.acquire_steady base kinds rid mint
  have split : ∀ lease ∈ c.held ++
      (leases base c.service.reconciliationId (c.service.acquire base kinds rid mint).2 ++
        c.granted), lease ∈ c.held ++ c.granted ∨
      ∃ grants kind granted, (c.service.acquire base kinds rid mint).2 = .ok grants ∧
        grants.get kind = some granted ∧
        lease = leaseOf base c.service.reconciliationId kind granted := by
    intro lease member
    simp only [List.mem_append] at member ⊢
    rcases member with old | new | old
    · exact .inl (.inl old)
    · exact .inr (mem_leases new)
    · exact .inl (.inr old)
  exact
    { service := ok.service.acquire unique
      positive := fun kind => by
        have limit := steady.limit kind
        exact limit ▸ ok.positive kind
      fits := fun kind => by
        have limit := steady.limit kind
        simp only [apply, limit]
        rcases LeaseService.acquire_bounded base kinds rid mint kind with same | bounded
        · rw [same]
          exact ok.fits kind
        · exact bounded
      distinct := ok.distinct
      own := fun lease member => by
        rcases split lease member with old | ⟨grants, kind, granted, -, -, rfl⟩
        · exact ok.own lease old
        · rfl
      listed := ok.listed
      registered := fun lease member current => by
        rcases split lease member with old | ⟨grants, kind, granted, done, given, rfl⟩
        · exact steady.reconciled _ (ok.registered lease old (current.trans steady.id))
        · exact steady.reconciled _ (LeaseService.acquire_grants ok.service unique done).2.1
      recorded := fun lease member force => by
        rcases split lease member with old | ⟨grants, kind, granted, done, given, rfl⟩
        · exact steady.recorded _ (ok.recorded lease old ⟨force.1.trans steady.id, force.2⟩) (by simp)
        · exact (LeaseService.acquire_grants ok.service unique done).2.2 kind granted given }

theorem nodup_filter {held : List Held} (distinct : (held.map Held.entry).Nodup)
    (p : Held → Bool) : ((held.filter p).map Held.entry).Nodup :=
  distinct.sublist (List.filter_sublist.map _)

theorem Ok.deliver (ok : c.Ok) (lease : Held) : (c.apply (.deliver lease)).Ok := by
  simp only [apply]
  split
  next inFlight =>
    refine ok.steady (.refl (fun _ => False) c.service) ok.service ok.fits ?_ ?_
      (fun _ gone => gone) (fun _ _ _ => id) ok.listed
    · rw [List.map_cons, List.nodup_cons]
      refine ⟨?_, nodup_filter ok.distinct _⟩
      simp
    · intro other member
      simp only [List.cons_append, List.mem_cons, List.mem_append, List.mem_filter] at member ⊢
      rcases member with rfl | old | flying
      · exact .inr inFlight
      · exact .inl old.1
      · exact .inr (List.mem_of_mem_erase flying)
  next => exact ok

theorem Ok.retire (ok : c.Ok) (lease : Held) : (c.apply (.retire lease)).Ok := by
  simp only [apply]
  split
  · refine ok.steady (.refl (fun _ => False) c.service) ok.service ok.fits
      (nodup_filter ok.distinct _) ?_ (fun _ gone => by simp [gone]) (fun _ _ _ => id) ok.listed
    intro other member
    simp only [List.mem_append, List.mem_filter] at member ⊢
    rcases member with old | flying
    · exact .inl old.1
    · exact .inr flying
  · exact ok

theorem Ok.release (ok : c.Ok) (k : EpochKey) (tokenId : String) (rid : Option String) :
    (c.apply (.release k tokenId rid)).Ok := by
  simp only [apply]
  split
  next gone =>
    have steady := LeaseService.release_steady ok.service k tokenId rid
    refine ok.steady steady (ok.service.release k tokenId rid) (fun kind => ?_) ok.distinct
      (fun _ member => member) (fun _ gone => gone) ?_ ok.listed
    · rw [steady.limit]
      exact (LeaseService.release_count k tokenId rid kind).trans (ok.fits kind)
    · rintro lease - force ⟨epoch, token⟩
      exact force.2 (by rw [epoch, token]; exact gone)
  next => exact ok

theorem Ok.capture (ok : c.Ok) (k : EpochKey) (rid : String) : (c.apply (.capture k rid)).Ok := by
  refine ok.steady (.refl (fun _ => False) c.service) ok.service ok.fits ok.distinct
    (fun _ member => member) (fun _ gone => gone) (fun _ _ _ => id) ?_
  intro snap member entry listed
  simp only [apply, List.mem_cons] at member
  rcases member with rfl | old
  · simp only [List.mem_map, List.mem_filter, decide_eq_true_eq] at listed
    obtain ⟨lease, ⟨held, epoch⟩, rfl⟩ := listed
    exact ⟨ok.own lease (List.mem_append_left _ held), epoch⟩
  · exact ok.listed snap old entry listed

theorem confirm_entry (snap : Snapshot) (lease : Held) :
    (confirm snap lease).entry = lease.entry := by
  simp only [confirm]
  split <;> rfl

theorem mem_wires {snap : Snapshot} {entry : TokenEntry} (listed : entry ∈ snap.entries) :
    entry.wire ∈ (match entry.kind with
      | .active => some (snap.wires .active)
      | .live => some (snap.wires .live)).getD [] := by
  have member : entry.wire ∈ snap.wires entry.kind :=
    List.mem_map.mpr ⟨entry, List.mem_filter.mpr ⟨listed, by simp⟩, rfl⟩
  cases kind : entry.kind with
  | active => simpa [kind] using member
  | live => simpa [kind] using member

theorem Ok.register (ok : c.Ok) (snap : Snapshot) : (c.apply (.register snap)).Ok := by
  simp only [apply]
  split
  next known =>
    have steady := c.service.registerSnapshot_steady snap.epoch snap.rid
      (some (snap.wires .active)) (some (snap.wires .live))
    have service := ok.service.registerSnapshot snap.epoch snap.rid
      (some (snap.wires .active)) (some (snap.wires .live))
    have fits := LeaseService.registerSnapshot_fits ok.fits snap.epoch snap.rid
      (some (snap.wires .active)) (some (snap.wires .live))
    split
    next takes =>
      obtain ⟨registered, records⟩ := LeaseService.registerSnapshot_over takes
      simp only [takes, and_true] at steady
      -- a lease after the registration was listed in the snapshot, or stands as before
      have split : ∀ lease ∈ c.held.map (confirm snap) ++ c.granted,
          lease.entry ∈ snap.entries ∨ lease ∈ c.held ++ c.granted := by
        intro lease member
        rcases List.mem_append.mp member with held | flying
        · obtain ⟨old, was, rfl⟩ := List.mem_map.mp held
          by_cases listed : old.entry ∈ snap.entries
          · exact .inl (by simp [confirm, listed])
          · exact .inr (by simp [confirm, listed, was])
        · exact .inr (List.mem_append_right _ flying)
      have fresh : ∀ lease ∈ c.held ++ c.granted, lease.rid = c.service.reconciliationId →
          lease.entry.key.base.epoch ≠ snap.epoch := by
        intro lease member current same
        have before := ok.registered lease member current
        simp [LeaseService.takesOver, ← same, before] at takes
      exact
        { service := service
          positive := fun kind => by
            rw [steady.limit]
            exact ok.positive kind
          fits := fun kind => by
            rw [steady.limit]
            exact fits kind
          distinct := by simpa [Function.comp_def, confirm_entry] using ok.distinct
          own := fun lease member => by
            rcases split lease member with listed | old
            · exact (ok.listed snap known lease.entry listed).1
            · exact ok.own lease old
          listed := ok.listed
          registered := fun lease member current => by
            rcases split lease member with listed | old
            · rw [(ok.listed snap known lease.entry listed).2]
              exact registered
            · exact steady.reconciled _ (ok.registered lease old (current.trans steady.id))
          recorded := fun lease member force => by
            rcases split lease member with listed | old
            · obtain ⟨own, epoch⟩ := ok.listed snap known lease.entry listed
              exact records lease.entry own epoch (mem_wires listed)
            · have current := force.1.trans steady.id
              exact steady.recorded _ (ok.recorded lease old ⟨current, force.2⟩)
                (fresh lease old current) }
    next skipped =>
      refine ok.steady steady service (fun kind => ?_) ok.distinct (fun _ member => member)
        (fun _ gone => gone) (fun _ _ _ lost => skipped lost.2) ok.listed
      rw [steady.limit]
      exact fits kind
  next => exact ok

theorem Ok.apply (ok : c.Ok) (i : ClusterStep) (unique : c.Unique i) : (c.apply i).Ok := by
  cases i with
  | restart rid => exact ok.restart unique
  | acquire base kinds rid mint => exact ok.acquire unique
  | deliver lease => exact ok.deliver lease
  | retire lease => exact ok.retire lease
  | release k tokenId rid => exact ok.release k tokenId rid
  | capture k rid => exact ok.capture k rid
  | register snap => exact ok.register snap

/-! ### Counting -/

/-- The leases of a kind that all daemons hold. -/
def heldCount (c : Cluster) (kind : LeaseKind) : ℕ :=
  (c.held.filter (·.entry.kind = kind)).length

/-- Those of them that are in force. -/
def inForceCount (c : Cluster) (kind : LeaseKind) : ℕ :=
  (c.held.filter fun lease => lease.entry.kind = kind ∧ c.InForce lease).length

/-- The tokens of a kind that the service has recorded, over all epochs. -/
def recordedEntries (s : LeaseService) (kind : LeaseKind) : List TokenEntry :=
  s.epochs.entries.flatMap fun p => (p.2.tokens.entries.map Sigma.snd).filter (·.kind = kind)

theorem length_recordedEntries (s : LeaseService) (kind : LeaseKind) :
    ((recordedEntries s kind).length : ℤ) = tally (·.tokensOf kind) s.epochs := by
  have one : ∀ es : EpochLeaseState,
      (((es.tokens.entries.map Sigma.snd).filter (·.kind = kind)).length : ℤ) =
        es.tokensOf kind := by
    intro es
    simp only [EpochLeaseState.tokensOf, tally]
    induction es.tokens.entries with
    | nil => rfl
    | cons p rest ih =>
      by_cases same : p.2.kind = kind
      · simp [isKind, same, ih]
        omega
      · simp [isKind, same, ih]
  simp only [recordedEntries, tally]
  induction s.epochs.entries with
  | nil => rfl
  | cons p rest ih =>
    rw [List.flatMap_cons, List.length_append, Nat.cast_add, one, ih, List.map_cons, List.sum_cons]

theorem Ok.inForce_le (ok : c.Ok) (kind : LeaseKind) :
    (c.inForceCount kind : ℤ) ≤ c.service.limit kind := by
  have subset : (c.held.filter fun lease => lease.entry.kind = kind ∧ c.InForce lease).map
      Held.entry ⊆ recordedEntries c.service kind := by
    intro entry member
    simp only [List.mem_map, List.mem_filter, decide_eq_true_eq] at member
    obtain ⟨lease, ⟨held, sameKind, force⟩, rfl⟩ := member
    have recorded := ok.recorded lease (List.mem_append_left _ held) force
    obtain ⟨-, token⟩ := (ok.service.epochState _).matched.keys _ _ recorded
    cases found : c.service.epochs.lookup lease.entry.key.base.epoch with
    | none =>
      simp only [LeaseService.epochState, found, Option.getD_none] at token
      cases token
    | some es =>
      simp only [LeaseService.epochState, found, Option.getD_some] at token
      refine List.mem_flatMap.mpr ⟨⟨_, es⟩, AList.mem_lookup_iff.mp found, ?_⟩
      exact List.mem_filter.mpr
        ⟨(LeaseService.mem_values _).mpr ⟨_, token⟩, by simpa using sameKind⟩
  have shorter := (nodup_filter ok.distinct _).length_le_of_subset subset
  rw [List.length_map] at shorter
  have counted := (ok.service.accounted).recorded kind
  have total := length_recordedEntries c.service kind
  have fits := ok.fits kind
  have length : (c.inForceCount kind : ℤ) ≤ (recordedEntries c.service kind).length :=
    Int.ofNat_le.mpr shorter
  omega

theorem Ok.apply_limit (ok : c.Ok) (i : ClusterStep) (kind : LeaseKind) :
    (c.apply i).service.limit kind = c.service.limit kind := by
  cases i with
  | restart rid => cases kind <;> rfl
  | acquire base kinds rid mint =>
    have steady : LeaseService.Steady (fun _ => False) c.service
      (c.service.acquire base kinds rid mint).1 := LeaseService.acquire_steady base kinds rid mint
    exact steady.limit kind
  | deliver lease =>
    simp only [Cluster.apply]
    split <;> rfl
  | retire lease =>
    simp only [Cluster.apply]
    split <;> rfl
  | release k tokenId rid =>
    simp only [Cluster.apply]
    split
    · exact (LeaseService.release_steady ok.service k tokenId rid).limit kind
    · rfl
  | capture k rid => rfl
  | register snap =>
    simp only [Cluster.apply]
    split
    · exact (c.service.registerSnapshot_steady _ _ _ _).limit kind
    · rfl

/-- A router that has just started, and no lease anywhere. -/
def start (activeLimit livePtyLimit : ℤ) (rid : String) : Cluster :=
  { service := { activeLimit, livePtyLimit, reconciliationId := rid } }

/-- Over every run with restarts, registrations, acquires and releases in any order, the leases
that the current incarnation granted or took over and that their daemons still hold keep to the
limit. -/
theorem in_force_within_limit (activeLimit livePtyLimit : ℤ) (active : 0 ≤ activeLimit)
    (live : 0 ≤ livePtyLimit) (rid : String) (steps : List ClusterStep)
    (unique : machine.Along Unique (start activeLimit livePtyLimit rid) steps)
    (kind : LeaseKind) :
    ((machine.after (start activeLimit livePtyLimit rid) steps).inForceCount kind : ℤ) ≤
      (start activeLimit livePtyLimit rid).service.limit kind := by
  have keeps : ∀ c i, (c.Ok ∧ c.service.limit kind =
      (start activeLimit livePtyLimit rid).service.limit kind) → Unique c i →
      ((machine.step c i).1.Ok ∧ (machine.step c i).1.service.limit kind =
        (start activeLimit livePtyLimit rid).service.limit kind) := by
    rintro c i ⟨ok, same⟩ unique
    exact ⟨ok.apply i unique, (ok.apply_limit i kind).trans same⟩
  obtain ⟨ok, same⟩ := machine.invariant_along _ keeps ⟨ok_start active live rid, rfl⟩ unique
  rw [← same]
  exact ok.inForce_le kind

/-- Two generations and one lease: the first holds it over a restart, the second registers first
and is granted another. -/
def lateRegistration : List ClusterStep :=
  let mintA : LeaseKind → String := fun kind => match kind with | .active => "a1" | .live => "a2"
  let mintB : LeaseKind → String := fun kind => match kind with | .active => "b1" | .live => "b2"
  let baseA : BaseKey := ⟨⟨"A", "1"⟩, .string "s", "0"⟩
  let baseB : BaseKey := ⟨⟨"B", "1"⟩, .string "t", "0"⟩
  [.capture baseA.epoch "r1", .register ⟨baseA.epoch, "r1", []⟩,
    .acquire baseA ["active"] (some "r1") mintA,
    .deliver ⟨⟨⟨baseA, .active⟩, .active, "a1"⟩, "r1"⟩,
    .restart "r2",
    .capture baseB.epoch "r2", .register ⟨baseB.epoch, "r2", []⟩,
    .acquire baseB ["active"] (some "r2") mintB,
    .deliver ⟨⟨⟨baseB, .active⟩, .active, "b1"⟩, "r2"⟩]

/-- With a limit of one, two leases are held in the end. -/
theorem limit_exceeded_after_restart :
    ¬ ∀ (limit : ℤ) (rid : String) (steps : List ClusterStep), 0 ≤ limit →
      machine.Along Unique (start limit limit rid) steps → ∀ kind,
        ((machine.after (start limit limit rid) steps).heldCount kind : ℤ) ≤ limit := by
  intro bounded
  have held : (machine.after (start 1 1 "r1") lateRegistration).heldCount .active = 2 := by decide
  have unique : machine.Along Unique (start 1 1 "r1") lateRegistration := by decide
  have within := bounded 1 "r1" lateRegistration (by decide) unique .active
  rw [held] at within
  revert within
  decide

theorem in_force_within_limit_late :
    ((machine.after (start 1 1 "r1") lateRegistration).inForceCount .active : ℤ) ≤ 1 :=
  in_force_within_limit 1 1 (by decide) (by decide) "r1" lateRegistration
    (by decide) .active

end Cluster

end Nelix.Router
