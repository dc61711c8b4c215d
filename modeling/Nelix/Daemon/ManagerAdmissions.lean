import Nelix.Core.Tally
import Nelix.Store.LedgerRuns
import Nelix.Daemon.ManagerRuns

/-!
# Reserved slots and markers

A restart reserves the slot of the session it replaces, a turn without a lease client reserves one
while it types, and every acquire for a session goes under a marker. The books are balanced when
the manager counts the slots, and keeps the markers, of exactly the calls under way that hold one.

## Main results

`balanced_iff`: a run leaves the books balanced exactly when no call in it was left by an exception
that nothing catches, and no restart was turned away once it had its slot.
-/
namespace Nelix.Daemon

open Contracts Core Store

/-- What a call holds: the marker of its session, and a slot. -/
structure Hold where
  sessionId : String
  marked : Bool
  reserve : Bool
  ended : Bool

namespace Hold

def slot (h : Hold) : ℕ := h.reserve.toNat

def mark (sid : String) (h : Hold) : ℕ := if h.marked = true ∧ h.sessionId = sid then 1 else 0

/-- What a call that is over has taken with it. -/
def leak (h : Hold) : ℕ := if h.ended then h.reserve.toNat + h.marked.toNat else 0

end Hold

namespace Spawn

def hold (run : Spawn) : Hold := ⟨run.sessionId, run.marked, run.reserve, run.stage = .done⟩

/-- What a call can hold where it stands. -/
def Shaped (run : Spawn) : Prop :=
  match run.stage with
  | .checking | .marking | .takingOver => run.reserve = false ∧ run.marked = false
  | .retrying => run.reserve = false ∧ run.marked = true
  | .acquiring | .entering | .installing | .givingBack => run.marked = true → run.reserve = false
  | .creating | .launching | .collecting | .withdrawing | .returning => run.reserve = false
  | .done => True

end Spawn

namespace Resume

def hold (call : Resume) : Hold := ⟨call.sessionId, call.marked, call.reserve, call.stage = .done⟩

def Shaped (call : Resume) : Prop :=
  match call.stage with
  | .checking | .reserving | .marking => call.reserve = false ∧ call.marked = false
  | .retrying | .acquiring | .revalidating => call.reserve = false ∧ call.marked = true
  | .typing | .returning | .done => True

end Resume

namespace Managed

/-- The marker of a session, as a number. -/
def marker (w : Managed) (sid : String) : ℕ := if sid ∈ w.manager.pendingAcquire then 1 else 0

def holds (w : Managed) : List Hold := w.spawns.map Spawn.hold ++ w.resumes.map Resume.hold

/-- What the calls under way hold. -/
def underWay (w : Managed) : List Hold := w.holds.filter fun h => !h.ended

/-- The manager counts the slots and keeps the markers of the calls under way, and no others. -/
def Balanced (w : Managed) : Prop :=
  w.manager.reserved = ((w.underWay.map Hold.slot).sum : ℕ) ∧
    ∀ sid, w.marker sid = (w.underWay.map (Hold.mark sid)).sum

/-- The step gives back what its call holds, if the call ends with it: the lease client raises
nothing unforeseen, and no restart that has its slot finds the epoch closed. -/
def Sparing (w : Managed) : ManagedStep → Prop
  | .spawn c input => ∀ run ∈ w.spawns[c]?,
    match run.stage with
    | .retrying => input.retried = true
    | .acquiring =>
      run.reserve = true → input.lease ≠ .raised ∧ input.lease ≠ .refused false
    | .entering =>
      run.reserve = true → (w.manager.checkQuiescent (faultOf input.unread)).1 = false
    | _ => True
  | .resume c input => ∀ call ∈ w.resumes[c]?,
    match call.stage with
    | .retrying => input.retried = true
    | .acquiring => input.lease ≠ .raised
    | _ => True
  | _ => True

/-- The books as they are kept, with the calls that are over. -/
structure Booked (w : Managed) : Prop where
  slots : w.manager.reserved = ((w.holds.map Hold.slot).sum : ℕ)
  marks : ∀ sid, w.marker sid = (w.holds.map (Hold.mark sid)).sum
  spawns : ∀ run ∈ w.spawns, run.Shaped
  resumes : ∀ call ∈ w.resumes, call.Shaped

def leaked (w : Managed) : ℕ := (w.holds.map Hold.leak).sum

variable {w w' : Managed} {c : ℕ} {run run' : Spawn} {call call' : Resume}

theorem sum_filter {α : Type*} (l : List α) (f : α → ℕ) (p : α → Bool) :
    (l.map f).sum = ((l.filter p).map f).sum + (l.map fun a => if p a then 0 else f a).sum := by
  induction l with
  | nil => rfl
  | cons a rest ih =>
    simp only [List.map_cons, List.sum_cons, List.filter_cons, ih]
    split
    · simp only [List.map_cons, List.sum_cons]
      omega
    · omega

/-- Books that are kept are balanced when the calls that are over hold nothing. -/
theorem Booked.books_iff (booked : Booked w) : Balanced w ↔ w.leaked = 0 := by
  have slots := sum_filter w.holds Hold.slot fun h => !h.ended
  have marks := fun sid => sum_filter w.holds (Hold.mark sid) fun h => !h.ended
  have total := booked.slots
  have totals := booked.marks
  rw [leaked, List.sum_eq_zero_iff_forall_eq_nat]
  constructor
  · rintro ⟨reserved, pending⟩ n member
    obtain ⟨h, inside, rfl⟩ := List.mem_map.mp member
    have unreserved : (w.holds.map fun h => if (!h.ended) = true then 0 else h.slot).sum = 0 := by
      simp only [underWay] at reserved
      omega
    have unmarked : (w.holds.map fun h' =>
        if (!h'.ended) = true then 0 else h'.mark h.sessionId).sum = 0 := by
      have pending := pending h.sessionId
      have total := totals h.sessionId
      have parts := marks h.sessionId
      simp only [underWay] at pending
      omega
    rw [List.sum_eq_zero_iff_forall_eq_nat] at unreserved unmarked
    have slot := unreserved _ (List.mem_map_of_mem inside)
    have mark := unmarked _ (List.mem_map_of_mem inside)
    simp only [Hold.leak]
    cases ended : h.ended with
    | false => rfl
    | true =>
      simp only [ended, Bool.not_true, Bool.false_eq_true, if_false, Hold.slot, Hold.mark,
        and_true] at slot mark
      cases marked : h.marked with
      | false =>
        rw [if_pos rfl, slot]
        rfl
      | true =>
        rw [marked] at mark
        cases mark
  · intro clean
    have none' : ∀ f : Hold → ℕ, (∀ h, h.leak = 0 → h.ended = true → f h = 0) →
        (w.holds.map fun h => if (!h.ended) = true then 0 else f h).sum = 0 := by
      intro f vanishes
      rw [List.sum_eq_zero_iff_forall_eq_nat]
      intro n member
      obtain ⟨h, inside, rfl⟩ := List.mem_map.mp member
      have kept := clean _ (List.mem_map_of_mem inside)
      cases ended : h.ended with
      | false => rfl
      | true => exact vanishes h kept ended
    have unreserved := none' Hold.slot fun h kept ended => by
      simp only [Hold.leak, ended, if_true] at kept
      simp only [Hold.slot]
      omega
    refine ⟨?_, fun sid => ?_⟩
    · simp only [underWay]
      omega
    · have unmarked := none' (Hold.mark sid) fun h kept ended => by
        simp only [Hold.leak, ended, if_true] at kept
        have unmarked : h.marked = false := by
          cases marked : h.marked with
          | false => rfl
          | true => simp [marked] at kept
        simp [Hold.mark, unmarked]
      have total := totals sid
      have parts := marks sid
      simp only [underWay]
      omega

/-! ### What a section does to the books -/

/-- A call holds `h'` where it held `h`, and the manager's books follow. -/
structure Turned (w w' : Managed) (h h' : Hold) : Prop where
  holds : ∀ f : Hold → ℕ, (w'.holds.map f).sum + f h = (w.holds.map f).sum + f h'
  reserved : w'.manager.reserved + h.slot = w.manager.reserved + h'.slot
  pending : ∀ sid, w'.marker sid + h.mark sid = w.marker sid + h'.mark sid

theorem holds_setSpawn (w : Managed) (found : w.spawns[c]? = some run) (run' : Spawn)
    (f : Hold → ℕ) : ((w.setSpawn c run').holds.map f).sum + f run.hold =
      (w.holds.map f).sum + f run'.hold := by
  have moved := sum_set (fun run => f run.hold) found run'
  simp only [holds, setSpawn, List.map_append, List.map_map, List.sum_append, Function.comp_def]
  omega

theorem holds_setResume (w : Managed) (found : w.resumes[c]? = some call) (call' : Resume)
    (f : Hold → ℕ) : ((w.setResume c call').holds.map f).sum + f call.hold =
      (w.holds.map f).sum + f call'.hold := by
  have moved := sum_set (fun call => f call.hold) found call'
  simp only [holds, setResume, List.map_append, List.map_map, List.sum_append, Function.comp_def]
  omega

theorem Booked.turned_laws (booked : Booked w) {h h' : Hold} (turned : Turned w w' h h') :
    w'.manager.reserved = ((w'.holds.map Hold.slot).sum : ℕ) ∧
      ∀ sid, w'.marker sid = (w'.holds.map (Hold.mark sid)).sum := by
  constructor
  · have slots := booked.slots
    have holds := turned.holds Hold.slot
    have reserved := turned.reserved
    omega
  · intro sid
    have marks := booked.marks sid
    have holds := turned.holds (Hold.mark sid)
    have pending := turned.pending sid
    omega

/-- A call that is marked has its marker up. -/
theorem Booked.marked (booked : Booked w) {h : Hold} (member : h ∈ w.holds)
    (marked : h.marked = true) : h.sessionId ∈ w.manager.pendingAcquire := by
  have mark : 0 < (w.holds.map (Hold.mark h.sessionId)).sum := by
    have one : h.mark h.sessionId = 1 := if_pos ⟨marked, rfl⟩
    rw [List.sum_pos_iff_exists_pos_nat]
    exact ⟨1, List.mem_map.mpr ⟨h, member, one⟩, Nat.one_pos⟩
  rw [← booked.marks, marker] at mark
  by_contra absent
  rw [if_neg absent] at mark
  cases mark

/-- What a section of `start` or `restart` does to the books, and when it leaks. -/
structure SpawnTurn (w : Managed) (c : ℕ) (run : Spawn) (spares : Prop) (w' : Managed) (run' : Spawn) :
    Prop where
  turned : Turned w w' run.hold run'.hold
  spawns : w'.spawns = w.spawns.set c run'
  resumes : w'.resumes = w.resumes
  shaped : run'.Shaped
  leaks : run'.hold.leak = 0 ↔ spares

/-- The call goes on, and its section changes neither the slots nor the markers. -/
theorem SpawnTurn.onward {m : Manager} (found : w.spawns[c]? = some run)
    (reserved : m.reserved = w.manager.reserved)
    (pending : m.pendingAcquire = w.manager.pendingAcquire)
    (slot : run'.reserve = run.reserve) (mark : run'.marked = run.marked)
    (named : run'.sessionId = run.sessionId) (shaped : run'.Shaped)
    (leaks : run'.hold.leak = 0 ↔ spares) :
    SpawnTurn w c run spares ((w.setManager m).setSpawn c run') run' := by
  refine ⟨⟨holds_setSpawn (w.setManager m) found run', ?_, fun sid => ?_⟩, rfl, rfl, shaped,
    leaks⟩
  · change m.reserved + _ = _
    rw [reserved]
    simp only [Hold.slot, Spawn.hold, slot]
  · change (if sid ∈ m.pendingAcquire then 1 else 0) + _ = _
    rw [pending]
    simp only [marker, Hold.mark, Spawn.hold, mark, named]
    rfl

theorem leak_underWay {run : Spawn} (live : run.stage ≠ .done) : run.hold.leak = 0 := by
  simp [Hold.leak, Spawn.hold, live]

theorem leak_free {run : Spawn} (unreserved : run.reserve = false) (unmarked : run.marked = false) :
    run.hold.leak = 0 := by
  simp [Hold.leak, Spawn.hold, unreserved, unmarked]

theorem leak_done {run : Spawn} (ended : run.stage = .done) :
    run.hold.leak = 0 ↔ run.reserve = false ∧ run.marked = false := by
  cases reserve : run.reserve <;> cases marked : run.marked <;>
    simp [Hold.leak, Spawn.hold, ended, reserve, marked]

theorem sparing_spawn (found : w.spawns[c]? = some run) (input : SpawnInput) :
    w.Sparing (.spawn c input) ↔
      match run.stage with
      | .retrying => input.retried = true
      | .acquiring =>
        run.reserve = true → input.lease ≠ .raised ∧ input.lease ≠ .refused false
      | .entering =>
        run.reserve = true → (w.manager.checkQuiescent (faultOf input.unread)).1 = false
      | _ => True := by
  rw [Sparing, found]
  simp only [Option.mem_def, Option.some.injEq, forall_eq']

/-- The section that puts a session on the table consumes the slot of a restart. -/
theorem install_books (m : Manager) (sid : String) (reserve : Bool) (tokens : Option Tokens)
    (room : Bool) (fault : Option Raised) :
    (m.install sid reserve tokens room fault).2.pendingAcquire = m.pendingAcquire ∧
      (m.install sid reserve tokens room fault).2.reserved =
        if (m.install sid reserve tokens room fault).1 then m.reserved - reserve.toNat
        else m.reserved := by
  rw [Manager.install]
  split
  · exact ⟨rfl, rfl⟩
  · split
    · exact ⟨rfl, rfl⟩
    · have same : (m.checkQuiescent fault).2.pendingAcquire = m.pendingAcquire ∧
          (m.checkQuiescent fault).2.reserved = m.reserved := ⟨rfl, rfl⟩
      rcases checked : m.checkQuiescent fault with ⟨refuses, m₁⟩
      rw [checked] at same
      cases refuses with
      | true => exact same
      | false =>
        refine ⟨by cases tokens <;> exact same.1, ?_⟩
        cases tokens <;> cases reserve <;>
          simpa [Manager.releaseReservation, Manager.setTokens] using same.2

/-- Taking a marker down takes it off the books of its call. -/
theorem marker_unmark (m : Manager) (name : String) (marked : Bool)
    (up : marked = true → name ∈ m.pendingAcquire) (sid : String) :
    (if sid ∈ (m.unmark name marked).pendingAcquire then 1 else 0) +
        (if marked = true ∧ name = sid then 1 else 0) =
      (if sid ∈ m.pendingAcquire then 1 else 0) +
        (if false = true ∧ name = sid then 1 else 0) := by
  cases marked with
  | false => rfl
  | true =>
    simp only [Manager.unmark, if_true, Finset.mem_erase, true_and]
    by_cases same : sid = name
    · subst same
      simp [up rfl]
    · simp [same, Ne.symm same]

variable (leased : Bool)

theorem spawnTurn_advanceSpawn (booked : Booked w) (found : w.spawns[c]? = some run)
    (live : run.stage ≠ .done) (input : SpawnInput) :
    ∃ run', SpawnTurn w c run (w.Sparing (.spawn c input)) (w.advanceSpawn leased c run input)
      run' := by
  have shaped : run.Shaped := booked.spawns run (List.mem_of_getElem? found)
  rw [sparing_spawn found]
  cases stage : run.stage with
  | done => exact absurd stage live
  | checking =>
    simp only [Spawn.Shaped, stage] at shaped
    simp only [advanceSpawn, stage]
    split
    · exact ⟨_, .onward found rfl rfl rfl rfl rfl trivial
        (iff_of_true (leak_free shaped.1 shaped.2) trivial)⟩
    · split
      · exact ⟨_, .onward found rfl rfl rfl rfl rfl shaped
          (iff_of_true (leak_underWay nofun) trivial)⟩
      · exact ⟨_, .onward found rfl rfl rfl rfl rfl shaped
          (iff_of_true (leak_underWay nofun) trivial)⟩
  | marking =>
    simp only [Spawn.Shaped, stage] at shaped
    simp only [advanceSpawn, stage]
    split
    · exact ⟨_, .onward (m := w.manager) found rfl rfl rfl rfl rfl trivial
        (iff_of_true (leak_free shaped.1 shaped.2) trivial)⟩
    next fresh =>
      refine ⟨_, ⟨⟨holds_setSpawn (w.setManager (w.manager.mark run.sessionId)) found _, ?_, ?_⟩,
        rfl, rfl, ⟨shaped.1, rfl⟩, iff_of_true (leak_underWay nofun) trivial⟩⟩
      · rfl
      · intro sid
        change (if sid ∈ insert run.sessionId w.manager.pendingAcquire then 1 else 0) + _ = _
        simp only [marker, Hold.mark, Spawn.hold, shaped.2, Finset.mem_insert]
        by_cases same : sid = run.sessionId
        · subst same
          simp [fresh]
        · simp [same, Ne.symm same]
  | retrying =>
    simp only [Spawn.Shaped, stage] at shaped
    simp only [advanceSpawn, stage]
    cases retried : input.retried with
    | true =>
      exact ⟨_, .onward (m := w.manager) found rfl rfl rfl rfl rfl (fun _ => shaped.1)
        (iff_of_true (leak_underWay nofun) rfl)⟩
    | false =>
      refine ⟨_, .onward (m := w.manager) found rfl rfl rfl rfl rfl trivial ?_⟩
      rw [leak_done rfl]
      simp [shaped.2]
  | takingOver =>
    simp only [Spawn.Shaped, stage] at shaped
    simp only [advanceSpawn, stage]
    split
    · exact ⟨_, .onward (m := w.manager) found rfl rfl rfl rfl rfl trivial
        (iff_of_true (leak_free shaped.1 shaped.2) trivial)⟩
    · simp only [Manager.takeOver]
      split
      · refine ⟨_, ⟨⟨holds_setSpawn (w.setManager _) found _, ?_, fun sid => ?_⟩, rfl, rfl, ?_,
          iff_of_true (leak_underWay ?_) trivial⟩⟩
        · change w.manager.reserved + 1 + (run.reserve.toNat : ℤ) = w.manager.reserved + (1 : ℕ)
          rw [shaped.1]
          simp
        · simp only [Hold.mark, Spawn.hold]
          rfl
        · cases leased <;> exact fun marked => absurd (shaped.2.symm.trans marked) nofun
        · cases leased <;> nofun
      · refine ⟨_, .onward (m := w.manager) found rfl rfl shaped.1.symm rfl rfl ?_
          (iff_of_true (leak_underWay ?_) trivial)⟩
        · cases leased <;> exact fun _ => rfl
        · cases leased <;> nofun
  | acquiring =>
    simp only [Spawn.Shaped, stage] at shaped
    simp only [advanceSpawn, stage]
    cases input.lease with
    | granted tokens =>
      exact ⟨_, .onward (m := w.manager) found rfl rfl rfl rfl rfl shaped
        (iff_of_true (leak_underWay nofun) fun _ => ⟨nofun, nofun⟩)⟩
    | unavailable =>
      exact ⟨_, .onward (m := w.manager) found rfl rfl rfl rfl rfl shaped
        (iff_of_true (leak_underWay nofun) fun _ => ⟨nofun, nofun⟩)⟩
    | refused handshakes =>
      dsimp only
      split
      next caught =>
        refine ⟨_, .onward (m := w.manager) found rfl rfl rfl rfl rfl shaped
          (iff_of_true (leak_underWay nofun) fun reserved => ⟨nofun, fun failed => ?_⟩)⟩
        rcases caught with marked | handshook
        · exact absurd (shaped marked) (by rw [reserved]; nofun)
        · cases failed
          cases handshook
      next uncaught =>
        obtain ⟨unmarked, failed⟩ := not_or.mp uncaught
        refine ⟨_, .onward (m := w.manager) found rfl rfl rfl rfl rfl trivial ?_⟩
        rw [leak_done rfl]
        simp only [Bool.not_eq_true] at unmarked failed
        simp [unmarked, failed]
    | raised =>
      dsimp only
      split
      next marked =>
        refine ⟨_, .onward (m := w.manager) found rfl rfl rfl rfl rfl shaped
          (iff_of_true (leak_underWay nofun) fun reserved => ?_)⟩
        exact absurd (shaped marked) (by rw [reserved]; nofun)
      next unmarked =>
        refine ⟨_, .onward (m := w.manager) found rfl rfl rfl rfl rfl trivial ?_⟩
        rw [leak_done rfl]
        simp only [Bool.not_eq_true] at unmarked
        simp [unmarked]
  | entering =>
    simp only [Spawn.Shaped, stage] at shaped
    simp only [advanceSpawn, stage]
    cases refuses : (w.manager.checkQuiescent (faultOf input.unread)).1 with
    | true =>
      simp only [if_true]
      cases marked : run.marked with
      | true =>
        exact ⟨_, .onward found rfl rfl rfl marked.symm rfl (shaped marked)
          (iff_of_true (leak_underWay nofun) fun reserved =>
            absurd (shaped marked) (by rw [reserved]; nofun))⟩
      | false =>
        -- `restart` has caught what `_spawn` raised, and its slot stays taken
        refine ⟨_, .onward found rfl rfl rfl marked.symm rfl trivial ?_⟩
        rw [leak_done rfl]
        simp
    | false =>
      simp only [Bool.false_eq_true, if_false]
      split
      · exact ⟨_, .onward found rfl rfl rfl rfl rfl shaped
          (iff_of_true (leak_underWay nofun) (by simp))⟩
      · exact ⟨_, .onward found rfl rfl rfl rfl rfl shaped
          (iff_of_true (leak_underWay nofun) (by simp))⟩
  | installing =>
    simp only [Spawn.Shaped, stage] at shaped
    simp only [advanceSpawn, stage]
    have books := install_books w.manager run.sessionId run.reserve run.tokens input.room
      (faultOf input.unread)
    rcases installed : w.manager.install run.sessionId run.reserve run.tokens input.room
      (faultOf input.unread) with ⟨admits, m⟩
    rw [installed] at books
    obtain ⟨pending, reserved⟩ := books
    cases admits with
    | false =>
      exact ⟨_, .onward found reserved pending rfl rfl rfl shaped
        (iff_of_true (leak_underWay nofun) trivial)⟩
    | true =>
      refine ⟨_, ⟨⟨holds_setSpawn _ found _, ?_, fun sid => ?_⟩, rfl, rfl, rfl,
        iff_of_true (leak_underWay nofun) trivial⟩⟩
      · change m.reserved + run.reserve.toNat = w.manager.reserved + (0 : ℕ)
        rw [show m.reserved = _ from reserved]
        cases run.reserve <;> simp
      · change (if sid ∈ m.pendingAcquire then 1 else 0) + _ = _
        rw [show m.pendingAcquire = _ from pending]
        rfl
  | givingBack =>
    simp only [Spawn.Shaped, stage] at shaped
    simp only [advanceSpawn, stage]
    refine ⟨_, ⟨⟨holds_setSpawn (w.setManager _) found _, ?_, fun sid => rfl⟩, rfl, rfl, rfl,
      iff_of_true (leak_underWay nofun) trivial⟩⟩
    change (w.manager.releaseReservation run.reserve).reserved + run.reserve.toNat =
      w.manager.reserved + (0 : ℕ)
    simp only [Manager.releaseReservation]
    cases run.reserve <;> simp
  | returning =>
    simp only [Spawn.Shaped, stage] at shaped
    simp only [advanceSpawn, stage]
    have up : run.marked = true → run.sessionId ∈ w.manager.pendingAcquire :=
      booked.marked (h := run.hold) (List.mem_append_left _
        (List.mem_map_of_mem (List.mem_of_getElem? found)))
    refine ⟨_, ⟨⟨holds_setSpawn (w.setManager _) found _, rfl, fun sid => ?_⟩, rfl, rfl, trivial,
      iff_of_true (leak_free shaped rfl) trivial⟩⟩
    exact marker_unmark w.manager run.sessionId run.marked up sid
  | creating =>
    simp only [Spawn.Shaped, stage] at shaped
    simp only [advanceSpawn, stage]
    split
    · exact ⟨_, .onward found rfl rfl rfl rfl rfl shaped
        (iff_of_true (leak_underWay nofun) trivial)⟩
    · exact ⟨_, .onward (m := w.manager) found rfl rfl rfl rfl rfl shaped
        (iff_of_true (leak_underWay nofun) trivial)⟩
  | launching =>
    simp only [Spawn.Shaped, stage] at shaped
    simp only [advanceSpawn, stage]
    split
    · exact ⟨_, ⟨⟨holds_setSpawn _ found _, rfl, fun sid => rfl⟩, rfl, rfl, shaped,
        iff_of_true (leak_underWay nofun) trivial⟩⟩
    · exact ⟨_, .onward (m := w.manager) found rfl rfl rfl rfl rfl shaped
        (iff_of_true (leak_underWay nofun) trivial)⟩
  | collecting =>
    simp only [Spawn.Shaped, stage] at shaped
    simp only [advanceSpawn, stage]
    split
    · exact ⟨_, .onward (m := w.manager) found rfl rfl rfl rfl rfl shaped
        (iff_of_true (leak_underWay nofun) trivial)⟩
    · exact ⟨_, .onward found rfl rfl rfl rfl rfl shaped
        (iff_of_true (leak_underWay nofun) trivial)⟩
  | withdrawing =>
    simp only [Spawn.Shaped, stage] at shaped
    simp only [advanceSpawn, stage]
    exact ⟨_, .onward found rfl rfl rfl rfl rfl shaped
      (iff_of_true (leak_underWay nofun) trivial)⟩

/-! ### Turns -/

/-- What a section of `send_turn` does to the books, and when it leaks. -/
structure ResumeTurn (w : Managed) (c : ℕ) (call : Resume) (spares : Prop) (w' : Managed)
    (call' : Resume) : Prop where
  turned : Turned w w' call.hold call'.hold
  spawns : w'.spawns = w.spawns
  resumes : w'.resumes = w.resumes.set c call'
  shaped : call'.Shaped
  leaks : call'.hold.leak = 0 ↔ spares

theorem ResumeTurn.onward {m : Manager} {spares : Prop} (found : w.resumes[c]? = some call)
    (reserved : m.reserved = w.manager.reserved)
    (pending : m.pendingAcquire = w.manager.pendingAcquire)
    (slot : call'.reserve = call.reserve) (mark : call'.marked = call.marked)
    (named : call'.sessionId = call.sessionId) (shaped : call'.Shaped)
    (leaks : call'.hold.leak = 0 ↔ spares) :
    ResumeTurn w c call spares ((w.setManager m).setResume c call') call' := by
  refine ⟨⟨holds_setResume (w.setManager m) found call', ?_, fun sid => ?_⟩, rfl, rfl, shaped,
    leaks⟩
  · change m.reserved + _ = _
    rw [reserved]
    simp only [Hold.slot, Resume.hold, slot]
  · change (if sid ∈ m.pendingAcquire then 1 else 0) + _ = _
    rw [pending]
    simp only [marker, Hold.mark, Resume.hold, mark, named]
    rfl

theorem Resume.leak_underWay {call : Resume} (live : call.stage ≠ .done) :
    call.hold.leak = 0 := by
  simp [Hold.leak, Resume.hold, live]

theorem Resume.leak_free {call : Resume} (unreserved : call.reserve = false)
    (unmarked : call.marked = false) : call.hold.leak = 0 := by
  simp [Hold.leak, Resume.hold, unreserved, unmarked]

theorem Resume.leak_marked {call : Resume} (ended : call.stage = .done)
    (marked : call.marked = true) : call.hold.leak ≠ 0 := by
  simp [Hold.leak, Resume.hold, ended, marked]

theorem sparing_resume (found : w.resumes[c]? = some call) (input : ResumeInput) :
    w.Sparing (.resume c input) ↔
      match call.stage with
      | .retrying => input.retried = true
      | .acquiring => input.lease ≠ .raised
      | _ => True := by
  rw [Sparing, found]
  simp only [Option.mem_def, Option.some.injEq, forall_eq']

theorem resumeTurn_advanceResume (booked : Booked w) (found : w.resumes[c]? = some call)
    (live : call.stage ≠ .done) (input : ResumeInput) :
    ∃ call', ResumeTurn w c call (w.Sparing (.resume c input)) (w.advanceResume c call input)
      call' := by
  have shaped : call.Shaped := booked.resumes call (List.mem_of_getElem? found)
  have up : call.marked = true → call.sessionId ∈ w.manager.pendingAcquire :=
    booked.marked (h := call.hold) (List.mem_append_right _
      (List.mem_map_of_mem (List.mem_of_getElem? found)))
  rw [sparing_resume found]
  cases stage : call.stage with
  | done => exact absurd stage live
  | checking =>
    simp only [Resume.Shaped, stage] at shaped
    simp only [advanceResume, stage]
    cases (w.manager.checkQuiescent (faultOf input.unread)).1 with
    | true =>
      exact ⟨_, .onward found rfl rfl rfl rfl rfl trivial
        (iff_of_true (Resume.leak_free shaped.1 shaped.2) trivial)⟩
    | false =>
      exact ⟨_, .onward found rfl rfl rfl rfl rfl shaped
        (iff_of_true (Resume.leak_underWay nofun) trivial)⟩
  | reserving =>
    simp only [Resume.Shaped, stage] at shaped
    simp only [advanceResume, stage]
    split
    · exact ⟨_, .onward (m := w.manager) found rfl rfl rfl rfl rfl trivial
        (iff_of_true (Resume.leak_free shaped.1 shaped.2) trivial)⟩
    · refine ⟨_, ⟨⟨holds_setResume (w.setManager _) found _, ?_, fun sid => rfl⟩, rfl, rfl, trivial,
        iff_of_true (Resume.leak_underWay nofun) trivial⟩⟩
      change w.manager.reserved + 1 + (call.reserve.toNat : ℤ) = w.manager.reserved + (1 : ℕ)
      rw [shaped.1]
      simp
  | marking =>
    simp only [Resume.Shaped, stage] at shaped
    simp only [advanceResume, stage]
    split
    · exact ⟨_, .onward (m := w.manager) found rfl rfl rfl rfl rfl trivial
        (iff_of_true (Resume.leak_free shaped.1 shaped.2) trivial)⟩
    next known =>
      have fresh : call.sessionId ∉ w.manager.pendingAcquire := (not_or.mp known).2
      split
      · exact ⟨_, .onward found rfl rfl rfl rfl rfl trivial
          (iff_of_true (Resume.leak_free shaped.1 shaped.2) trivial)⟩
      · refine ⟨_, ⟨⟨holds_setResume (w.setManager (w.manager.mark call.sessionId)) found _, rfl,
          fun sid => ?_⟩, rfl, rfl, ⟨shaped.1, rfl⟩,
          iff_of_true (Resume.leak_underWay nofun) trivial⟩⟩
        change (if sid ∈ insert call.sessionId w.manager.pendingAcquire then 1 else 0) + _ = _
        simp only [marker, Hold.mark, Resume.hold, shaped.2, Finset.mem_insert]
        by_cases same : sid = call.sessionId
        · subst same
          simp [fresh]
        · simp [same, Ne.symm same]
  | retrying =>
    simp only [Resume.Shaped, stage] at shaped
    simp only [advanceResume, stage]
    cases retried : input.retried with
    | true =>
      exact ⟨_, .onward (m := w.manager) found rfl rfl rfl rfl rfl shaped
        (iff_of_true (Resume.leak_underWay nofun) rfl)⟩
    | false =>
      exact ⟨_, .onward (m := w.manager) found rfl rfl rfl rfl rfl trivial
        (iff_of_false (Resume.leak_marked rfl shaped.2) nofun)⟩
  | acquiring =>
    simp only [Resume.Shaped, stage] at shaped
    simp only [advanceResume, stage]
    cases input.lease with
    | granted tokens =>
      exact ⟨_, .onward (m := w.manager) found rfl rfl rfl rfl rfl shaped
        (iff_of_true (Resume.leak_underWay nofun) nofun)⟩
    | unavailable | refused handshakes =>
      exact ⟨_, .onward (m := w.manager) found rfl rfl rfl rfl rfl trivial
        (iff_of_true (Resume.leak_underWay nofun) nofun)⟩
    | raised =>
      exact ⟨_, .onward (m := w.manager) found rfl rfl rfl rfl rfl trivial
        (iff_of_false (Resume.leak_marked rfl shaped.2) fun other => other rfl)⟩
  | revalidating =>
    simp only [Resume.Shaped, stage] at shaped
    simp only [advanceResume, stage]
    split
    · refine ⟨_, ⟨⟨holds_setResume (w.setManager _) found _, rfl, fun sid => ?_⟩, rfl, rfl, trivial,
        iff_of_true (Resume.leak_free shaped.1 rfl) trivial⟩⟩
      exact marker_unmark w.manager call.sessionId call.marked up sid
    · exact ⟨_, .onward found rfl rfl rfl rfl rfl trivial
        (iff_of_true (Resume.leak_underWay nofun) trivial)⟩
  | typing =>
    simp only [advanceResume, stage]
    split
    · exact ⟨_, .onward found rfl rfl rfl rfl rfl trivial
        (iff_of_true (Resume.leak_underWay nofun) trivial)⟩
    · exact ⟨_, .onward (m := w.manager) found rfl rfl rfl rfl rfl trivial
        (iff_of_true (Resume.leak_underWay nofun) trivial)⟩
  | returning =>
    simp only [advanceResume, stage]
    refine ⟨_, ⟨⟨holds_setResume (w.setManager _) found _, ?_, fun sid => ?_⟩, rfl, rfl, trivial,
      iff_of_true (Resume.leak_free rfl rfl) trivial⟩⟩
    · change (w.manager.releaseReservation call.reserve).reserved + call.reserve.toNat =
        w.manager.reserved + (0 : ℕ)
      simp only [Manager.releaseReservation]
      cases call.reserve <;> simp
    · exact marker_unmark (w.manager.releaseReservation call.reserve) call.sessionId call.marked up
        sid

/-! ### Runs -/

/-- A step that leaves the calls, the slots and the markers alone. -/
theorem Booked.idle (booked : Booked w) (spawns : w'.spawns = w.spawns)
    (resumes : w'.resumes = w.resumes) (reserved : w'.manager.reserved = w.manager.reserved)
    (pending : w'.manager.pendingAcquire = w.manager.pendingAcquire) :
    Booked w' ∧ w'.leaked = w.leaked := by
  have holds : w'.holds = w.holds := by rw [holds, holds, spawns, resumes]
  have markers : ∀ sid, w'.marker sid = w.marker sid := fun sid => by rw [marker, marker, pending]
  refine ⟨⟨?_, fun sid => ?_, ?_, ?_⟩, ?_⟩
  · rw [reserved, holds]
    exact booked.slots
  · rw [markers, holds]
    exact booked.marks sid
  · rw [spawns]
    exact booked.spawns
  · rw [resumes]
    exact booked.resumes
  · rw [leaked, leaked, holds]

/-- The slots and the markers of two managers are the same. -/
def SameBooks (m m' : Manager) : Prop :=
  m'.reserved = m.reserved ∧ m'.pendingAcquire = m.pendingAcquire

theorem sameBooks_putReceipt {m m' : Manager} {sid : String} {result : TerminalResult}
    {clock : Reading} {fault : Option Raised}
    (done : m.putReceipt sid result clock fault = .ok m') : SameBooks m m' := by
  rw [Manager.putReceipt] at done
  split at done
  · cases done
    exact ⟨rfl, rfl⟩
  · split at done
    · cases done
      exact ⟨rfl, rfl⟩
    · cases done

theorem sameBooks_freeSlot (m : Manager) (sid : String) (ending : SessionEnd)
    (endedAt clock : Reading) (unread unput : Option Raised) :
    SameBooks m (m.freeSlot sid ending endedAt clock unread unput).2 := by
  have dropped : SameBooks m
      (if (m.activeLeaseTokens sid).isSome then m.dropTokens sid else m) := by
    split <;> exact ⟨rfl, rfl⟩
  rw [Manager.freeSlot]
  generalize (if (m.activeLeaseTokens sid).isSome then m.dropTokens sid else m) = m₁ at dropped
  split
  · cases put : m₁.republish sid ending endedAt clock unread unput with
    | error raised => exact dropped
    | ok m₂ =>
      have same : SameBooks m₁ m₂ := by
        rw [Manager.republish] at put
        split at put
        · cases put
          exact ⟨rfl, rfl⟩
        · split at put
          · exact sameBooks_putReceipt put
          · cases put
      exact ⟨same.1.trans dropped.1, same.2.trans dropped.2⟩
  · exact dropped

/-- A terminal path holds no slot and no marker. -/
theorem advanceEnding_books (w : Managed) (c : ℕ) (path : TerminalPath) (input : TerminalInput) :
    (w.advanceEnding c path input).spawns = w.spawns ∧
      (w.advanceEnding c path input).resumes = w.resumes ∧
      SameBooks w.manager (w.advanceEnding c path input).manager := by
  rw [advanceEnding]
  split
  · split <;> exact ⟨rfl, rfl, rfl, rfl⟩
  · dsimp only
    split
    next m put => exact ⟨rfl, rfl, sameBooks_putReceipt put⟩
    · exact ⟨rfl, rfl, rfl, rfl⟩
  · exact ⟨rfl, rfl, rfl, rfl⟩
  · split <;> exact ⟨rfl, rfl, rfl, rfl⟩
  · dsimp only
    split
    · exact ⟨rfl, rfl, rfl, rfl⟩
    · exact ⟨rfl, rfl, sameBooks_freeSlot ..⟩
  · exact ⟨rfl, rfl, rfl, rfl⟩

theorem sameBooks_certifyEpoch (m : Manager) (expected certificate : String)
    (unread unwritten : Option Raised) :
    SameBooks m (m.certifyEpoch expected certificate unread unwritten).2 := by
  rw [Manager.certifyEpoch]
  repeat' split
  all_goals exact ⟨rfl, rfl⟩

/-- A new call holds nothing yet. -/
theorem Booked.joined (booked : Booked w) {h : Hold} (nothing : h.reserve = false ∧ h.marked = false)
    (holds : ∀ f : Hold → ℕ, (w'.holds.map f).sum = (w.holds.map f).sum + f h)
    (manager : w'.manager = w.manager) (spawns : ∀ run ∈ w'.spawns, run.Shaped)
    (resumes : ∀ call ∈ w'.resumes, call.Shaped) : Booked w' ∧ w'.leaked = w.leaked := by
  have slot : h.slot = 0 := by rw [Hold.slot, nothing.1]; rfl
  have mark : ∀ sid, h.mark sid = 0 := fun sid => by simp [Hold.mark, nothing.2]
  have leak : h.leak = 0 := by simp [Hold.leak, nothing]
  refine ⟨⟨?_, fun sid => ?_, spawns, resumes⟩, ?_⟩
  · rw [manager, holds, slot]
    exact booked.slots
  · rw [marker, manager, holds, mark]
    exact booked.marks sid
  · rw [leaked, holds, leak]
    rfl

theorem Booked.spawned (booked : Booked w) {run : Spawn}
    (nothing : run.reserve = false ∧ run.marked = false) (shaped : run.Shaped) :
    Booked { w with spawns := w.spawns ++ [run] } ∧
      leaked { w with spawns := w.spawns ++ [run] } = w.leaked := by
  refine booked.joined (h := run.hold) nothing (fun f => ?_) rfl ?_ booked.resumes
  · simp only [holds, List.map_append, List.map_cons, List.map_nil, List.sum_append,
      List.sum_singleton]
    omega
  · intro other member
    rcases List.mem_append.mp member with old | new
    · exact booked.spawns other old
    · exact List.mem_singleton.mp new ▸ shaped

theorem Booked.resumed (booked : Booked w) {call : Resume}
    (nothing : call.reserve = false ∧ call.marked = false) (shaped : call.Shaped) :
    Booked { w with resumes := w.resumes ++ [call] } ∧
      leaked { w with resumes := w.resumes ++ [call] } = w.leaked := by
  refine booked.joined (h := call.hold) nothing (fun f => ?_) rfl booked.spawns ?_
  · simp only [holds, List.map_append, List.map_cons, List.map_nil, List.sum_append,
      List.sum_singleton]
    omega
  · intro other member
    rcases List.mem_append.mp member with old | new
    · exact booked.resumes other old
    · exact List.mem_singleton.mp new ▸ shaped

/-- A call that goes on leaks nothing before its last section. -/
theorem Turned.leaked_iff {h h' : Hold} {spares : Prop} (turned : Turned w w' h h')
    (live : h.leak = 0) (leaks : h'.leak = 0 ↔ spares) :
    w'.leaked = 0 ↔ w.leaked = 0 ∧ spares := by
  have moved := turned.holds Hold.leak
  rw [← leaks, leaked, leaked]
  omega

theorem booked_spawn (booked : Booked w) (c : ℕ) (input : SpawnInput) :
    Booked ((machine leased).step w (.spawn c input)).1 ∧
      (((machine leased).step w (.spawn c input)).1.leaked = 0 ↔
        w.leaked = 0 ∧ w.Sparing (.spawn c input)) := by
  simp only [machine]
  cases found : w.spawns[c]? with
  | none => exact ⟨booked, (and_iff_left (by simp [Sparing, found])).symm⟩
  | some run =>
    by_cases finished : run.stage = .done
    · rw [sparing_spawn found, finished]
      simp only [advanceSpawn, finished, and_true]
      exact booked
    · obtain ⟨run', turn⟩ := spawnTurn_advanceSpawn leased booked found finished input
      have laws := booked.turned_laws turn.turned
      refine ⟨⟨laws.1, laws.2, fun other member => ?_, ?_⟩,
        turn.turned.leaked_iff (leak_underWay finished) turn.leaks⟩
      · rw [turn.spawns] at member
        rcases List.mem_or_eq_of_mem_set member with old | rfl
        · exact booked.spawns other old
        · exact turn.shaped
      · rw [turn.resumes]
        exact booked.resumes

theorem booked_resume (booked : Booked w) (c : ℕ) (input : ResumeInput) :
    Booked ((machine leased).step w (.resume c input)).1 ∧
      (((machine leased).step w (.resume c input)).1.leaked = 0 ↔
        w.leaked = 0 ∧ w.Sparing (.resume c input)) := by
  simp only [machine]
  cases found : w.resumes[c]? with
  | none => exact ⟨booked, (and_iff_left (by simp [Sparing, found])).symm⟩
  | some call =>
    by_cases finished : call.stage = .done
    · rw [sparing_resume found, finished]
      simp only [advanceResume, finished, and_true]
      exact booked
    · obtain ⟨call', turn⟩ := resumeTurn_advanceResume booked found finished input
      have laws := booked.turned_laws turn.turned
      refine ⟨⟨laws.1, laws.2, ?_, fun other member => ?_⟩,
        turn.turned.leaked_iff (Resume.leak_underWay finished) turn.leaks⟩
      · rw [turn.spawns]
        exact booked.spawns
      · rw [turn.resumes] at member
        rcases List.mem_or_eq_of_mem_set member with old | rfl
        · exact booked.resumes other old
        · exact turn.shaped

theorem booked_step (booked : Booked w) (step : ManagedStep) :
    Booked ((machine leased).step w step).1 ∧
      (((machine leased).step w step).1.leaked = 0 ↔ w.leaked = 0 ∧ w.Sparing step) := by
  have quiet : ∀ {w'}, Booked w' ∧ w'.leaked = w.leaked → w.Sparing step →
      Booked w' ∧ (w'.leaked = 0 ↔ w.leaked = 0 ∧ w.Sparing step) := by
    rintro w' ⟨kept, same⟩ spares
    exact ⟨kept, by rw [same]; exact (and_iff_left spares).symm⟩
  cases step with
  | start sid =>
    refine quiet (booked.spawned ⟨rfl, rfl⟩ ?_) trivial
    cases leased with
    | true => exact ⟨rfl, rfl⟩
    | false => exact fun _ => rfl
  | restart sid newId => exact quiet (booked.spawned ⟨rfl, rfl⟩ ⟨rfl, rfl⟩) trivial
  | sendTurn sid =>
    refine quiet (booked.resumed ⟨rfl, rfl⟩ ?_) trivial
    cases leased <;> exact ⟨rfl, rfl⟩
  | spawn c input => exact booked_spawn leased booked c input
  | resume c input => exact booked_resume leased booked c input
  | ending c input =>
    simp only [machine]
    split
    next path found =>
      obtain ⟨spawns, resumes, reserved, pending⟩ := w.advanceEnding_books c path input
      exact quiet (booked.idle spawns resumes reserved pending) trivial
    · exact quiet ⟨booked, rfl⟩ trivial
  | monitorEnds sid =>
    simp only [machine]
    split <;> exact quiet (booked.idle rfl rfl rfl rfl) trivial
  | reap sid =>
    simp only [machine]
    split <;> exact quiet (booked.idle rfl rfl rfl rfl) trivial
  | idle sid => exact quiet (booked.idle rfl rfl rfl rfl) trivial
  | confirm seq => exact quiet (booked.idle rfl rfl rfl rfl) trivial
  | beginQuiescence failure =>
    simp only [machine, Manager.beginQuiescence]
    split
    next begun =>
      split at begun <;> cases begun
      exact quiet (booked.idle rfl rfl rfl rfl) trivial
    next begun =>
      split at begun <;> cases begun
      exact quiet (booked.idle rfl rfl rfl rfl) trivial
  | quiescenceStatus failures => exact quiet (booked.idle rfl rfl rfl rfl) trivial
  | certifyEpoch expected certificate unread unwritten =>
    have same := sameBooks_certifyEpoch w.manager expected certificate (faultOf unread)
      (faultOf unwritten)
    simp only [machine]
    rcases certified : w.manager.certifyEpoch expected certificate (faultOf unread)
      (faultOf unwritten) with ⟨outcome, m⟩
    rw [certified] at same
    cases outcome with
    | ok finalHw => exact quiet (booked.idle rfl rfl same.1 same.2) trivial
    | error raised => exact quiet (booked.idle rfl rfl same.1 same.2) trivial

theorem booked_opened (genEpoch : String) (db : Db) : Booked (opened genEpoch db) :=
  ⟨rfl, fun sid => by simp [opened, marker, holds], nofun, nofun⟩

theorem booked_after (booked : Booked w) (steps : List ManagedStep) :
    Booked ((machine leased).after w steps) ∧
      (((machine leased).after w steps).leaked = 0 ↔
        w.leaked = 0 ∧ (machine leased).Along Sparing w steps) := by
  induction steps generalizing w with
  | nil => exact ⟨booked, (and_iff_left trivial).symm⟩
  | cons step rest ih =>
    obtain ⟨kept, first⟩ := booked_step leased booked step
    obtain ⟨later, then'⟩ := ih kept
    refine ⟨later, then'.trans ?_⟩
    rw [first, and_assoc]
    exact Iff.rfl

/-- The books are balanced after a run exactly when every step of it gave back what its call held.
A slot or a marker that is lost once is lost for good. -/
theorem balanced_iff (genEpoch : String) (db : Db) (steps : List ManagedStep) :
    Balanced ((machine leased).after (opened genEpoch db) steps) ↔
      (machine leased).Along Sparing (opened genEpoch db) steps := by
  obtain ⟨booked, leaks⟩ := booked_after leased (booked_opened genEpoch db) steps
  rw [booked.books_iff, leaks]
  exact and_iff_right rfl

/-- A store in which an epoch serves. -/
def servingStore : Db :=
  Store.machine.after {}
    [.createGeneration sampleGeneration none .active none (.finite 0),
      .insertEpoch firstEpoch sampleGeneration none (.finite 0),
      .casEpochServing sampleGeneration firstEpoch none none]

/-- A session is on the table, and a restart has taken its slot over. -/
def restarting : List ManagedStep :=
  [.start "s1", .spawn 0 {}, .spawn 0 {}, .spawn 0 {},
    .spawn 0 { lease := .granted ⟨some "a", some "l"⟩ }, .spawn 0 {}, .spawn 0 {},
    .restart "s1" "s2", .spawn 1 {}, .spawn 1 {}]

/-- The answer to its acquire is not JSON. -/
def undecodable : List ManagedStep := restarting ++ [.spawn 1 { lease := .raised }]

/-- The restart is over, and its slot is reserved for good. -/
theorem undecodable_unbalanced :
    let w := (machine true).after (opened firstEpoch servingStore) undecodable
    ¬ Balanced w ∧ w.manager.reserved = 1 ∧ (w.spawns.map Spawn.stage).drop 1 = [.done] := by
  have reserved : ((machine true).after (opened firstEpoch servingStore)
      undecodable).manager.reserved = 1 := by decide +kernel
  have free : (((machine true).after (opened firstEpoch servingStore)
      undecodable).underWay.map Hold.slot).sum = 0 := by decide +kernel
  refine ⟨fun balanced => ?_, reserved, by decide +kernel⟩
  have counted := balanced.1
  omega

end Managed

end Nelix.Daemon
