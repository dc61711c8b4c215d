import Nelix.Daemon.EventRuns

/-!
# Evictions

The bound on the evictable events gives way to the owners' floors: a run ends each operation within
the bound or with every owner at its floor. A victim is the oldest evictable event of an owner above
its floor, so an owner's most recent events up to the floor outlast whatever others publish.
-/
namespace Nelix.Daemon

open Core

namespace EventQueue

variable {busy : List EventId} {q q' : EventQueue}

/-- No owner has more than its floor. -/
def Floored (q : EventQueue) : Prop := ∀ owner, (q.histOf owner).length ≤ q.ownerFloor

def Bounded (q : EventQueue) : Prop := q.evictableCount ≤ q.bound ∨ q.Floored

/-- Where there is no victim every owner is at its floor. -/
theorem Indexed.floored (indexed : Indexed busy q) (none : q.pickVictim = none) : q.Floored := by
  intro owner
  by_contra above
  have long : q.ownerFloor < (q.histOf owner).length := Nat.lt_of_not_le above
  obtain ⟨id, inside⟩ := List.exists_mem_of_length_pos (Nat.zero_lt_of_lt long)
  obtain ⟨old, e, member, rfl, closed, rfl⟩ := (indexed.listed owner id).mp inside
  have unpinned : e.seq ∉ q.pinned := by
    rw [indexed.pinned_iff member, closed]
    simp
  have refused := List.find?_eq_none.mp none e member
  exact refused (decide_eq_true ⟨unpinned, long, inside⟩)

theorem Indexed.bounded_evict (indexed : Indexed busy q) : q.evictIfNeeded.Bounded := by
  rcases evict_done q with within | none
  · exact .inl within
  · exact .inr (indexed.evict.floored none)

end EventQueue

/-- The victim is closed, and the oldest of an owner that is above its floor. -/
structure Eviction.Fair (o : Eviction) : Prop where
  closed : o.victim.isOpen = false
  above : o.queue.ownerFloor < (o.queue.histOf o.victim.owner).length
  oldest : (o.queue.histOf o.victim.owner).head? = some o.victim.seq
  lowest : ∀ id ∈ o.queue.histOf o.victim.owner, o.victim.seq ≤ id

namespace EventQueue

variable {busy : List EventId} {q q' : EventQueue}

theorem Indexed.fair {victim : Event} (indexed : Indexed busy q)
    (picked : q.pickVictim = some victim) : Eviction.Fair ⟨q, victim⟩ := by
  obtain ⟨member, -, inside⟩ := pickVictim_some picked
  obtain ⟨-, closed, -⟩ := (indexed.listed_iff member victim.owner).mp inside
  have chosen := List.find?_some picked
  simp only [decide_eq_true_eq] at chosen
  -- the scan is in ascending order, and an older event of the owner would have been picked
  have lowest : ∀ id ∈ q.histOf victim.owner, victim.seq ≤ id := by
    intro id listed
    by_contra less
    obtain ⟨old, e, inLog, rfl, closed', owned⟩ := (indexed.listed victim.owner id).mp listed
    obtain ⟨before, after, split, passed⟩ := List.find?_eq_some_iff_append.mp picked |>.2
    have order := indexed.ascending
    rw [split, List.map_append, List.map_cons] at order
    obtain ⟨-, tail, -⟩ := List.pairwise_append.mp order
    have early : e ∈ before := by
      rw [split] at inLog
      rcases List.mem_append.mp inLog with first | rest
      · exact first
      · rcases List.mem_cons.mp rest with rfl | later
        · exact absurd le_rfl less
        · have more := (List.pairwise_cons.mp tail).1 e.seq (List.mem_map_of_mem later)
          exact absurd more.le less
    have unpinned : e.seq ∉ q.pinned := by
      rw [indexed.pinned_iff inLog, closed']
      simp
    have refused := passed e early
    rw [← owned] at chosen listed
    simp only [unpinned, chosen.2.1, listed, not_false_eq_true, and_self, decide_true,
      Bool.not_true, Bool.false_eq_true] at refused
  refine ⟨closed, chosen.2.1, ?_, lowest⟩
  have sorted := indexed.sorted victim.owner
  cases hist : q.histOf victim.owner with
  | nil =>
    rw [hist] at inside
    cases inside
  | cons first rest =>
    rw [hist] at inside sorted lowest
    have least := lowest first List.mem_cons_self
    rcases List.mem_cons.mp inside with same | later
    · rw [List.head?_cons, same]
    · exact absurd ((List.pairwise_cons.mp sorted).1 _ later) (Nat.not_lt.mpr least)

theorem Indexed.evictions_fair (indexed : Indexed busy q) (rounds : ℕ) :
    ∀ o ∈ evictions rounds q, o.Fair := by
  induction rounds generalizing q with
  | zero => simp [evictions]
  | succ rounds ih =>
    simp only [evictions]
    split
    · simp
    · split
      next victim picked =>
        intro o member
        rcases List.mem_cons.mp member with rfl | later
        · exact indexed.fair picked
        · exact ih (indexed.drop picked) o later
      next => simp

/-- What leaves the log in the loop are its victims. -/
theorem evictions_account (rounds : ℕ) (e : Event) (member : e ∈ q.events)
    (gone : e ∉ (evictLoop rounds q).events) :
    ∃ o ∈ evictions rounds q, o.victim.seq = e.seq := by
  induction rounds generalizing q with
  | zero => exact absurd member gone
  | succ rounds ih =>
    simp only [evictLoop] at gone
    simp only [evictions]
    split at gone
    · exact absurd member gone
    next exceeded =>
      rw [if_neg exceeded]
      cases picked : q.pickVictim with
      | none =>
        simp only [picked] at gone
        exact absurd member gone
      | some victim =>
        simp only [picked] at gone
        by_cases same : e.seq = victim.seq
        · exact ⟨⟨q, victim⟩, List.mem_cons_self, same.symm⟩
        · have stays : e ∈ (q.drop victim).events :=
            List.mem_filter.mpr ⟨member, decide_eq_true same⟩
          obtain ⟨o, later, hit⟩ := ih stays gone
          exact ⟨o, List.mem_cons_of_mem _ later, hit⟩

/-! ### The floor -/

/-- The most recent evictable events of an owner, as many as the floor protects. -/
def recent (q : EventQueue) (owner : Option String) : List EventId :=
  (q.histOf owner).rtake q.ownerFloor

private theorem rtake_tail {hist : List EventId} {id : EventId} {floor : ℕ}
    (oldest : hist.head? = some id) (above : floor < hist.length) :
    (hist.erase id).rtake floor = hist.rtake floor := by
  cases hist with
  | nil => cases oldest
  | cons first rest =>
    cases oldest
    have enough : floor ≤ rest.length := Nat.lt_succ_iff.mp above
    rw [List.erase_cons_head, List.rtake, List.rtake, List.length_cons,
      Nat.succ_sub enough, List.drop_succ_cons]

theorem Indexed.recent_drop {victim : Event} (indexed : Indexed busy q)
    (picked : q.pickVictim = some victim) (owner : Option String) :
    (q.drop victim).recent owner = q.recent owner := by
  have fair := indexed.fair picked
  have hist : (q.drop victim).histOf owner = (q.dropHist victim).histOf owner := rfl
  rw [recent, recent, hist, histOf_dropHist]
  change List.rtake _ q.ownerFloor = _
  split
  next same =>
    subst same
    exact rtake_tail fair.oldest fair.above
  next => rfl

theorem Indexed.recent_evictLoop (indexed : Indexed busy q) (rounds : ℕ) (owner : Option String) :
    (EventQueue.evictLoop rounds q).recent owner = q.recent owner := by
  induction rounds generalizing q with
  | zero => rfl
  | succ rounds ih =>
    simp only [EventQueue.evictLoop]
    split
    · rfl
    · split
      next victim picked =>
        rw [ih (indexed.drop picked), indexed.recent_drop picked]
      next => rfl

/-! ### Frames of the histories -/

theorem histOf_unindexDecision (e : Event) (owner : Option String) :
    (q.unindexDecision e).histOf owner = q.histOf owner := by
  simp only [unindexDecision]
  split <;> rfl

theorem histOf_unpin (e : Event) (owner : Option String) :
    (q.unpin e).histOf owner =
      if owner = e.owner then insertSeq (q.histOf e.owner) e.seq else q.histOf owner := by
  simp only [unpin, histOf_indexEvictable, histOf_unindexDecision]
  rfl

/-- An event of another owner leaves the history as it is. -/
theorem histOf_resolveOne {id : EventId} {owner : Option String} (reason : ResolvedReason)
    (others : ∀ e ∈ q.events, e.seq = id → e.owner ≠ owner) :
    (resolveOne reason q id).histOf owner = q.histOf owner := by
  simp only [resolveOne]
  split
  next e found =>
    obtain ⟨member, same⟩ := find_some found
    rw [histOf_unpin, if_neg (others e member same).symm]
    rfl
  next => rfl

theorem histOf_resolveAll {ids : List EventId} {owner : Option String} (reason : ResolvedReason)
    (others : ∀ e ∈ q.events, e.seq ∈ ids → e.owner ≠ owner) :
    (ids.foldl (resolveOne reason) q).histOf owner = q.histOf owner := by
  induction ids generalizing q with
  | nil => rfl
  | cons id rest ih =>
    rw [List.foldl_cons, ih, histOf_resolveOne]
    · exact fun e member same => others e member (same ▸ List.mem_cons_self)
    · intro e member later
      rw [resolveOne_events] at member
      obtain ⟨x, old, rfl⟩ := mem_stamp.mp member
      have mine := others x old
      rw [stamped_seq (p := fun y : Event => y.seq = id)] at later
      split
      · exact mine (List.mem_cons_of_mem _ later)
      · exact mine (List.mem_cons_of_mem _ later)

theorem histOf_classify {id : EventId} {owner : Option String}
    (others : ∀ e ∈ q.events, e.seq = id → e.owner ≠ owner) :
    (q.classify id).histOf owner = q.histOf owner := by
  simp only [classify]
  split
  next e found =>
    obtain ⟨member, same⟩ := find_some found
    simp only [indexNew]
    split
    · simp only [indexDecision]
      split <;> rfl
    · rw [histOf_indexEvictable, if_neg (others e member same).symm]
  next => rfl

/-! ### Forgetting -/

private theorem forgetOne_shrinks (e : Event) :
    (q.forgetOne e).evictableCount ≤ q.evictableCount ∧
      ∀ owner, ((q.forgetOne e).histOf owner).length ≤ (q.histOf owner).length := by
  simp only [forgetOne]
  split
  · constructor
    · simp only [unindexDecision]
      split <;> exact le_rfl
    · intro owner
      rw [histOf_unindexDecision]
      exact le_rfl
  · split
    · refine ⟨Nat.sub_le _ _, fun owner => ?_⟩
      have hist : histOf { q.dropHist e with evictableCount := q.evictableCount - 1 } owner =
          (q.dropHist e).histOf owner := rfl
      rw [hist, histOf_dropHist]
      split
      next same => exact same ▸ List.length_erase_le
      next => exact le_rfl
    · exact ⟨le_rfl, fun _ => le_rfl⟩

private theorem forgetAll_shrinks (es : List Event) :
    (es.foldl forgetOne q).evictableCount ≤ q.evictableCount ∧
      ∀ owner, ((es.foldl forgetOne q).histOf owner).length ≤ (q.histOf owner).length := by
  induction es generalizing q with
  | nil => exact ⟨le_rfl, fun _ => le_rfl⟩
  | cons e rest ih =>
    obtain ⟨count, hist⟩ := forgetOne_shrinks (q := q) e
    obtain ⟨countAll, histAll⟩ := ih (q := q.forgetOne e)
    exact ⟨countAll.trans count, fun owner => (histAll owner).trans (hist owner)⟩

theorem bounded_forget (bounded : q.Bounded) (session : SessionId) :
    (q.forgetSession session).Bounded := by
  obtain ⟨count, hist⟩ := forgetAll_shrinks (q := q) (q.events.filter (·.sessionId = session))
  have frame := forgetAll_marked (q := q) (q.events.filter (·.sessionId = session))
  rcases bounded with within | floored
  · refine .inl ?_
    change _ ≤ ((q.events.filter (·.sessionId = session)).foldl forgetOne q).bound
    rw [frame.bound]
    exact count.trans within
  · refine .inr fun owner => ?_
    change _ ≤ ((q.events.filter (·.sessionId = session)).foldl forgetOne q).ownerFloor
    rw [frame.ownerFloor]
    exact (hist owner).trans (floored owner)

private theorem histOf_forgetOne {e : Event} {owner : Option String} (other : e.owner ≠ owner) :
    (q.forgetOne e).histOf owner = q.histOf owner := by
  simp only [forgetOne]
  split
  · rw [histOf_unindexDecision]
    rfl
  · split
    · have hist : histOf { q.dropHist e with evictableCount := q.evictableCount - 1 } owner =
          (q.dropHist e).histOf owner := rfl
      rw [hist, histOf_dropHist, if_neg other.symm]
    · rfl

theorem histOf_forgetAll {es : List Event} {owner : Option String}
    (others : ∀ e ∈ es, e.owner ≠ owner) :
    (es.foldl forgetOne q).histOf owner = q.histOf owner := by
  induction es generalizing q with
  | nil => rfl
  | cons e rest ih =>
    rw [List.foldl_cons, ih fun x later => others x (List.mem_cons_of_mem _ later),
      histOf_forgetOne (others e List.mem_cons_self)]

end EventQueue

/-! ### Runs -/

namespace EventRing

variable {r : EventRing}

/-- Neither the histories nor what bounds them change, and nothing leaves the log. -/
structure Idle (q q' : EventQueue) : Prop where
  ownerHist : q'.ownerHist = q.ownerHist
  count : q'.evictableCount = q.evictableCount
  bound : q'.bound = q.bound
  ownerFloor : q'.ownerFloor = q.ownerFloor
  stays : ∀ e ∈ q.events, ∃ x ∈ q'.events, x.seq = e.seq

theorem Idle.refl (q : EventQueue) : Idle q q :=
  ⟨rfl, rfl, rfl, rfl, fun e member => ⟨e, member, rfl⟩⟩

private theorem idle_mark (q : EventQueue) (id : EventId) (reason : ResolvedReason) :
    Idle q (q.mark id reason) := by
  refine ⟨rfl, rfl, rfl, rfl, fun e member => ?_⟩
  have listed : e.seq ∈ (q.mark id reason).events.map (·.seq) := by
    rw [EventQueue.mark_seqs]
    exact List.mem_map_of_mem member
  obtain ⟨x, inside, same⟩ := List.mem_map.mp listed
  exact ⟨x, inside, same⟩

/-- A move that comes to no eviction is idle, unless it forgets a session. -/
theorem idle_unstaged {move : QueueMove} (unstaged : r.staged move = none)
    (keeps : ∀ session, move ≠ .forget session) : Idle r.queue (r.next move).queue := by
  cases move with
  | ownerOf session resolved =>
    obtain ⟨cache, frame⟩ := EventQueue.ownerOf_frame (q := r.queue) session resolved
    simp only [next, frame]
    exact ⟨rfl, rfl, rfl, rfl, fun e member => ⟨e, member, rfl⟩⟩
  | reserve notice owner =>
    exact ⟨rfl, rfl, rfl, rfl, fun e member => ⟨e, List.mem_append_left _ member, rfl⟩⟩
  | supersede id =>
    simp only [next]
    split
    · exact idle_mark r.queue id .superseded
    · exact .refl _
  | settle =>
    simp only [staged] at unstaged
    split at unstaged
    · cases unstaged
    next empty =>
      simp only [next, empty]
      exact .refl _
  | resolve decision reason =>
    simp only [staged] at unstaged
    split at unstaged
    next empty =>
      simp only [next, EventQueue.resolveDecision, empty, if_true]
      exact .refl _
    next => cases unstaged
  | markAnswered id =>
    simp only [staged] at unstaged
    split at unstaged
    · cases unstaged
    next miss =>
      simp only [next, EventQueue.markAnswered]
      split
      · exact .refl _
      next e found =>
        have loose : id ∉ r.queue.pinned := fun pin => miss ⟨by simp [found], pin⟩
        rw [if_neg loose]
        exact idle_mark r.queue id .answered
  | forget session => exact absurd rfl (keeps session)

theorem Sound.bounded_next (sound : Sound r) (bounded : r.queue.Bounded) (move : QueueMove) :
    (r.next move).queue.Bounded := by
  cases reached : r.staged move with
  | some q =>
    rw [next_staged reached]
    exact (sound.staged reached).1.bounded_evict
  | none =>
    by_cases forgets : ∃ session, move = .forget session
    · obtain ⟨session, rfl⟩ := forgets
      simp only [EventRing.next]
      split
      · exact EventQueue.bounded_forget bounded session
      · exact bounded
    · have idle := idle_unstaged reached fun session same => forgets ⟨session, same⟩
      simp only [EventQueue.Bounded, EventQueue.Floored, EventQueue.histOf, idle.ownerHist,
        idle.count, idle.bound, idle.ownerFloor]
      exact bounded

theorem bounded_after {bound ownerFloor : ℕ} (moves : List QueueMove) :
    (machine.after (start bound ownerFloor) moves).queue.Bounded := by
  have both := machine.invariant_after (fun r => Sound r ∧ r.queue.Bounded)
    (fun _ move kept => ⟨kept.1.next move, kept.1.bounded_next kept.2 move⟩)
    ⟨sound_start bound ownerFloor, .inl (Nat.zero_le _)⟩ moves
  exact both.2

/-- The evictions of a step are fair. -/
theorem Sound.outputs_fair (sound : Sound r) (move : QueueMove) :
    ∀ o ∈ (machine.step r move).2, o.Fair := by
  simp only [machine]
  cases reached : r.staged move with
  | some q => exact (sound.staged reached).1.evictions_fair _
  | none => simp

/-- The move makes no event of the owner evictable, and forgets none. -/
def Spares (owner : Option String) (r : EventRing) : QueueMove → Prop
  | .settle => ∀ e ∈ r.queue.events, r.publishing.head? = some e.seq → e.owner ≠ owner
  | .resolve decision _ =>
    ∀ e ∈ r.queue.events, e.seq ∈ r.queue.idsOf decision → e.owner ≠ owner
  | .markAnswered id => ∀ e ∈ r.queue.events, e.seq = id → e.owner ≠ owner
  | .forget session => ∀ e ∈ r.queue.events, e.sessionId = session → e.owner ≠ owner
  | _ => True

/-- A spared owner's history enters the eviction as it was. -/
private theorem staged_spares {owner : Option String} {move : QueueMove} {q : EventQueue}
    (spares : Spares owner r move) (reached : r.staged move = some q) :
    q.recent owner = r.queue.recent owner := by
  cases move with
  | settle =>
    simp only [staged] at reached
    split at reached
    next id outer top =>
      cases reached
      have floor := (EventQueue.classify_marked (q := r.queue) id).ownerFloor
      have hist : (r.queue.classify id).histOf owner = r.queue.histOf owner :=
        EventQueue.histOf_classify fun e member same => spares e member (by rw [top, same]; rfl)
      rw [EventQueue.recent, EventQueue.recent, hist, floor]
    next => cases reached
  | resolve decision reason =>
    simp only [staged] at reached
    split at reached
    · cases reached
    · cases reached
      have floor := (EventQueue.resolveAll_marked (q := r.queue) reason
        (r.queue.idsOf decision)).ownerFloor
      rw [EventQueue.recent, EventQueue.recent, floor,
        EventQueue.histOf_resolveAll reason spares]
  | markAnswered id =>
    simp only [staged] at reached
    split at reached
    · cases reached
      have floor := (EventQueue.resolveOne_marked (q := r.queue) .answered id).ownerFloor
      rw [EventQueue.recent, EventQueue.recent, floor,
        EventQueue.histOf_resolveOne .answered spares]
    · cases reached
  | ownerOf => cases reached
  | reserve => cases reached
  | supersede => cases reached
  | forget => cases reached

/-- A move that spares an owner leaves it its recent events. -/
theorem Sound.recent_next {owner : Option String} {move : QueueMove} (sound : Sound r)
    (spares : Spares owner r move) : (r.next move).queue.recent owner = r.queue.recent owner := by
  cases reached : r.staged move with
  | some q =>
    rw [next_staged reached]
    have same := (sound.staged reached).1.recent_evictLoop q.events.length owner
    exact same.trans (staged_spares spares reached)
  | none =>
    by_cases forgets : ∃ session, move = .forget session
    · obtain ⟨session, rfl⟩ := forgets
      simp only [EventRing.next]
      split
      · have floor := (EventQueue.forgetAll_marked (q := r.queue)
          (r.queue.events.filter (·.sessionId = session))).ownerFloor
        have others : ∀ e ∈ r.queue.events.filter (·.sessionId = session), e.owner ≠ owner := by
          intro e gone
          obtain ⟨member, mine⟩ := List.mem_filter.mp gone
          exact spares e member (of_decide_eq_true mine)
        have hist := EventQueue.histOf_forgetAll (q := r.queue) others
        exact congrArg₂ List.rtake hist floor
      · rfl
    · have idle := idle_unstaged reached fun session same => forgets ⟨session, same⟩
      simp only [EventQueue.recent, EventQueue.histOf, idle.ownerHist, idle.ownerFloor]

theorem Sound.recent_along {owner : Option String} (sound : Sound r) {moves : List QueueMove}
    (spared : machine.Along (Spares owner) r moves) :
    (machine.after r moves).queue.recent owner = r.queue.recent owner := by
  induction moves generalizing r with
  | nil => rfl
  | cons move rest ih =>
    exact (ih (sound.next move) spared.2).trans (sound.recent_next spared.1)

/-- Up to its eviction a move keeps the numbers of the log. -/
private theorem staged_seqs {move : QueueMove} {q : EventQueue} (reached : r.staged move = some q) :
    q.events.map (·.seq) = r.queue.events.map (·.seq) := by
  cases move with
  | settle =>
    simp only [staged] at reached
    split at reached
    · cases reached
      rw [EventQueue.classify_events]
    · cases reached
  | resolve decision reason =>
    simp only [staged] at reached
    split at reached
    · cases reached
    · cases reached
      rw [EventQueue.resolveAll_events, stamp_seqs]
  | markAnswered id =>
    simp only [staged] at reached
    split at reached
    · cases reached
      rw [EventQueue.resolveOne_events, stamp_seqs]
    · cases reached
  | ownerOf => cases reached
  | reserve => cases reached
  | supersede => cases reached
  | forget => cases reached

/-- What a move other than a forget takes out of the log, it evicts. -/
theorem evicts_gone {move : QueueMove} (keeps : ∀ session, move ≠ .forget session)
    {e : Event} (member : e ∈ r.queue.events)
    (gone : ∀ x ∈ (r.next move).queue.events, x.seq ≠ e.seq) :
    ∃ o ∈ (machine.step r move).2, o.victim.seq = e.seq := by
  cases reached : r.staged move with
  | some q =>
    have listed : e.seq ∈ q.events.map (·.seq) :=
      staged_seqs reached ▸ List.mem_map_of_mem member
    obtain ⟨x, inside, same⟩ := List.mem_map.mp listed
    rw [next_staged reached] at gone
    obtain ⟨o, evicted, hit⟩ := EventQueue.evictions_account q.events.length x inside
      fun stays => gone x stays same
    refine ⟨o, ?_, hit.trans same⟩
    simp only [machine, reached]
    exact evicted
  | none =>
    obtain ⟨x, stays, same⟩ := (idle_unstaged reached keeps).stays e member
    exact absurd same (gone x stays)

/-- The bound and the floors hold at once, over every run. Each eviction takes the oldest evictable
event of an owner above its floor, never an unresolved respondable one; nothing else leaves the log
unless its session is forgotten; and while others publish and resolve, an owner keeps its most
recent events up to the floor. -/
theorem evictions_respect_floors (bound ownerFloor : ℕ) (moves : List QueueMove) :
    (machine.after (start bound ownerFloor) moves).queue.Bounded ∧
    (∀ o ∈ machine.outputs (start bound ownerFloor) moves, o.Fair) ∧
    (∀ move, (∀ session, move ≠ .forget session) →
      ∀ e ∈ (machine.after (start bound ownerFloor) moves).queue.events,
        (∀ x ∈ (machine.after (start bound ownerFloor) (moves ++ [move])).queue.events,
          x.seq ≠ e.seq) →
        ∃ o ∈ (machine.step (machine.after (start bound ownerFloor) moves) move).2,
          o.victim.seq = e.seq) ∧
    ∀ owner others,
      machine.Along (Spares owner) (machine.after (start bound ownerFloor) moves) others →
      (machine.after (start bound ownerFloor) (moves ++ others)).queue.recent owner =
        (machine.after (start bound ownerFloor) moves).queue.recent owner := by
  have sound : Sound (machine.after (start bound ownerFloor) moves) := .after moves
  refine ⟨bounded_after moves, ?_, ?_, ?_⟩
  · have each : machine.Along (fun _ _ => True) (start bound ownerFloor) moves :=
      machine.along_of_forall (p := fun _ => True) fun _ _ => trivial
    exact machine.outputs_along Sound Eviction.Fair (fun _ move kept _ => kept.next move)
      (fun _ move kept _ => kept.outputs_fair move) (sound_start bound ownerFloor) each
  · intro move keeps e member gone
    rw [machine.after_append] at gone
    exact evicts_gone keeps member gone
  · intro owner others spared
    rw [machine.after_append]
    exact sound.recent_along spared

end EventRing

end Nelix.Daemon
