import Mathlib.Data.List.DropRight
import Nelix.Core.Machine
import Nelix.Daemon.EventIndexes

/-!
# Runs of the event queue

Every operation holds the queue's lock, which the publishing thread's own hook may enter again. A
run is therefore a list of moves in which the publishes nest: `reserve` opens one, `settle` closes
the innermost, also when its hook raised, and what stands between the two is the hook's.
`leads_call` leads each nest of calls back to such a list. An owner is resolved outside the
lock, so a publish may carry any owner.

Beside the queue a run keeps the history: every event ever published, as it now stands, without
the events of forgotten sessions.
-/
namespace Nelix.Daemon

open Core

inductive QueueMove
  | ownerOf (session : SessionId) (resolved : Option String)
  | reserve (notice : Notice) (owner : Option String)
  -- the hook of a publish sets `resolved_reason` on its event
  | supersede (id : EventId)
  | settle
  | resolve (decision : DecisionId) (reason : ResolvedReason)
  | markAnswered (id : EventId)
  | forget (session : SessionId)

/-- An eviction, and the queue it was made in. -/
structure Eviction where
  queue : EventQueue
  victim : Event

/-- The queue, the publishes under way with the innermost first, and the history. -/
structure EventRing where
  queue : EventQueue
  publishing : List EventId := []
  history : List Event := []

/-- Set the resolution of the events that `p` selects. -/
def stamp (p : Event → Prop) [DecidablePred p] (reason : ResolvedReason) (log : List Event) :
    List Event :=
  log.map fun e => if p e then { e with resolvedReason := some reason } else e

namespace EventQueue

/-- `settle` before it evicts. -/
def classify (q : EventQueue) (id : EventId) : EventQueue :=
  match q.find id with
  | some e => q.indexNew e
  | none => q

/-- The evictions of `evictLoop`, in order. -/
def evictions : ℕ → EventQueue → List Eviction
  | 0, _ => []
  | rounds + 1, q =>
    if q.evictableCount ≤ q.bound then []
    else match q.pickVictim with
      | some victim => ⟨q, victim⟩ :: evictions rounds (q.drop victim)
      | none => []

end EventQueue

namespace EventRing

def start (bound ownerFloor : ℕ) : EventRing :=
  { queue := { bound := bound, ownerFloor := ownerFloor } }

/-- The queue as a move brings it to its eviction, where the move comes to one. -/
def staged (r : EventRing) : QueueMove → Option EventQueue
  | .settle =>
    match r.publishing with
    | id :: _ => some (r.queue.classify id)
    | [] => none
  | .resolve decision reason =>
    if r.queue.idsOf decision = [] then none
    else some ((r.queue.idsOf decision).foldl (EventQueue.resolveOne reason) r.queue)
  | .markAnswered id =>
    if (r.queue.find id).isSome ∧ id ∈ r.queue.pinned then
      some (EventQueue.resolveOne .answered r.queue id)
    else none
  | _ => none

/-- What a move does. A publish holds the lock until its hook is done, and hooks do not forget
sessions. -/
def next (r : EventRing) : QueueMove → EventRing
  | .ownerOf session resolved => { r with queue := (r.queue.ownerOf session resolved).1 }
  | .reserve notice owner =>
    { queue := (r.queue.reserve notice owner).1
      publishing := r.queue.nextSeq :: r.publishing
      history := r.history ++ [{ notice with seq := r.queue.nextSeq, owner := owner }] }
  | .supersede id =>
    if id ∈ r.publishing then
      { r with
        queue := r.queue.mark id .superseded
        history := stamp (·.seq = id) .superseded r.history }
    else r
  | .settle =>
    match r.publishing with
    | id :: outer => { r with queue := r.queue.settle id, publishing := outer }
    | [] => r
  | .resolve decision reason =>
    { r with
      queue := (r.queue.resolveDecision decision reason).1
      history := stamp (fun e => e.decisionId = some decision ∧ e.isOpen = true ∧
        e.seq ∉ r.publishing) reason r.history }
  | .markAnswered id =>
    { r with
      queue := (r.queue.markAnswered id).1
      history := stamp (fun e => e.seq = id ∧ e ∈ r.queue.events) .answered r.history }
  | .forget session =>
    if r.publishing = [] then
      { r with
        queue := r.queue.forgetSession session
        history := r.history.filter (·.sessionId ≠ session) }
    else r

def machine : Machine EventRing QueueMove Eviction where
  step r move :=
    (r.next move, match r.staged move with
      | some q => EventQueue.evictions q.events.length q
      | none => [])

end EventRing

/-! ### Marking the log -/

section Stamp

variable {p p' : Event → Prop} [DecidablePred p] [DecidablePred p'] {reason : ResolvedReason}
  {log : List Event}

theorem mem_stamp {e : Event} :
    e ∈ stamp p reason log ↔
      ∃ x ∈ log, e = if p x then { x with resolvedReason := some reason } else x := by
  simp only [stamp, List.mem_map, eq_comm]

@[simp] theorem stamped_seq (x : Event) :
    (if p x then { x with resolvedReason := some reason } else x).seq = x.seq := by
  split <;> rfl

@[simp] theorem stamped_sessionId (x : Event) :
    (if p x then { x with resolvedReason := some reason } else x).sessionId = x.sessionId := by
  split <;> rfl

theorem stamped_toNotice (x : Event) :
    (if p x then { x with resolvedReason := some reason } else x).toNotice = x.toNotice := by
  split <;> rfl

theorem stamp_seqs : (stamp p reason log).map (·.seq) = log.map (·.seq) := by
  rw [stamp, List.map_map]
  exact List.map_congr_left fun x _ => stamped_seq x

theorem stamp_congr (same : ∀ e ∈ log, p e ↔ p' e) : stamp p reason log = stamp p' reason log := by
  refine List.map_congr_left fun e member => ?_
  simp only [same e member]

theorem stamp_none (none : ∀ e ∈ log, ¬ p e) : stamp p reason log = log := by
  refine (List.map_congr_left fun e member => ?_).trans (List.map_id log)
  simp [none e member]

/-- Marks for one reason add up. -/
theorem stamp_stamp :
    stamp p' reason (stamp p reason log) = stamp (fun e => p e ∨ p' e) reason log := by
  rw [stamp, stamp, List.map_map, stamp]
  refine List.map_congr_left fun e _ => ?_
  simp only [Function.comp_apply]
  by_cases first : p e
  · simp only [first, if_true, true_or]
    split <;> rfl
  · simp only [first, if_false, false_or]

end Stamp

namespace EventQueue

variable {busy : List EventId} {q q' : EventQueue} {history : List Event}

theorem resolveOne_events (reason : ResolvedReason) (id : EventId) :
    (resolveOne reason q id).events = stamp (·.seq = id) reason q.events := by
  simp only [resolveOne]
  split
  next e found => exact unpin_events e
  next absent => exact (stamp_none (find_none absent)).symm

theorem resolveAll_events (reason : ResolvedReason) (ids : List EventId) :
    (ids.foldl (resolveOne reason) q).events = stamp (·.seq ∈ ids) reason q.events := by
  induction ids generalizing q with
  | nil => exact (stamp_none fun e _ => List.not_mem_nil).symm
  | cons id rest ih =>
    rw [List.foldl_cons, ih, resolveOne_events, stamp_stamp]
    exact stamp_congr fun e _ => List.mem_cons.symm

/-- What no operation but a publish or a forget changes. -/
structure Framed (q q' : EventQueue) : Prop where
  nextSeq : q'.nextSeq = q.nextSeq
  bound : q'.bound = q.bound
  ownerFloor : q'.ownerFloor = q.ownerFloor
  lastSeq : q'.lastSeq = q.lastSeq
  lastSeqBySession : q'.lastSeqBySession = q.lastSeqBySession

/-- What changes on an eviction only, besides. -/
structure Marked (q q' : EventQueue) : Prop extends Framed q q' where
  evictedHigh : q'.evictedHigh = q.evictedHigh
  evictedHighBySession : q'.evictedHighBySession = q.evictedHighBySession

theorem Framed.refl (q : EventQueue) : Framed q q := ⟨rfl, rfl, rfl, rfl, rfl⟩

theorem Framed.trans {q'' : EventQueue} (first : Framed q q') (second : Framed q' q'') :
    Framed q q'' where
  nextSeq := second.nextSeq.trans first.nextSeq
  bound := second.bound.trans first.bound
  ownerFloor := second.ownerFloor.trans first.ownerFloor
  lastSeq := second.lastSeq.trans first.lastSeq
  lastSeqBySession := second.lastSeqBySession.trans first.lastSeqBySession

theorem Marked.refl (q : EventQueue) : Marked q q := ⟨.refl q, rfl, rfl⟩

theorem Marked.trans {q'' : EventQueue} (first : Marked q q') (second : Marked q' q'') :
    Marked q q'' where
  toFramed := first.toFramed.trans second.toFramed
  evictedHigh := second.evictedHigh.trans first.evictedHigh
  evictedHighBySession := second.evictedHighBySession.trans first.evictedHighBySession

theorem mark_marked (id : EventId) (reason : ResolvedReason) : Marked q (q.mark id reason) :=
  ⟨⟨rfl, rfl, rfl, rfl, rfl⟩, rfl, rfl⟩

theorem unindexDecision_marked (e : Event) : Marked q (q.unindexDecision e) := by
  simp only [unindexDecision]
  split
  · exact ⟨⟨rfl, rfl, rfl, rfl, rfl⟩, rfl, rfl⟩
  · exact .refl q

theorem unpin_marked (e : Event) : Marked q (q.unpin e) := by
  have pin : Marked q { q with pinned := q.pinned.erase e.seq } :=
    ⟨⟨rfl, rfl, rfl, rfl, rfl⟩, rfl, rfl⟩
  have free := pin.trans (unindexDecision_marked e)
  exact { free with }

theorem resolveOne_marked (reason : ResolvedReason) (id : EventId) :
    Marked q (resolveOne reason q id) := by
  simp only [resolveOne]
  split
  · exact (mark_marked id reason).trans (unpin_marked _)
  · exact .refl q

theorem resolveAll_marked (reason : ResolvedReason) (ids : List EventId) :
    Marked q (ids.foldl (resolveOne reason) q) := by
  induction ids generalizing q with
  | nil => exact .refl q
  | cons id rest ih => exact (resolveOne_marked reason id).trans ih

theorem indexNew_marked (e : Event) : Marked q (q.indexNew e) := by
  simp only [indexNew, indexDecision]
  split
  · split <;> exact ⟨⟨rfl, rfl, rfl, rfl, rfl⟩, rfl, rfl⟩
  · exact ⟨⟨rfl, rfl, rfl, rfl, rfl⟩, rfl, rfl⟩

theorem classify_marked (id : EventId) : Marked q (q.classify id) := by
  simp only [classify]
  split
  · exact indexNew_marked _
  · exact .refl q

theorem classify_events (id : EventId) : (q.classify id).events = q.events := by
  simp only [classify]
  split
  · exact indexNew_events _
  · rfl

theorem settle_eq (id : EventId) : q.settle id = (q.classify id).evictIfNeeded := by
  simp only [settle, classify]
  cases q.find id <;> rfl

theorem evictLoop_framed (rounds : ℕ) : Framed q (evictLoop rounds q) := by
  induction rounds generalizing q with
  | zero => exact .refl q
  | succ rounds ih =>
    simp only [evictLoop]
    split
    · exact .refl q
    · split
      next victim _ =>
        have dropped : Framed q (q.drop victim) := ⟨rfl, rfl, rfl, rfl, rfl⟩
        exact dropped.trans ih
      next => exact .refl q

theorem forgetOne_marked (e : Event) : Marked q (q.forgetOne e) := by
  simp only [forgetOne]
  split
  · have pin : Marked q { q with pinned := q.pinned.erase e.seq } :=
      ⟨⟨rfl, rfl, rfl, rfl, rfl⟩, rfl, rfl⟩
    exact pin.trans (unindexDecision_marked e)
  · split
    · exact ⟨⟨rfl, rfl, rfl, rfl, rfl⟩, rfl, rfl⟩
    · exact .refl q

theorem forgetAll_marked (es : List Event) : Marked q (es.foldl forgetOne q) := by
  induction es generalizing q with
  | nil => exact .refl q
  | cons e rest ih => exact (forgetOne_marked e).trans ih

/-! ### The log and the history -/

/-- What is retained stands in the history as it does in the log, and what is gone is closed. -/
structure Kept (history : List Event) (q : EventQueue) : Prop where
  ascending : (history.map (·.seq)).Pairwise (· < ·)
  early : ∀ e ∈ history, e.seq < q.nextSeq
  inside : ∀ e ∈ q.events, e ∈ history
  gone : ∀ e ∈ history, e ∈ q.events ∨ e.isOpen = false ∧ ∀ x ∈ q.events, x.seq ≠ e.seq

namespace Kept

theorem mem_iff_has (kept : Kept history q) {e : Event} (known : e ∈ history) :
    e ∈ q.events ↔ ∃ x ∈ q.events, x.seq = e.seq := by
  constructor
  · exact fun member => ⟨e, member, rfl⟩
  · rintro ⟨x, member, same⟩
    rcases kept.gone e known with inside | ⟨-, absent⟩
    · exact inside
    · exact absurd same (absent x member)

theorem reserve (kept : Kept history q) (n : Notice) (owner : Option String) :
    Kept (history ++ [(q.reserve n owner).2]) (q.reserve n owner).1 where
  ascending := by
    rw [List.map_append]
    refine List.pairwise_append.mpr ⟨kept.ascending, List.pairwise_singleton _ _, ?_⟩
    intro id member next single
    obtain ⟨e, known, rfl⟩ := List.mem_map.mp member
    rw [List.mem_singleton.mp single]
    exact kept.early e known
  early := by
    intro e known
    rcases List.mem_append.mp known with old | new
    · exact Nat.lt_succ_of_lt (kept.early e old)
    · rw [List.mem_singleton.mp new]
      exact Nat.lt_succ_self _
  inside := by
    intro e member
    rcases List.mem_append.mp member with old | new
    · exact List.mem_append_left _ (kept.inside e old)
    · exact List.mem_append_right _ new
  gone := by
    intro e known
    rcases List.mem_append.mp known with old | new
    · rcases kept.gone e old with member | ⟨closed, absent⟩
      · exact .inl (List.mem_append_left _ member)
      · refine .inr ⟨closed, ?_⟩
        intro x member
        rcases List.mem_append.mp member with before | latest
        · exact absent x before
        · rw [List.mem_singleton.mp latest]
          exact (kept.early e old).ne'
    · exact .inl (List.mem_append_right _ new)

/-- Marks that reach the log and the history alike keep them together. -/
theorem stamp {p : Event → Prop} [DecidablePred p] (kept : Kept history q)
    {reason : ResolvedReason} (log : q'.events = stamp p reason q.events)
    (next : q'.nextSeq = q.nextSeq) (only : ∀ e ∈ history, e ∉ q.events → ¬ p e) :
    Kept (Daemon.stamp p reason history) q' where
  ascending := by rw [stamp_seqs]; exact kept.ascending
  early := by
    intro e known
    obtain ⟨x, old, rfl⟩ := mem_stamp.mp known
    rw [next, stamped_seq]
    exact kept.early x old
  inside := by
    intro e member
    rw [log] at member
    obtain ⟨x, old, rfl⟩ := mem_stamp.mp member
    exact mem_stamp.mpr ⟨x, kept.inside x old, rfl⟩
  gone := by
    intro e known
    obtain ⟨x, old, rfl⟩ := mem_stamp.mp known
    rw [log]
    by_cases member : x ∈ q.events
    · exact .inl (mem_stamp.mpr ⟨x, member, rfl⟩)
    · obtain ⟨closed, absent⟩ := (kept.gone x old).resolve_left member
      rw [if_neg (only x old member)]
      refine .inr ⟨closed, ?_⟩
      intro y marked
      obtain ⟨z, inside, rfl⟩ := mem_stamp.mp marked
      rw [stamped_seq]
      exact absent z inside

theorem drop {victim : Event} (kept : Kept history q) (indexed : Indexed busy q)
    (picked : q.pickVictim = some victim) : Kept history (q.drop victim) where
  ascending := kept.ascending
  early := kept.early
  inside := fun e member => kept.inside e (List.mem_of_mem_filter member)
  gone := by
    obtain ⟨member, -, listed⟩ := pickVictim_some picked
    obtain ⟨-, closed, -⟩ := (indexed.listed_iff member victim.owner).mp listed
    intro e known
    by_cases same : e.seq = victim.seq
    · have victimIs : e = victim := by
        have inside := (kept.mem_iff_has known).mpr ⟨victim, member, same.symm⟩
        exact indexed.same_event inside member same
      refine .inr ⟨victimIs ▸ closed, ?_⟩
      intro x stays
      rw [same]
      exact of_decide_eq_true (List.mem_filter.mp stays).2
    · rcases kept.gone e known with inside | ⟨closed', absent⟩
      · exact .inl (List.mem_filter.mpr ⟨inside, decide_eq_true same⟩)
      · exact .inr ⟨closed', fun x stays => absent x (List.mem_of_mem_filter stays)⟩

theorem evictLoop (kept : Kept history q) (indexed : Indexed busy q) (rounds : ℕ) :
    Kept history (evictLoop rounds q) := by
  induction rounds generalizing q with
  | zero => exact kept
  | succ rounds ih =>
    simp only [EventQueue.evictLoop]
    split
    · exact kept
    · split
      next victim picked => exact ih (kept.drop indexed picked) (indexed.drop picked)
      next => exact kept

theorem forget (kept : Kept history q) (session : SessionId) :
    Kept (history.filter (·.sessionId ≠ session)) (q.forgetSession session) where
  ascending := kept.ascending.sublist (List.filter_sublist.map _)
  early := by
    intro e known
    have same : (q.forgetSession session).nextSeq = q.nextSeq := (forgetAll_marked _).nextSeq
    rw [same]
    exact kept.early e (List.mem_of_mem_filter known)
  inside := by
    intro e member
    rw [forgetSession_events] at member
    obtain ⟨old, other⟩ := List.mem_filter.mp member
    exact List.mem_filter.mpr ⟨kept.inside e old, other⟩
  gone := by
    intro e known
    rw [forgetSession_events]
    obtain ⟨old, other⟩ := List.mem_filter.mp known
    rcases kept.gone e old with member | ⟨closed, absent⟩
    · exact .inl (List.mem_filter.mpr ⟨member, other⟩)
    · exact .inr ⟨closed, fun x stays => absent x (List.mem_of_mem_filter stays)⟩

end Kept

end EventQueue

/-! ### The step -/

namespace EventRing

variable {r : EventRing}

structure Sound (r : EventRing) : Prop where
  indexed : EventQueue.Indexed r.publishing r.queue
  kept : EventQueue.Kept r.history r.queue

theorem sound_start (bound ownerFloor : ℕ) : Sound (start bound ownerFloor) where
  indexed := EventQueue.indexed_empty bound ownerFloor
  kept :=
    { ascending := List.Pairwise.nil
      early := by simp [start]
      inside := by simp [start]
      gone := by simp [start] }

/-- A move that comes to an eviction ends with it. -/
theorem next_staged {move : QueueMove} {q : EventQueue} (reached : r.staged move = some q) :
    (r.next move).queue = q.evictIfNeeded := by
  cases move with
  | settle =>
    simp only [staged] at reached
    split at reached
    next id outer top =>
      cases reached
      simp only [next, top, EventQueue.settle_eq]
    next => cases reached
  | resolve decision reason =>
    simp only [staged] at reached
    split at reached
    next => cases reached
    next named =>
      cases reached
      simp only [next, EventQueue.resolveDecision, named, if_false]
  | markAnswered id =>
    simp only [staged] at reached
    split at reached
    next hit =>
      cases reached
      obtain ⟨e, found⟩ := Option.isSome_iff_exists.mp hit.1
      simp only [next, EventQueue.markAnswered, found, hit.2, if_true]
    next => cases reached
  | ownerOf => cases reached
  | reserve => cases reached
  | supersede => cases reached
  | forget => cases reached

theorem Sound.classify (sound : Sound r) {id : EventId} {outer : List EventId}
    (top : r.publishing = id :: outer) :
    EventQueue.Indexed outer (r.queue.classify id) ∧
      EventQueue.Kept r.history (r.queue.classify id) := by
  have indexed := sound.indexed
  rw [top] at indexed
  obtain ⟨e, member, rfl, -⟩ := indexed.retained id List.mem_cons_self
  have found : r.queue.find e.seq = some e := indexed.find_iff.mpr ⟨member, rfl⟩
  constructor
  · simp only [EventQueue.classify, found]
    exact indexed.indexNew member
  · have log := EventQueue.classify_events (q := r.queue) e.seq
    have frame := EventQueue.classify_marked (q := r.queue) e.seq
    exact
      { ascending := sound.kept.ascending
        early := frame.nextSeq ▸ sound.kept.early
        inside := log ▸ sound.kept.inside
        gone := log ▸ sound.kept.gone }

theorem Sound.resolveAll (sound : Sound r) (d : DecisionId) (reason : ResolvedReason) :
    EventQueue.Indexed r.publishing
        ((r.queue.idsOf d).foldl (EventQueue.resolveOne reason) r.queue) ∧
      EventQueue.Kept (r.next (.resolve d reason)).history
        ((r.queue.idsOf d).foldl (EventQueue.resolveOne reason) r.queue) := by
  have indexed := sound.indexed
  constructor
  · exact indexed.resolveAll (indexed.once d) (indexed.idsOf_pinned d) reason
  · -- the index names the open events of the decision, as the history selects them
    have named : ∀ e ∈ r.queue.events, e.seq ∈ r.queue.idsOf d ↔
        e.decisionId = some d ∧ e.isOpen = true ∧ e.seq ∉ r.publishing := by
      intro e member
      rw [indexed.decided, indexed.has_iff member]
      tauto
    refine sound.kept.stamp ?_ (EventQueue.resolveAll_marked reason _).nextSeq ?_
    · rw [EventQueue.resolveAll_events]
      exact stamp_congr named
    · rintro e known absent ⟨-, isOpen, -⟩
      obtain ⟨closed, -⟩ := (sound.kept.gone e known).resolve_left absent
      rw [closed] at isOpen
      cases isOpen

theorem Sound.answer (sound : Sound r) {id : EventId} (pin : id ∈ r.queue.pinned) :
    EventQueue.Indexed r.publishing (EventQueue.resolveOne .answered r.queue id) ∧
      EventQueue.Kept (r.next (.markAnswered id)).history
        (EventQueue.resolveOne .answered r.queue id) := by
  constructor
  · exact sound.indexed.resolveOne pin .answered
  · refine sound.kept.stamp ?_ (EventQueue.resolveOne_marked _ _).nextSeq ?_
    · rw [EventQueue.resolveOne_events]
      exact stamp_congr fun e member => (and_iff_left member).symm
    · exact fun e _ absent hit => absent hit.2

/-- Before its eviction a move has the indexes and the history right. -/
theorem Sound.staged (sound : Sound r) {move : QueueMove} {q : EventQueue}
    (reached : r.staged move = some q) :
    EventQueue.Indexed (r.next move).publishing q ∧ EventQueue.Kept (r.next move).history q := by
  cases move with
  | settle =>
    simp only [EventRing.staged] at reached
    split at reached
    next id outer top =>
      cases reached
      simp only [next, top]
      exact sound.classify top
    next => cases reached
  | resolve decision reason =>
    simp only [EventRing.staged] at reached
    split at reached
    · cases reached
    · cases reached
      exact sound.resolveAll decision reason
  | markAnswered id =>
    simp only [EventRing.staged] at reached
    split at reached
    next hit =>
      cases reached
      exact sound.answer hit.2
    next => cases reached
  | ownerOf => cases reached
  | reserve => cases reached
  | supersede => cases reached
  | forget => cases reached

theorem Sound.next (sound : Sound r) (move : QueueMove) : Sound (r.next move) := by
  cases reached : r.staged move with
  | some q =>
    obtain ⟨indexed, kept⟩ := sound.staged reached
    exact
      { indexed := by rw [next_staged reached]; exact indexed.evict
        kept := by rw [next_staged reached]; exact kept.evictLoop indexed _ }
  | none =>
    cases move with
    | ownerOf session resolved =>
      obtain ⟨cache, frame⟩ := EventQueue.ownerOf_frame (q := r.queue) session resolved
      refine ⟨sound.indexed.ownerOf session resolved, ?_⟩
      simp only [EventRing.next, frame]
      exact { sound.kept with }
    | reserve notice owner =>
      exact ⟨sound.indexed.reserve notice owner, sound.kept.reserve notice owner⟩
    | supersede id =>
      simp only [EventRing.next]
      split
      next held =>
        have loose : id ∉ r.queue.pinned := fun pin =>
          ((sound.indexed.pinned id).mp pin).1 held
        refine ⟨sound.indexed.mark loose _, sound.kept.stamp rfl rfl ?_⟩
        rintro e known absent rfl
        obtain ⟨x, member, same, -⟩ := sound.indexed.retained _ held
        exact absent ((sound.kept.mem_iff_has known).mpr ⟨x, member, same⟩)
      next => exact sound
    | settle =>
      simp only [EventRing.staged] at reached
      split at reached
      · cases reached
      next empty =>
        simp only [EventRing.next, empty]
        exact sound
    | resolve decision reason =>
      simp only [EventRing.staged] at reached
      split at reached
      next none =>
        -- the index is empty, so the history has nothing to mark either
        have same := sound.resolveAll decision reason
        rw [none, List.foldl_nil] at same
        have queue : (r.next (.resolve decision reason)).queue = r.queue := by
          simp only [EventRing.next, EventQueue.resolveDecision, none, if_true]
        exact ⟨by rw [queue]; exact same.1, by rw [queue]; exact same.2⟩
      next => cases reached
    | markAnswered id =>
      simp only [EventRing.staged] at reached
      split at reached
      · cases reached
      next miss =>
        cases found : r.queue.find id with
        | none =>
          have queue : (r.next (.markAnswered id)).queue = r.queue := by
            simp only [EventRing.next, EventQueue.markAnswered, found]
          have history : (r.next (.markAnswered id)).history = r.history := by
            simp only [EventRing.next]
            refine stamp_none ?_
            rintro e - ⟨same, member⟩
            exact EventQueue.find_none found e member same
          exact ⟨by rw [queue]; exact sound.indexed, by rw [queue, history]; exact sound.kept⟩
        | some e =>
          have loose : id ∉ r.queue.pinned := fun pin => miss ⟨by simp [found], pin⟩
          have queue : (r.next (.markAnswered id)).queue = r.queue.mark id .answered := by
            simp only [EventRing.next, EventQueue.markAnswered, found, loose, if_false]
          refine ⟨by rw [queue]; exact sound.indexed.mark loose _, ?_⟩
          rw [queue]
          refine sound.kept.stamp ?_ rfl fun e _ absent hit => absent hit.2
          exact stamp_congr fun e member => (and_iff_left member).symm
    | forget session =>
      simp only [EventRing.next]
      split
      next quiet =>
        have indexed := sound.indexed
        rw [quiet] at indexed
        refine ⟨?_, sound.kept.forget session⟩
        dsimp only
        rw [quiet]
        exact indexed.forgetSession session
      next => exact sound

theorem Sound.after {bound ownerFloor : ℕ} (moves : List QueueMove) :
    Sound (machine.after (start bound ownerFloor) moves) :=
  machine.invariant_after Sound (fun _ move sound => sound.next move)
    (sound_start bound ownerFloor) moves

/-! ### What every run keeps -/

/-- The highest of the events that `p` selects, if there is one. -/
def Highest (p : Event → Prop) : Option Event → Prop
  | some e => p e ∧ ∀ x, p x → x.seq ≤ e.seq
  | none => ∀ x, ¬ p x

theorem highest_later (log : List Event) (best : Option Event) :
    Highest (fun x => x ∈ log ∨ best = some x) (log.foldl EventQueue.later best) := by
  induction log generalizing best with
  | nil =>
    cases best with
    | none => simp [Highest]
    | some b => simp [Highest]
  | cons e rest ih =>
    rw [List.foldl_cons]
    have found := ih (EventQueue.later best e)
    -- the winner of the first round stands for both of its candidates
    have winner : ∃ w, EventQueue.later best e = some w ∧ (w = e ∨ best = some w) ∧
        e.seq ≤ w.seq ∧ ∀ b, best = some b → b.seq ≤ w.seq := by
      simp only [EventQueue.later]
      cases best with
      | none => exact ⟨e, rfl, .inl rfl, le_rfl, by simp⟩
      | some b =>
        dsimp only
        by_cases more : b.seq < e.seq
        · refine ⟨e, by rw [if_pos more], .inl rfl, le_rfl, ?_⟩
          rintro _ ⟨⟩
          exact more.le
        · refine ⟨b, by rw [if_neg more], .inr rfl, Nat.le_of_not_lt more, ?_⟩
          rintro _ ⟨⟩
          exact le_rfl
    obtain ⟨w, won, candidate, atLeast, overBest⟩ := winner
    rw [won] at found ⊢
    cases last : rest.foldl EventQueue.later (some w) with
    | none =>
      rw [last] at found
      exact absurd (.inr rfl) (found w)
    | some h =>
      rw [last] at found
      obtain ⟨from_, top⟩ := found
      constructor
      · rcases from_ with later | same
        · exact .inl (List.mem_cons_of_mem _ later)
        · cases same
          rcases candidate with rfl | old
          · exact .inl List.mem_cons_self
          · exact .inr old
      · intro x known
        have above := top w (.inr rfl)
        rcases known with member | old
        · rcases List.mem_cons.mp member with rfl | later
          · exact atLeast.trans above
          · exact top x (.inl later)
        · exact (overBest x old).trans above

/-- The indexes of the queue against its log and its history. An event whose publish is under way
is in the log, and the indexes do not have it yet. -/
structure Consistent (r : EventRing) : Prop where
  pinned : ∀ id, id ∈ r.queue.pinned ↔
    ∃ e ∈ r.queue.events, e.seq = id ∧ e.isOpen = true ∧ id ∉ r.publishing
  bucket : ∀ owner, r.queue.histOf owner =
    (r.queue.events.filter fun e =>
      decide (e.seq ∉ r.publishing ∧ e.isOpen = false ∧ e.owner = owner)).map (·.seq)
  ascending : ∀ owner, (r.queue.histOf owner).Pairwise (· < ·)
  filled : ∀ owner, r.queue.ownerHist.lookup owner ≠ some []
  count : r.queue.evictableCount = total r.queue.ownerHist
  pending : ∀ session, Highest
    (fun e => e ∈ r.history ∧ e.isOpen = true ∧ e.sessionId = session ∧ e.seq ∉ r.publishing)
    (r.queue.pending (some session))

theorem Sound.consistent (sound : Sound r) : Consistent r where
  pinned id := by
    rw [sound.indexed.pinned]
    constructor
    · rintro ⟨old, e, member, same, isOpen⟩
      exact ⟨e, member, same, isOpen, old⟩
    · rintro ⟨e, member, same, isOpen, old⟩
      exact ⟨old, e, member, same, isOpen⟩
  bucket := sound.indexed.histOf_eq
  ascending := sound.indexed.sorted
  filled := sound.indexed.filled
  count := sound.indexed.count
  pending session := by
    have highest := highest_later (r.queue.events.filter fun e => decide
      (e.seq ∈ r.queue.pinned ∧ (some session = none ∨ some session = some e.sessionId))) none
    have selects : ∀ e, (e ∈ (r.queue.events.filter fun e => decide
          (e.seq ∈ r.queue.pinned ∧ (some session = none ∨ some session = some e.sessionId))) ∨
          none = some e) ↔
        (e ∈ r.history ∧ e.isOpen = true ∧ e.sessionId = session ∧ e.seq ∉ r.publishing) := by
      intro e
      simp only [List.mem_filter, decide_eq_true_eq, reduceCtorEq, or_false, false_or,
        Option.some.injEq]
      constructor
      · rintro ⟨member, pin, rfl⟩
        obtain ⟨old, isOpen⟩ := (sound.indexed.pinned_iff member).mp pin
        exact ⟨sound.kept.inside e member, isOpen, rfl, old⟩
      · rintro ⟨known, isOpen, rfl, old⟩
        rcases sound.kept.gone e known with member | ⟨closed, -⟩
        · exact ⟨member, (sound.indexed.pinned_iff member).mpr ⟨old, isOpen⟩, rfl⟩
        · rw [closed] at isOpen
          cases isOpen
    simp only [selects] at highest
    exact highest

/-- Whatever is published, resolved, evicted and forgotten, and however publishes nest: the pin
index is the retained unresolved respondable events, the buckets are the other retained events by
owner in ascending order, the count is their size, and the pending decision of a session is its
highest unresolved one. -/
theorem indexes_consistent (bound ownerFloor : ℕ) (moves : List QueueMove) :
    Consistent (machine.after (start bound ownerFloor) moves) :=
  (Sound.after moves).consistent

end EventRing

/-! ### Nested calls -/

/-- The calls a publish hook makes, itself included: `supersede` is about the hook's own event. -/
inductive QueueCall
  | publish (notice : Notice) (resolved : Option String) (hook : List QueueCall)
  | supersede
  | resolve (decision : DecisionId) (reason : ResolvedReason)
  | markAnswered (id : EventId)

mutual

def QueueCall.run (own : Option EventId) : QueueCall → EventQueue → EventQueue
  | .publish notice resolved hook, q =>
    (q.publish notice resolved fun reserved e => (QueueCall.runAll (some e.seq) hook reserved, ())).1
  | .supersede, q => own.elim q fun id => q.mark id .superseded
  | .resolve decision reason, q => (q.resolveDecision decision reason).1
  | .markAnswered id, q => (q.markAnswered id).1

def QueueCall.runAll (own : Option EventId) : List QueueCall → EventQueue → EventQueue
  | [], q => q
  | call :: rest, q => QueueCall.runAll own rest (call.run own q)

end

namespace EventRing

/-- The moves lead to the queue, with the same publishes under way, and forget nothing. -/
structure Leads (r : EventRing) (moves : List QueueMove) (q : EventQueue) : Prop where
  queue : (machine.after r moves).queue = q
  publishing : (machine.after r moves).publishing = r.publishing
  forgetless : ∀ session, .forget session ∉ moves

mutual

/-- Each nest of calls is a run of moves. -/
theorem leads_call : ∀ (call : QueueCall) (own : Option EventId) (r : EventRing),
    (∀ id ∈ own, id ∈ r.publishing) → ∃ moves, r.Leads moves (call.run own r.queue)
  | .publish notice resolved hook, own, r, _ => by
    let owned := r.queue.ownerOf notice.sessionId resolved
    let opened := machine.after r [.ownerOf notice.sessionId resolved, .reserve notice owned.2]
    have top : opened.publishing = owned.1.nextSeq :: r.publishing := rfl
    obtain ⟨moves, leads⟩ := leads_calls hook (some owned.1.nextSeq) opened (by simp [top])
    refine ⟨[.ownerOf notice.sessionId resolved, .reserve notice owned.2] ++ (moves ++ [.settle]),
      ?_, ?_, ?_⟩
    · rw [machine.after_append, machine.after_append]
      have under := leads.publishing
      rw [top] at under
      change (next (machine.after opened moves) .settle).queue = _
      simp only [next, under]
      rw [leads.queue]
      rfl
    · rw [machine.after_append, machine.after_append]
      have under := leads.publishing
      rw [top] at under
      change (next (machine.after opened moves) .settle).publishing = _
      simp only [next, under]
    · intro session member
      simp only [List.mem_append, List.mem_cons, List.not_mem_nil, or_false, reduceCtorEq,
        false_or] at member
      exact leads.forgetless session member
  | .supersede, none, r, _ => ⟨[], rfl, rfl, by simp⟩
  | .supersede, some id, r, held => by
    have inside : id ∈ r.publishing := held id rfl
    refine ⟨[.supersede id], ?_, ?_, by simp⟩
    · change (next r (.supersede id)).queue = _
      simp only [next, inside, if_true]
      rfl
    · change (next r (.supersede id)).publishing = _
      simp only [next, inside, if_true]
  | .resolve decision reason, _, r, _ => ⟨[.resolve decision reason], rfl, rfl, by simp⟩
  | .markAnswered id, _, r, _ => ⟨[.markAnswered id], rfl, rfl, by simp⟩

theorem leads_calls : ∀ (calls : List QueueCall) (own : Option EventId) (r : EventRing),
    (∀ id ∈ own, id ∈ r.publishing) → ∃ moves, r.Leads moves (QueueCall.runAll own calls r.queue)
  | [], _, r, _ => ⟨[], rfl, rfl, by simp⟩
  | call :: rest, own, r, held => by
    obtain ⟨first, leads⟩ := leads_call call own r held
    obtain ⟨second, later⟩ := leads_calls rest own (machine.after r first) (by
      rw [leads.publishing]
      exact held)
    refine ⟨first ++ second, ?_, ?_, ?_⟩
    · rw [machine.after_append, later.queue, leads.queue]
      rfl
    · rw [machine.after_append, later.publishing, leads.publishing]
    · intro session member
      rcases List.mem_append.mp member with inFirst | inSecond
      · exact leads.forgetless session inFirst
      · exact later.forgetless session inSecond

end

end EventRing

end Nelix.Daemon
