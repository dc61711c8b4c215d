import Nelix.Daemon.EventRuns

/-!
# Cursors

Eviction leaves gaps in the log of every owner, so a cursor cannot be judged by the oldest retained
event. The high-water marks decide it: over every run without a forget, a cursor is expired in a
scope exactly where an event of the scope above it has been evicted. Otherwise everything above it
is retained, and what is delivered is the lowest of all ever published.
-/
namespace Nelix.Daemon

open Core

namespace EventQueue

variable {busy : List EventId} {q q' : EventQueue} {history : List Event}

/-- The log no longer has the event. -/
def Evicted (q : EventQueue) (e : Event) : Prop := ∀ x ∈ q.events, x.seq ≠ e.seq

/-- The high-water mark of a session. -/
def evictedOf (q : EventQueue) (session : SessionId) : ℕ :=
  (q.evictedHighBySession.lookup session).getD 0

def lastOf (q : EventQueue) (session : SessionId) : ℕ :=
  (q.lastSeqBySession.lookup session).getD 0

/-- The marks of the sessions against the history: below a mark something was evicted above, and no
number is above the last one. -/
structure SessionMarks (history : List Event) (q : EventQueue) : Prop where
  highOf : ∀ session a, a < q.evictedOf session ↔
    ∃ e ∈ history, q.Evicted e ∧ e.sessionId = session ∧ a < e.seq
  last : ∀ e ∈ history, e.seq ≤ q.lastSeq
  lastOf : ∀ e ∈ history, e.seq ≤ q.lastOf e.sessionId

/-- All marks, with the one over all sessions. -/
structure Marks (history : List Event) (q : EventQueue) : Prop
    extends SessionMarks history q where
  high : ∀ a, a < q.evictedHigh ↔ ∃ e ∈ history, q.Evicted e ∧ a < e.seq

theorem marks_empty (bound ownerFloor : ℕ) :
    Marks [] { bound := bound, ownerFloor := ownerFloor } where
  high a := by simp
  highOf session a := by simp [evictedOf]
  last := by simp
  lastOf := by simp

/-- A mark on the events keeps numbers and sessions. -/
theorem exists_stamp (p : Event → Prop) [DecidablePred p] (reason : ResolvedReason)
    (good : EventId → SessionId → Prop) :
    (∃ e ∈ stamp p reason history, good e.seq e.sessionId) ↔
      ∃ e ∈ history, good e.seq e.sessionId := by
  constructor
  · rintro ⟨_, known, holds⟩
    obtain ⟨e, old, rfl⟩ := mem_stamp.mp known
    rw [stamped_seq, stamped_sessionId] at holds
    exact ⟨e, old, holds⟩
  · rintro ⟨e, old, holds⟩
    refine ⟨_, mem_stamp.mpr ⟨e, old, rfl⟩, ?_⟩
    rw [stamped_seq, stamped_sessionId]
    exact holds

theorem evicted_iff_seqs (e : Event) : q.Evicted e ↔ e.seq ∉ q.events.map (·.seq) := by
  simp only [Evicted, List.mem_map, not_exists, not_and]

/-- A publish evicts nothing. -/
theorem exists_evicted_reserve (kept : Kept history q) (n : Notice) (owner : Option String)
    (good : Event → Prop) :
    (∃ e ∈ history ++ [(q.reserve n owner).2], (q.reserve n owner).1.Evicted e ∧ good e) ↔
      ∃ e ∈ history, q.Evicted e ∧ good e := by
  constructor
  · rintro ⟨e, known, gone, holds⟩
    rcases List.mem_append.mp known with old | new
    · exact ⟨e, old, fun x member => gone x (List.mem_append_left _ member), holds⟩
    · rw [List.mem_singleton.mp new] at gone
      exact absurd rfl (gone _ (List.mem_append_right _ (List.mem_singleton.mpr rfl)))
  · rintro ⟨e, old, gone, holds⟩
    refine ⟨e, List.mem_append_left _ old, ?_, holds⟩
    intro x member
    rcases List.mem_append.mp member with before | latest
    · exact gone x before
    · rw [List.mem_singleton.mp latest]
      exact (kept.early e old).ne'

/-- What is evicted after an eviction was evicted before, or is the victim. -/
theorem exists_evicted_drop {victim : Event} (kept : Kept history q) (indexed : Indexed busy q)
    (picked : q.pickVictim = some victim) (good : Event → Prop) :
    (∃ e ∈ history, (q.drop victim).Evicted e ∧ good e) ↔
      (∃ e ∈ history, q.Evicted e ∧ good e) ∨ good victim := by
  obtain ⟨member, -, -⟩ := pickVictim_some picked
  have evicted : ∀ e ∈ history, (q.drop victim).Evicted e ↔ q.Evicted e ∨ e = victim := by
    intro e old
    constructor
    · intro gone
      by_cases inside : e ∈ q.events
      · refine .inr ?_
        by_contra other
        have differ : e.seq ≠ victim.seq := fun same =>
          other (indexed.same_event inside member same)
        exact gone e (List.mem_filter.mpr ⟨inside, decide_eq_true differ⟩) rfl
      · exact .inl ((kept.gone e old).resolve_left inside).2
    · rintro (gone | rfl)
      · exact fun x stays => gone x (List.mem_of_mem_filter stays)
      · exact fun x stays => of_decide_eq_true (List.mem_filter.mp stays).2
  constructor
  · rintro ⟨e, old, gone, holds⟩
    rcases (evicted e old).mp gone with before | rfl
    · exact .inl ⟨e, old, before, holds⟩
    · exact .inr holds
  · rintro (⟨e, old, before, holds⟩ | holds)
    · exact ⟨e, old, (evicted e old).mpr (.inl before), holds⟩
    · have known := kept.inside victim member
      exact ⟨victim, known, (evicted victim known).mpr (.inr rfl), holds⟩

namespace SessionMarks

/-- Marks on the events and moves between the indexes leave the high-water marks alone. -/
theorem stamp {p : Event → Prop} [DecidablePred p] {reason : ResolvedReason}
    (marks : SessionMarks history q) (marked : Marked q q')
    (numbers : q'.events.map (·.seq) = q.events.map (·.seq)) :
    SessionMarks (Daemon.stamp p reason history) q' where
  highOf session a := by
    rw [evictedOf, marked.evictedHighBySession, ← evictedOf, marks.highOf]
    simp only [evicted_iff_seqs, numbers]
    exact (exists_stamp p reason
      fun seq s => seq ∉ q.events.map (·.seq) ∧ s = session ∧ a < seq).symm
  last e known := by
    obtain ⟨x, old, rfl⟩ := mem_stamp.mp known
    rw [marked.lastSeq, stamped_seq]
    exact marks.last x old
  lastOf e known := by
    obtain ⟨x, old, rfl⟩ := mem_stamp.mp known
    rw [EventQueue.lastOf, marked.lastSeqBySession, ← EventQueue.lastOf, stamped_seq,
      stamped_sessionId]
    exact marks.lastOf x old

/-- A new event is the last one, and it is retained. -/
theorem reserve (marks : SessionMarks history q) (kept : Kept history q) (n : Notice)
    (owner : Option String) :
    SessionMarks (history ++ [(q.reserve n owner).2]) (q.reserve n owner).1 where
  highOf session a := (marks.highOf session a).trans
    (exists_evicted_reserve kept n owner fun e => e.sessionId = session ∧ a < e.seq).symm
  last e known := by
    rcases List.mem_append.mp known with old | new
    · exact (kept.early e old).le
    · rw [List.mem_singleton.mp new]
      exact le_rfl
  lastOf e known := by
    simp only [EventQueue.lastOf, EventQueue.reserve]
    rcases List.mem_append.mp known with old | new
    · by_cases same : e.sessionId = n.sessionId
      · rw [same, AList.lookup_insert]
        exact (kept.early e old).le
      · rw [AList.lookup_insert_ne same]
        exact marks.lastOf e old
    · rw [List.mem_singleton.mp new]
      change q.nextSeq ≤ ((q.lastSeqBySession.insert n.sessionId q.nextSeq).lookup
        n.sessionId).getD 0
      rw [AList.lookup_insert]
      exact le_rfl

/-- An eviction raises the mark of its session to the victim. -/
theorem drop {victim : Event} (marks : SessionMarks history q) (kept : Kept history q)
    (indexed : Indexed busy q) (picked : q.pickVictim = some victim) :
    SessionMarks history (q.drop victim) where
  highOf session a := by
    rw [exists_evicted_drop kept indexed picked fun e => e.sessionId = session ∧ a < e.seq,
      ← marks.highOf]
    simp only [evictedOf, EventQueue.drop]
    by_cases same : session = victim.sessionId
    · subst same
      rw [AList.lookup_insert, Option.getD_some, lt_max_iff]
      simp
    · rw [AList.lookup_insert_ne same]
      simp [Ne.symm same]
  last := marks.last
  lastOf := marks.lastOf

theorem evictLoop (marks : SessionMarks history q) (kept : Kept history q)
    (indexed : Indexed busy q) (rounds : ℕ) : SessionMarks history (evictLoop rounds q) := by
  induction rounds generalizing q with
  | zero => exact marks
  | succ rounds ih =>
    simp only [EventQueue.evictLoop]
    split
    · exact marks
    · split
      next victim picked =>
        exact ih (marks.drop kept indexed picked) (kept.drop indexed picked)
          (indexed.drop picked)
      next => exact marks

/-- A forgotten session has no event and no mark, and the others keep theirs. -/
theorem forget (marks : SessionMarks history q) (kept : Kept history q) (session : SessionId) :
    SessionMarks (history.filter (·.sessionId ≠ session)) (q.forgetSession session) := by
  have swept : Marked q ((q.events.filter (·.sessionId = session)).foldl forgetOne q) :=
    forgetAll_marked _
  have stays : ∀ e ∈ history.filter (·.sessionId ≠ session),
      e ∈ history ∧ e.sessionId ≠ session := fun e known =>
    ⟨List.mem_of_mem_filter known, of_decide_eq_true (List.mem_filter.mp known).2⟩
  have evicted : ∀ e ∈ history, e.sessionId ≠ session →
      ((q.forgetSession session).Evicted e ↔ q.Evicted e) := by
    intro e known other
    rw [Evicted, forgetSession_events]
    constructor
    · intro gone x member same
      have inside : e ∈ q.events := (kept.mem_iff_has known).mpr ⟨x, member, same⟩
      exact gone e (List.mem_filter.mpr ⟨inside, decide_eq_true other⟩) rfl
    · exact fun gone x member => gone x (List.mem_of_mem_filter member)
  refine { highOf := fun of a => ?_, last := fun e known => ?_, lastOf := fun e known => ?_ }
  · by_cases same : of = session
    · subst same
      rw [evictedOf, forgetSession]
      dsimp only
      rw [AList.lookup_erase]
      refine iff_of_false (Nat.not_lt_zero a) ?_
      rintro ⟨e, known, -, mine, -⟩
      exact (stays e known).2 mine
    · have mark : (q.forgetSession session).evictedOf of = q.evictedOf of := by
        rw [evictedOf, forgetSession]
        dsimp only
        rw [AList.lookup_erase_ne same, swept.evictedHighBySession, ← evictedOf]
      rw [mark, marks.highOf]
      constructor
      · rintro ⟨e, known, gone, mine, above⟩
        have other : e.sessionId ≠ session := mine.trans_ne same
        exact ⟨e, List.mem_filter.mpr ⟨known, decide_eq_true other⟩,
          (evicted e known other).mpr gone, mine, above⟩
      · rintro ⟨e, known, gone, mine, above⟩
        obtain ⟨old, other⟩ := stays e known
        exact ⟨e, old, (evicted e old other).mp gone, mine, above⟩
  · rw [show (q.forgetSession session).lastSeq = q.lastSeq from swept.lastSeq]
    exact marks.last e (stays e known).1
  · obtain ⟨old, other⟩ := stays e known
    rw [EventQueue.lastOf, forgetSession]
    dsimp only
    rw [AList.lookup_erase_ne other, swept.lastSeqBySession]
    exact marks.lastOf e old

end SessionMarks

namespace Marks

theorem stamp {p : Event → Prop} [DecidablePred p] {reason : ResolvedReason}
    (marks : Marks history q) (marked : Marked q q')
    (numbers : q'.events.map (·.seq) = q.events.map (·.seq)) :
    Marks (Daemon.stamp p reason history) q' where
  toSessionMarks := marks.toSessionMarks.stamp marked numbers
  high a := by
    rw [marked.evictedHigh, marks.high]
    simp only [evicted_iff_seqs, numbers]
    exact (exists_stamp p reason fun seq _ => seq ∉ q.events.map (·.seq) ∧ a < seq).symm

theorem reserve (marks : Marks history q) (kept : Kept history q) (n : Notice)
    (owner : Option String) :
    Marks (history ++ [(q.reserve n owner).2]) (q.reserve n owner).1 where
  toSessionMarks := marks.toSessionMarks.reserve kept n owner
  high a := (marks.high a).trans (exists_evicted_reserve kept n owner fun e => a < e.seq).symm

/-- An eviction raises the mark over all to the victim, too. -/
theorem drop {victim : Event} (marks : Marks history q) (kept : Kept history q)
    (indexed : Indexed busy q) (picked : q.pickVictim = some victim) :
    Marks history (q.drop victim) where
  toSessionMarks := marks.toSessionMarks.drop kept indexed picked
  high a := by
    rw [exists_evicted_drop kept indexed picked fun e => a < e.seq, ← marks.high]
    exact lt_max_iff

theorem evictLoop (marks : Marks history q) (kept : Kept history q) (indexed : Indexed busy q)
    (rounds : ℕ) : Marks history (evictLoop rounds q) := by
  induction rounds generalizing q with
  | zero => exact marks
  | succ rounds ih =>
    simp only [EventQueue.evictLoop]
    split
    · exact marks
    · split
      next victim picked =>
        exact ih (marks.drop kept indexed picked) (kept.drop indexed picked)
          (indexed.drop picked)
      next => exact marks

end Marks

/-! ### Reading the marks -/

/-- The mark of a scope that is not global is above a cursor where an event of the scope above it
was evicted. -/
theorem SessionMarks.lt_evictedIn (marks : SessionMarks history q) (a : ℕ) {scope : Scope}
    (local_ : scope ≠ .all) :
    a < q.evictedIn scope ↔ ∃ e ∈ history, e.inScope scope ∧ a < e.seq ∧ q.Evicted e := by
  cases scope with
  | all => exact absurd rfl local_
  | session id =>
    rw [evictedIn, ← evictedOf, marks.highOf]
    refine exists_congr fun e => and_congr_right fun _ => ?_
    simp only [Event.inScope]
    tauto
  | sessions ids =>
    rw [evictedIn, Finset.lt_sup_iff]
    constructor
    · rintro ⟨session, inside, above⟩
      obtain ⟨e, known, gone, rfl, more⟩ := (marks.highOf session a).mp above
      exact ⟨e, known, inside, more, gone⟩
    · rintro ⟨e, known, inside, more, gone⟩
      exact ⟨e.sessionId, inside, (marks.highOf e.sessionId a).mpr ⟨e, known, gone, rfl, more⟩⟩

theorem Marks.lt_evictedIn (marks : Marks history q) (a : ℕ) (scope : Scope) :
    a < q.evictedIn scope ↔ ∃ e ∈ history, e.inScope scope ∧ a < e.seq ∧ q.Evicted e := by
  by_cases global : scope = .all
  · subst global
    rw [evictedIn, marks.high]
    refine exists_congr fun e => and_congr_right fun _ => ?_
    simp only [Event.inScope, true_and]
    exact and_comm
  · exact marks.toSessionMarks.lt_evictedIn a global

/-- No event of a scope is above the scope's last number. -/
theorem Marks.le_latestSeq (marks : Marks history q) {e : Event} (known : e ∈ history)
    {scope : Scope} (inside : e.inScope scope) : e.seq ≤ q.latestSeq scope := by
  cases scope with
  | all => exact marks.last e known
  | session id =>
    have mine : e.sessionId = id := inside
    subst mine
    exact marks.lastOf e known
  | sessions ids =>
    have member : e.sessionId ∈ ids := inside
    exact (marks.lastOf e known).trans
      (Finset.le_sup (f := fun id => (q.lastSeqBySession.lookup id).getD 0) member)

end EventQueue

/-! ### Runs -/

namespace EventRing

variable {r : EventRing}

/-- A relation between the history and the queue that marks on events, publishes and evictions
keep. -/
structure Carried (rel : List Event → EventQueue → Prop) : Prop where
  stamp : ∀ {history q q'} {p : Event → Prop} [DecidablePred p] {reason : ResolvedReason},
    rel history q → EventQueue.Marked q q' → q'.events.map (·.seq) = q.events.map (·.seq) →
    rel (Daemon.stamp p reason history) q'
  reserve : ∀ {history q}, rel history q → EventQueue.Kept history q → ∀ notice owner,
    rel (history ++ [(q.reserve notice owner).2]) (q.reserve notice owner).1
  evictLoop : ∀ {history q busy}, rel history q → EventQueue.Kept history q →
    EventQueue.Indexed busy q → ∀ rounds, rel history (EventQueue.evictLoop rounds q)

def Forgetless (move : QueueMove) : Prop := ∀ session, move ≠ .forget session

namespace Carried

variable {rel : List Event → EventQueue → Prop}

theorem marked (carried : Carried rel) {history : List Event} {q q' : EventQueue}
    (holds : rel history q) (marked : EventQueue.Marked q q')
    (numbers : q'.events.map (·.seq) = q.events.map (·.seq)) : rel history q' := by
  have same : rel (Daemon.stamp (fun _ => False) .answered history) q' :=
    carried.stamp holds marked numbers
  rwa [stamp_none fun _ _ => not_false] at same

/-- Before its eviction a move has only marked events, in the log and in the history. -/
private theorem staged (carried : Carried rel) (holds : rel r.history r.queue) {move : QueueMove}
    {q : EventQueue} (reached : r.staged move = some q) : rel (r.next move).history q := by
  cases move with
  | settle =>
    simp only [EventRing.staged] at reached
    split at reached
    next id outer top =>
      cases reached
      simp only [EventRing.next, top]
      exact carried.marked holds (EventQueue.classify_marked id)
        (by rw [EventQueue.classify_events])
    next => cases reached
  | resolve decision reason =>
    simp only [EventRing.staged] at reached
    split at reached
    · cases reached
    · cases reached
      exact carried.stamp holds (EventQueue.resolveAll_marked _ _)
        (by rw [EventQueue.resolveAll_events, stamp_seqs])
  | markAnswered id =>
    simp only [EventRing.staged] at reached
    split at reached
    · cases reached
      exact carried.stamp holds (EventQueue.resolveOne_marked _ _)
        (by rw [EventQueue.resolveOne_events, stamp_seqs])
    · cases reached
  | ownerOf => cases reached
  | reserve => cases reached
  | supersede => cases reached
  | forget => cases reached

/-- Every move but a forget keeps the relation. -/
theorem next (carried : Carried rel) (sound : Sound r) (holds : rel r.history r.queue)
    {move : QueueMove} (keeps : Forgetless move) :
    rel (r.next move).history (r.next move).queue := by
  cases reached : r.staged move with
  | some q =>
    obtain ⟨indexed, kept⟩ := sound.staged reached
    rw [next_staged reached]
    exact carried.evictLoop (carried.staged holds reached) kept indexed _
  | none =>
    cases move with
    | ownerOf session resolved =>
      obtain ⟨cache, frame⟩ := EventQueue.ownerOf_frame (q := r.queue) session resolved
      simp only [EventRing.next, frame]
      exact carried.marked holds ⟨⟨rfl, rfl, rfl, rfl, rfl⟩, rfl, rfl⟩ rfl
    | reserve notice owner => exact carried.reserve holds sound.kept notice owner
    | supersede id =>
      simp only [EventRing.next]
      split
      · exact carried.stamp holds (EventQueue.mark_marked id .superseded)
          (EventQueue.mark_seqs id .superseded)
      · exact holds
    | settle =>
      simp only [EventRing.staged] at reached
      split at reached
      · cases reached
      next empty =>
        simp only [EventRing.next, empty]
        exact holds
    | resolve decision reason =>
      simp only [EventRing.staged] at reached
      split at reached
      next empty =>
        simp only [EventRing.next, EventQueue.resolveDecision, empty, if_true]
        exact carried.stamp holds (.refl _) rfl
      next => cases reached
    | markAnswered id =>
      simp only [EventRing.staged] at reached
      split at reached
      · cases reached
      next miss =>
        simp only [EventRing.next, EventQueue.markAnswered]
        split
        · exact carried.stamp holds (.refl _) rfl
        next e found =>
          have loose : id ∉ r.queue.pinned := fun pin => miss ⟨by simp [found], pin⟩
          rw [if_neg loose]
          exact carried.stamp holds (EventQueue.mark_marked id .answered)
            (EventQueue.mark_seqs id .answered)
    | forget session => exact absurd rfl (keeps session)

end Carried

theorem marks_carried : Carried EventQueue.Marks where
  stamp marks marked numbers := marks.stamp marked numbers
  reserve marks kept notice owner := marks.reserve kept notice owner
  evictLoop marks kept indexed rounds := marks.evictLoop kept indexed rounds

theorem sessionMarks_carried : Carried EventQueue.SessionMarks where
  stamp marks marked numbers := marks.stamp marked numbers
  reserve marks kept notice owner := marks.reserve kept notice owner
  evictLoop marks kept indexed rounds := marks.evictLoop kept indexed rounds

/-- What a run without a forget keeps. -/
structure Remembers (r : EventRing) : Prop extends Sound r where
  marks : EventQueue.Marks r.history r.queue

theorem Remembers.next (remembers : Remembers r) {move : QueueMove} (keeps : Forgetless move) :
    Remembers (r.next move) :=
  ⟨remembers.toSound.next move, marks_carried.next remembers.toSound remembers.marks keeps⟩

theorem remembers_start (bound ownerFloor : ℕ) : Remembers (start bound ownerFloor) where
  toSound := sound_start bound ownerFloor
  marks := EventQueue.marks_empty bound ownerFloor

theorem Remembers.after (remembers : Remembers r) {moves : List QueueMove}
    (keeps : ∀ move ∈ moves, Forgetless move) : Remembers (machine.after r moves) :=
  machine.invariant_along Remembers (fun _ _ kept forgetless => kept.next forgetless) remembers
    (machine.along_of_forall keeps)

/-! ### Delivery -/

/-- What a reader of the scope is owed at a cursor: the answer is about every event ever
published. -/
def Owed (r : EventRing) (a : ℕ) (scope : Scope) : Delivery → Prop
  | .cursorExpired => ∃ e ∈ r.history, e.inScope scope ∧ a < e.seq ∧ r.queue.Evicted e
  | .event e =>
    (∀ x ∈ r.history, x.inScope scope → a < x.seq → ¬ r.queue.Evicted x) ∧
    e ∈ r.history ∧ e.inScope scope ∧ a < e.seq ∧
    ∀ x ∈ r.history, x.inScope scope → a < x.seq → e.seq ≤ x.seq
  | .nothing => ∀ x ∈ r.history, x.inScope scope → x.seq ≤ a

/-- One answer is owed. -/
theorem Remembers.owed_unique (remembers : Remembers r) {a : ℕ} {scope : Scope} {d d' : Delivery}
    (owed : r.Owed a scope d) (owed' : r.Owed a scope d') : d = d' := by
  cases d with
  | cursorExpired =>
    obtain ⟨e, known, inside, above, gone⟩ := owed
    cases d' with
    | cursorExpired => rfl
    | event x => exact absurd gone (owed'.1 e known inside above)
    | nothing => exact absurd (owed' e known inside) (Nat.not_le.mpr above)
  | event e =>
    obtain ⟨retained, known, inside, above, least⟩ := owed
    cases d' with
    | cursorExpired =>
      obtain ⟨x, known', inside', above', gone⟩ := owed'
      exact absurd gone (retained x known' inside' above')
    | event x =>
      obtain ⟨-, known', inside', above', least'⟩ := owed'
      have same : e.seq = x.seq :=
        le_antisymm (least x known' inside' above') (least' e known inside above)
      have only : e = x := List.inj_on_of_nodup_map
        (remembers.kept.ascending.imp fun less => less.ne) known known' same
      rw [only]
    | nothing => exact absurd (owed' e known inside) (Nat.not_le.mpr above)
  | nothing =>
    cases d' with
    | cursorExpired =>
      obtain ⟨x, known, inside, above, -⟩ := owed'
      exact absurd (owed x known inside) (Nat.not_le.mpr above)
    | event x =>
      obtain ⟨-, known, inside, above, -⟩ := owed'
      exact absurd (owed x known inside) (Nat.not_le.mpr above)
    | nothing => rfl

/-- What the queue answers is owed, where the mark of the scope is right. -/
theorem Sound.latestAfter_owed (sound : Sound r) {a : ℕ} {scope : Scope}
    (mark : a < r.queue.evictedIn scope ↔
      ∃ e ∈ r.history, e.inScope scope ∧ a < e.seq ∧ r.queue.Evicted e) :
    r.Owed a scope (r.queue.latestAfter a scope) := by
  simp only [EventQueue.latestAfter, EventQueue.expired, decide_eq_true_eq]
  by_cases expired : a < r.queue.evictedIn scope
  · rw [if_pos expired]
    exact mark.mp expired
  · rw [if_neg expired]
    -- nothing above the cursor is evicted, so the log has all of it
    have retained : ∀ x ∈ r.history, x.inScope scope → a < x.seq → ¬ r.queue.Evicted x :=
      fun x known inside above gone => expired (mark.mpr ⟨x, known, inside, above, gone⟩)
    have inLog : ∀ x ∈ r.history, x.inScope scope → a < x.seq → x ∈ r.queue.events := by
      intro x known inside above
      rcases sound.kept.gone x known with member | ⟨-, gone⟩
      · exact member
      · exact absurd gone (retained x known inside above)
    cases found : r.queue.firstAfter a scope with
    | some e =>
      have hit := List.find?_some found
      simp only [decide_eq_true_eq] at hit
      have member : e ∈ r.queue.events := List.mem_of_find?_eq_some found
      refine ⟨retained, sound.kept.inside e member, hit.2, hit.1, ?_⟩
      intro x known inside above
      by_contra less
      obtain ⟨before, after, split, passed⟩ := (List.find?_eq_some_iff_append.mp found).2
      have order := sound.indexed.ascending
      rw [split, List.map_append, List.map_cons] at order
      obtain ⟨-, tail, -⟩ := List.pairwise_append.mp order
      have place := inLog x known inside above
      rw [split] at place
      rcases List.mem_append.mp place with early | rest
      · have missed := passed x early
        simp [inside, above] at missed
      · rcases List.mem_cons.mp rest with rfl | later
        · exact less le_rfl
        · exact less ((List.pairwise_cons.mp tail).1 x.seq (List.mem_map_of_mem later)).le
    | none =>
      intro x known inside
      by_contra above
      have more : a < x.seq := Nat.lt_of_not_le above
      have missed := List.find?_eq_none.mp found x (inLog x known inside more)
      exact missed (decide_eq_true ⟨more, inside⟩)

theorem Remembers.latestAfter_owed (remembers : Remembers r) (a : ℕ) (scope : Scope) :
    r.Owed a scope (r.queue.latestAfter a scope) :=
  remembers.toSound.latestAfter_owed (remembers.marks.lt_evictedIn a scope)

/-! ### Waiting -/

/-- The rounds of a waiter that holds the lock for each look and gives it up in between; the last
look is the one after the deadline. The run continues to where the answer was read. -/
def wait (r : EventRing) (a : ℕ) (scope : Scope) : List (List QueueMove) → Delivery × EventRing
  | [] => (r.queue.latestAfter a scope, r)
  | moves :: rest =>
    match r.queue.latestAfter a scope with
    | .nothing => wait (machine.after r moves) a scope rest
    | answer => (answer, r)

/-- `wait_event` and `wait_event_any` refuse a scope that could be global. -/
def waitEvent (r : EventRing) (a : ℕ) (scope : Scope) (rounds : List (List QueueMove)) :
    Option (Delivery × EventRing) :=
  match scope with
  | .all => none
  | .session id => if id = "" then none else some (r.wait a scope rounds)
  | .sessions ids => if ids = ∅ then none else some (r.wait a scope rounds)

/-- A wait answers with what is owed when it looks last, and gives up after its last round only. -/
theorem Remembers.wait_owed (remembers : Remembers r) (a : ℕ) (scope : Scope)
    {rounds : List (List QueueMove)} (keeps : ∀ moves ∈ rounds, ∀ move ∈ moves, Forgetless move) :
    (r.wait a scope rounds).2.Owed a scope (r.wait a scope rounds).1 ∧
      Remembers (r.wait a scope rounds).2 ∧
      ((r.wait a scope rounds).1 = .nothing →
        (r.wait a scope rounds).2 = machine.after r rounds.flatten) := by
  induction rounds generalizing r with
  | nil => exact ⟨remembers.latestAfter_owed a scope, remembers, fun _ => rfl⟩
  | cons moves rest ih =>
    have owed := remembers.latestAfter_owed a scope
    simp only [wait]
    cases answer : r.queue.latestAfter a scope with
    | cursorExpired =>
      rw [answer] at owed
      exact ⟨owed, remembers, nofun⟩
    | event e =>
      rw [answer] at owed
      exact ⟨owed, remembers, nofun⟩
    | nothing =>
      have onward := remembers.after (keeps moves List.mem_cons_self)
      obtain ⟨owedLater, kept, last⟩ :=
        ih onward fun later member => keeps later (List.mem_cons_of_mem _ member)
      refine ⟨owedLater, kept, fun gaveUp => ?_⟩
      rw [last gaveUp, List.flatten_cons, machine.after_append]

/-! ### Resyncing -/

def Publishless : QueueMove → Prop
  | .reserve _ _ => False
  | _ => True

/-- Without a publish nothing is new to the history but marks. -/
theorem seqs_next {move : QueueMove} (quiet : Publishless move) {e : Event}
    (known : e ∈ (r.next move).history) :
    ∃ x ∈ r.history, x.seq = e.seq ∧ x.toNotice = e.toNotice := by
  have marked : ∀ (p : Event → Prop) [DecidablePred p] (reason : ResolvedReason),
      e ∈ stamp p reason r.history →
        ∃ x ∈ r.history, x.seq = e.seq ∧ x.toNotice = e.toNotice := by
    intro p _ reason member
    obtain ⟨x, old, rfl⟩ := mem_stamp.mp member
    exact ⟨x, old, (stamped_seq x).symm, (stamped_toNotice x).symm⟩
  cases move with
  | reserve => cases quiet
  | ownerOf => exact ⟨e, known, rfl, rfl⟩
  | supersede id =>
    simp only [next] at known
    split at known
    · exact marked _ _ known
    · exact ⟨e, known, rfl, rfl⟩
  | settle =>
    simp only [next] at known
    split at known <;> exact ⟨e, known, rfl, rfl⟩
  | resolve decision reason => exact marked _ _ known
  | markAnswered id => exact marked _ _ known
  | forget session =>
    simp only [next] at known
    split at known
    · exact ⟨e, List.mem_of_mem_filter known, rfl, rfl⟩
    · exact ⟨e, known, rfl, rfl⟩

theorem seqs_after {moves : List QueueMove} (quiet : ∀ move ∈ moves, Publishless move) {e : Event}
    (known : e ∈ (machine.after r moves).history) :
    ∃ x ∈ r.history, x.seq = e.seq ∧ x.toNotice = e.toNotice := by
  induction moves generalizing r with
  | nil => exact ⟨e, known, rfl, rfl⟩
  | cons move rest ih =>
    obtain ⟨x, old, seq, notice⟩ :=
      ih (fun later member => quiet later (List.mem_cons_of_mem _ member)) known
    obtain ⟨y, before, seq', notice'⟩ := seqs_next (quiet move List.mem_cons_self) old
    exact ⟨y, before, seq'.trans seq, notice'.trans notice⟩

/-- A cursor at the last number of its scope does not expire before the next publish. -/
theorem Remembers.resync (remembers : Remembers r) (scope : Scope) {moves : List QueueMove}
    (keeps : ∀ move ∈ moves, Forgetless move) (quiet : ∀ move ∈ moves, Publishless move) :
    (machine.after r moves).queue.latestAfter (r.queue.latestSeq scope) scope ≠
      .cursorExpired := by
  intro expired
  have owed := (remembers.after keeps).latestAfter_owed (r.queue.latestSeq scope) scope
  rw [expired] at owed
  obtain ⟨e, known, inside, above, -⟩ := owed
  obtain ⟨x, old, seq, notice⟩ := seqs_after quiet known
  have session : x.sessionId = e.sessionId := congrArg Notice.sessionId notice
  have same : x.inScope scope := by
    cases scope with
    | all => exact trivial
    | session id =>
      have mine : e.sessionId = id := inside
      exact session.trans mine
    | sessions ids =>
      have member : e.sessionId ∈ ids := inside
      exact (session ▸ member : x.sessionId ∈ ids)
  have bounded := remembers.marks.le_latestSeq old same
  rw [seq] at bounded
  exact absurd bounded (Nat.not_le.mpr above)

/-- Over every run without a forget, in every scope and at every cursor: a read and a wait answer
that the cursor is expired exactly where an event of the scope above it was evicted, and otherwise
deliver the lowest one above it of all ever published, or nothing where there is none. A cursor at
the last number of its scope is not expired before further publishes. -/
theorem cursor_expires_iff_evicted (bound ownerFloor : ℕ) (moves : List QueueMove)
    (keeps : ∀ move ∈ moves, Forgetless move) (scope : Scope) (a : ℕ) :
    (∀ answer, (machine.after (start bound ownerFloor) moves).queue.latestAfter a scope = answer ↔
      (machine.after (start bound ownerFloor) moves).Owed a scope answer) ∧
    (∀ rounds answer final, (∀ moves ∈ rounds, ∀ move ∈ moves, Forgetless move) →
      (machine.after (start bound ownerFloor) moves).waitEvent a scope rounds =
        some (answer, final) →
      (∀ other, answer = other ↔ final.Owed a scope other) ∧
      (answer = .nothing →
        final = machine.after (machine.after (start bound ownerFloor) moves) rounds.flatten)) ∧
    ∀ later, (∀ move ∈ later, Forgetless move) → (∀ move ∈ later, Publishless move) →
      (machine.after (start bound ownerFloor) (moves ++ later)).queue.latestAfter
        ((machine.after (start bound ownerFloor) moves).queue.latestSeq scope) scope ≠
          .cursorExpired := by
  have remembers := (remembers_start bound ownerFloor).after keeps
  have exact_ : ∀ {r : EventRing} {d : Delivery}, Remembers r → r.Owed a scope d →
      ∀ other, d = other ↔ r.Owed a scope other := by
    intro r d kept owed other
    exact ⟨fun same => same ▸ owed, kept.owed_unique owed⟩
  refine ⟨exact_ remembers (remembers.latestAfter_owed a scope), ?_, ?_⟩
  · intro rounds answer final quiet waited
    have allowed : (machine.after (start bound ownerFloor) moves).wait a scope rounds =
        (answer, final) := by
      cases scope with
      | all => cases waited
      | session id =>
        simp only [waitEvent] at waited
        split at waited
        · cases waited
        · exact Option.some.inj waited
      | sessions ids =>
        simp only [waitEvent] at waited
        split at waited
        · cases waited
        · exact Option.some.inj waited
    obtain ⟨owed, kept, last⟩ := remembers.wait_owed a scope quiet
    rw [allowed] at owed kept last
    exact ⟨exact_ kept owed, last⟩
  · intro later forgetless quiet
    rw [machine.after_append]
    exact remembers.resync scope forgetless quiet

/-- Three ended turns in a ring of one evictable event. -/
def threeTurns : List QueueMove :=
  let ended : Notice := { sessionId := "s", kind := .done }
  [.reserve ended none, .settle, .reserve ended none, .settle, .reserve ended none, .settle]

theorem cursor_expires_iff_evicted_overrun :
    (machine.after (start 1 0) threeTurns).queue.latestAfter 0 (.session "s") =
      .cursorExpired := by
  have forgetless : ∀ move ∈ threeTurns, Forgetless move := by
    simp [threeTurns, Forgetless]
  refine ((cursor_expires_iff_evicted 1 0 threeTurns forgetless (.session "s") 0).1 _).mpr ?_
  refine ⟨{ sessionId := "s", kind := .done, seq := 1 }, ?_, rfl, by decide, ?_⟩
  · decide
  · unfold EventQueue.Evicted
    decide

end EventRing

end Nelix.Daemon
