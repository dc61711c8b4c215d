import Nelix.Daemon.Events

/-!
# The indexes of the event queue

A publish holds its event in the log before the event is in any index, and its hook may publish
and resolve in turn, so several events can be between the two at once. `Indexed busy q` says what
the pin index, the decision index and the owners' histories hold while the publishes of `busy` are
under way: every other event of the log, in the one place its kind and resolution give it.
-/
namespace Nelix.Daemon

/-! ### Lists under keys -/

section Index

variable {κ : Type*} [DecidableEq κ]

/-- How many ids an index holds. -/
def total (index : AList fun _ : κ => List EventId) : ℕ :=
  (index.entries.map fun entry => entry.2.length).sum

private theorem sum_kerase (key : κ) (entries : List (Sigma fun _ : κ => List EventId)) :
    (entries.map fun entry => entry.2.length).sum =
      ((entries.dlookup key).getD []).length +
        ((entries.kerase key).map fun entry => entry.2.length).sum := by
  induction entries with
  | nil => simp
  | cons first rest ih =>
    obtain ⟨name, ids⟩ := first
    by_cases same : key = name
    · subst same
      simp
    · rw [List.dlookup_cons_ne _ _ same, List.kerase_cons_ne same, List.map_cons, List.map_cons,
        List.sum_cons, List.sum_cons, ih]
      omega

theorem total_erase (index : AList fun _ : κ => List EventId) (key : κ) :
    total index = (listAt index key).length + total (index.erase key) :=
  sum_kerase key index.entries

theorem total_putList (index : AList fun _ : κ => List EventId) (key : κ) (ids : List EventId) :
    total (putList index key ids) = ids.length + total (index.erase key) := by
  simp only [putList]
  by_cases none : ids = []
  · simp [none]
  · rw [if_neg none, total, AList.entries_insert, List.map_cons, List.sum_cons]
    rfl

/-- No key is kept without an id. -/
theorem putList_filled {index : AList fun _ : κ => List EventId}
    (filled : ∀ key, index.lookup key ≠ some []) (key other : κ) (ids : List EventId) :
    (putList index key ids).lookup other ≠ some [] := by
  simp only [putList]
  by_cases same : other = key
  · subst same
    by_cases none : ids = []
    · rw [if_pos none, AList.lookup_erase]
      exact Option.some_ne_none _ |>.symm
    · rw [if_neg none, AList.lookup_insert]
      simpa using none
  · split
    · rw [AList.lookup_erase_ne same]
      exact filled other
    · rw [AList.lookup_insert_ne same]
      exact filled other

end Index

namespace EventQueue

variable {busy : List EventId} {q q' : EventQueue}

/-! ### Looking up, evicting, marking -/

/-- The unresolved respondable events that the log retains. -/
def IsOpen (q : EventQueue) (e : Event) : Prop := e ∈ q.events ∧ e.isOpen = true

theorem find_some {id : EventId} {e : Event} (found : q.find id = some e) :
    e ∈ q.events ∧ e.seq = id := by
  refine ⟨List.mem_of_find?_eq_some found, ?_⟩
  simpa using List.find?_some found

theorem find_none {id : EventId} (absent : q.find id = none) : ∀ e ∈ q.events, e.seq ≠ id := by
  intro e member same
  exact absurd (List.find?_eq_none.mp absent e member) (by simp [same])

theorem pickVictim_some {victim : Event} (picked : q.pickVictim = some victim) :
    victim ∈ q.events ∧ victim.seq ∉ q.pinned ∧ victim.seq ∈ q.histOf victim.owner := by
  have chosen := List.find?_some picked
  simp only [decide_eq_true_eq] at chosen
  exact ⟨List.mem_of_find?_eq_some picked, chosen.1, chosen.2.2⟩

/-- The loop ends within the bound, or with every evictable event under its owner's floor. -/
theorem evict_done (q : EventQueue) :
    q.evictIfNeeded.evictableCount ≤ q.evictIfNeeded.bound ∨ q.evictIfNeeded.pickVictim = none := by
  suffices done : ∀ rounds (q : EventQueue), q.events.length ≤ rounds →
      (evictLoop rounds q).evictableCount ≤ (evictLoop rounds q).bound ∨
        (evictLoop rounds q).pickVictim = none from done _ q le_rfl
  intro rounds
  induction rounds with
  | zero =>
    intro q short
    have empty : q.events = [] := List.eq_nil_of_length_eq_zero (Nat.le_zero.mp short)
    exact .inr (by simp [evictLoop, pickVictim, empty])
  | succ rounds ih =>
    intro q short
    simp only [evictLoop]
    split
    next within => exact .inl within
    next =>
      split
      next victim picked =>
        refine ih (q.drop victim) ?_
        have member := (pickVictim_some picked).1
        have shorter : (q.drop victim).events.length < q.events.length :=
          List.length_filter_lt_length_iff_exists.mpr ⟨victim, member, by simp⟩
        omega
      next none => exact .inr none

theorem mem_mark {id : EventId} {reason : ResolvedReason} {e : Event} :
    e ∈ (q.mark id reason).events ↔
      (e ∈ q.events ∧ e.seq ≠ id) ∨
        ∃ e' ∈ q.events, e'.seq = id ∧ e = { e' with resolvedReason := some reason } := by
  simp only [mark, List.mem_map]
  constructor
  · rintro ⟨e', member, rfl⟩
    by_cases same : e'.seq = id
    · exact .inr ⟨e', member, same, by simp [same]⟩
    · exact .inl ⟨by simpa [same] using member, by simp [same]⟩
  · rintro (⟨member, other⟩ | ⟨e', member, same, rfl⟩)
    · exact ⟨e, member, by simp [other]⟩
    · exact ⟨e', member, by simp [same]⟩

theorem isOpen_mark {id : EventId} {reason : ResolvedReason} (e : Event) :
    (q.mark id reason).IsOpen e ↔ q.IsOpen e ∧ e.seq ≠ id := by
  simp only [IsOpen, mem_mark]
  constructor
  · rintro ⟨⟨member, other⟩ | ⟨e', -, -, rfl⟩, isOpen⟩
    · exact ⟨⟨member, isOpen⟩, other⟩
    · simp [Event.isOpen] at isOpen
  · rintro ⟨⟨member, isOpen⟩, other⟩
    exact ⟨.inl ⟨member, other⟩, isOpen⟩

theorem mark_seqs (id : EventId) (reason : ResolvedReason) :
    (q.mark id reason).events.map (·.seq) = q.events.map (·.seq) := by
  simp only [mark, List.map_map]
  refine List.map_congr_left fun e _ => ?_
  simp only [Function.comp]
  split <;> rfl

@[simp] theorem unpin_events (e : Event) : (q.unpin e).events = q.events := by
  simp only [unpin, unindexDecision, indexEvictable]
  split <;> rfl

theorem isOpen_resolveOne (id : EventId) (reason : ResolvedReason) (e : Event) :
    (resolveOne reason q id).IsOpen e ↔ q.IsOpen e ∧ e.seq ≠ id := by
  simp only [resolveOne]
  split
  next e' found =>
    have marked : (q.mark id reason).IsOpen e ↔ q.IsOpen e ∧ e.seq ≠ id := isOpen_mark e
    rw [← marked]
    simp only [IsOpen, unpin_events]
  next absent => exact ⟨fun isOpen => ⟨isOpen, find_none absent e isOpen.1⟩, And.left⟩

theorem ownerOf_frame (session : SessionId) (resolved : Option String) :
    ∃ cache, (q.ownerOf session resolved).1 = { q with ownerCache := cache } := by
  simp only [ownerOf]
  split
  · exact ⟨q.ownerCache, rfl⟩
  · split
    · exact ⟨_, rfl⟩
    · exact ⟨q.ownerCache, rfl⟩

theorem indexNew_events (e : Event) : (q.indexNew e).events = q.events := by
  simp only [indexNew, indexDecision, indexEvictable]
  split
  · split <;> rfl
  · rfl

/-! ### Histories -/

theorem mem_insertSeq {hist : List EventId} {id x : EventId} :
    x ∈ insertSeq hist id ↔ x = id ∨ x ∈ hist := by
  simp only [insertSeq]
  split
  · split
    · simp [or_comm]
    · simp
  · simp

theorem insertSeq_perm (hist : List EventId) (id : EventId) : (insertSeq hist id).Perm (id :: hist) := by
  have inside : (hist.orderedInsert (· ≤ ·) id).Perm (id :: hist) := List.perm_orderedInsert _ _ _
  simp only [insertSeq]
  split
  · split
    · exact List.perm_append_singleton id hist
    · exact inside
  · exact inside

private theorem orderedInsert_ascending {hist : List EventId} {id : EventId}
    (sorted : hist.Pairwise (· < ·)) (new : id ∉ hist) :
    (hist.orderedInsert (· ≤ ·) id).Pairwise (· < ·) := by
  induction hist with
  | nil => simp
  | cons first rest ih =>
    obtain ⟨least, ascending⟩ := List.pairwise_cons.mp sorted
    have differ : id ≠ first := fun same => new (same ▸ List.mem_cons_self)
    have absent : id ∉ rest := fun later => new (List.mem_cons_of_mem _ later)
    rw [List.orderedInsert_cons]
    by_cases before : id ≤ first
    · rw [if_pos before]
      have low : id < first := lt_of_le_of_ne before differ
      refine List.pairwise_cons.mpr ⟨?_, sorted⟩
      intro x member
      rcases List.mem_cons.mp member with rfl | later
      · exact low
      · exact low.trans (least x later)
    · rw [if_neg before]
      refine List.pairwise_cons.mpr ⟨?_, ih ascending absent⟩
      intro x member
      rcases (List.mem_orderedInsert _).mp member with rfl | later
      · exact Nat.lt_of_not_le before
      · exact least x later

/-- A history stays in ascending order, wherever the new event belongs. -/
theorem insertSeq_ascending {hist : List EventId} {id : EventId}
    (sorted : hist.Pairwise (· < ·)) (new : id ∉ hist) :
    (insertSeq hist id).Pairwise (· < ·) := by
  simp only [insertSeq]
  split
  next last final =>
    split
    next newest =>
      -- every entry is at most the last one
      refine List.pairwise_append.mpr ⟨sorted, List.pairwise_singleton _ _, ?_⟩
      intro x member y single
      rw [List.mem_singleton.mp single]
      obtain ⟨init, rfl⟩ := List.getLast?_eq_some_iff.mp final
      rcases List.mem_append.mp member with early | latest
      · exact ((List.pairwise_append.mp sorted).2.2 x early last (by simp)).trans newest
      · rw [List.mem_singleton.mp latest]
        exact newest
    next => exact orderedInsert_ascending sorted new
  next => exact orderedInsert_ascending sorted new

theorem histOf_indexEvictable (e : Event) (owner : Option String) :
    (q.indexEvictable e).histOf owner =
      if owner = e.owner then insertSeq (q.histOf e.owner) e.seq else q.histOf owner := by
  simp only [indexEvictable, histOf, listAt_putList]

theorem histOf_dropHist (e : Event) (owner : Option String) :
    (q.dropHist e).histOf owner =
      if owner = e.owner then (q.histOf e.owner).erase e.seq else q.histOf owner := by
  simp only [dropHist, histOf, listAt_putList]

/-! ### Events by number -/

/-- The log has an event of this number, and it is as `p` says. -/
def Has (q : EventQueue) (id : EventId) (p : Event → Prop) : Prop :=
  ∃ e ∈ q.events, e.seq = id ∧ p e

theorem has_reserve {n : Notice} {owner : Option String} {id : EventId} {p : Event → Prop} :
    (q.reserve n owner).1.Has id p ↔
      q.Has id p ∨ (id = q.nextSeq ∧ p (q.reserve n owner).2) := by
  simp only [Has, reserve, List.mem_append, List.mem_singleton]
  constructor
  · rintro ⟨e, old | rfl, rfl, holds⟩
    · exact .inl ⟨e, old, rfl, holds⟩
    · exact .inr ⟨rfl, holds⟩
  · rintro (⟨e, old, rfl, holds⟩ | ⟨rfl, holds⟩)
    · exact ⟨e, .inl old, rfl, holds⟩
    · exact ⟨_, .inr rfl, rfl, holds⟩

theorem has_mark {marked id : EventId} {reason : ResolvedReason} {p : Event → Prop} :
    (q.mark marked reason).Has id p ↔
      q.Has id fun e => p (if id = marked then { e with resolvedReason := some reason } else e) := by
  simp only [Has, mark, List.mem_map]
  constructor
  · rintro ⟨_, ⟨e, member, rfl⟩, same, holds⟩
    have number : e.seq = id := by
      rw [← same]
      split <;> rfl
    subst number
    exact ⟨e, member, rfl, holds⟩
  · rintro ⟨e, member, rfl, holds⟩
    refine ⟨_, ⟨e, member, rfl⟩, ?_, holds⟩
    split <;> rfl

theorem has_without {gone id : EventId} {p : Event → Prop} :
    ({ q with events := q.events.filter (·.seq ≠ gone) } : EventQueue).Has id p ↔
      id ≠ gone ∧ q.Has id p := by
  simp only [Has, List.mem_filter, decide_eq_true_eq]
  constructor
  · rintro ⟨e, ⟨member, other⟩, rfl, holds⟩
    exact ⟨other, e, member, rfl, holds⟩
  · rintro ⟨other, e, member, rfl, holds⟩
    exact ⟨e, ⟨member, other⟩, rfl, holds⟩

/-! ### Forgetting -/

/-- One round of `forget_session`, with the event taken out of the log at once. -/
def forgetEvent (q : EventQueue) (e : Event) : EventQueue :=
  { q.forgetOne e with events := q.events.filter (·.seq ≠ e.seq) }

private theorem forgetOne_frame (log : List Event) (e : Event) :
    ({ q with events := log } : EventQueue).forgetOne e =
      { q.forgetOne e with events := log } := by
  by_cases pin : e.seq ∈ q.pinned
  · simp only [forgetOne, pin, if_true, unindexDecision]
    cases e.decisionId <;> rfl
  · simp only [forgetOne, pin, if_false]
    by_cases inside : e.seq ∈ q.histOf e.owner
    · rw [if_pos inside, if_pos (by exact inside)]
      rfl
    · rw [if_neg inside, if_neg (by exact inside)]

private theorem forgetAll_frame (es log : List Event) :
    es.foldl forgetOne ({ q with events := log } : EventQueue) =
      { es.foldl forgetOne q with events := log } := by
  induction es generalizing q with
  | nil => rfl
  | cons e rest ih => rw [List.foldl_cons, forgetOne_frame, ih, List.foldl_cons]

private theorem forgetAll_events (es : List Event) : (es.foldl forgetOne q).events = q.events := by
  have frame := forgetAll_frame (q := q) es q.events
  have same := congrArg (fun swept : EventQueue => swept.events) frame
  exact same

theorem forgetSession_events (q : EventQueue) (session : SessionId) :
    (q.forgetSession session).events = q.events.filter (·.sessionId ≠ session) := by
  rw [forgetSession]
  dsimp only
  rw [forgetAll_events]

private theorem forgetEvents_events (es : List Event) :
    (es.foldl forgetEvent q).events = q.events.filter fun e => decide (e.seq ∉ es.map (·.seq)) := by
  induction es generalizing q with
  | nil => simp
  | cons e rest ih =>
    rw [List.foldl_cons, ih, forgetEvent, List.filter_filter]
    refine List.filter_congr fun x _ => ?_
    simp only [List.map_cons, List.mem_cons, not_or, ← Bool.decide_and]
    exact decide_eq_decide.mpr and_comm

private theorem forgetEvents_eq (es : List Event) :
    es.foldl forgetEvent q =
      { es.foldl forgetOne q with events := (es.foldl forgetEvent q).events } := by
  induction es generalizing q with
  | nil => rfl
  | cons e rest ih =>
    rw [List.foldl_cons, ih, List.foldl_cons, forgetEvent, forgetAll_frame]

/-- The sweep and the cut of the log, one event at a time. -/
theorem forgetSession_eq (q : EventQueue) (session : SessionId)
    (unique : (q.events.map (·.seq)).Nodup) :
    q.forgetSession session =
      { (q.events.filter (·.sessionId = session)).foldl forgetEvent q with
        ownerCache := (q.forgetSession session).ownerCache
        lastSeqBySession := (q.forgetSession session).lastSeqBySession
        evictedHighBySession := (q.forgetSession session).evictedHighBySession } := by
  have log : (q.forgetSession session).events =
      ((q.events.filter (·.sessionId = session)).foldl forgetEvent q).events := by
    rw [forgetEvents_events, forgetSession_events]
    refine List.filter_congr fun e member => decide_eq_decide.mpr (not_congr ?_)
    simp only [List.mem_map, List.mem_filter, decide_eq_true_eq]
    constructor
    · exact fun mine => ⟨e, ⟨member, mine⟩, rfl⟩
    · rintro ⟨x, ⟨inside, mine⟩, same⟩
      exact List.inj_on_of_nodup_map unique inside member same ▸ mine
  rw [forgetEvents_eq, ← log]
  rfl

/-! ### The invariant -/

/-- Each index holds exactly the events that belong there, apart from those whose publish is
still under way. -/
structure Indexed (busy : List EventId) (q : EventQueue) : Prop where
  ascending : (q.events.map (·.seq)).Pairwise (· < ·)
  below : ∀ e ∈ q.events, e.seq < q.nextSeq
  nested : busy.Nodup
  retained : ∀ id ∈ busy, q.Has id fun _ => True
  pinned : ∀ id, id ∈ q.pinned ↔ id ∉ busy ∧ q.Has id fun e => e.isOpen = true
  decided : ∀ d id, id ∈ q.idsOf d ↔
    id ∉ busy ∧ q.Has id fun e => e.isOpen = true ∧ e.decisionId = some d
  once : ∀ d, (q.idsOf d).Nodup
  listed : ∀ owner id, id ∈ q.histOf owner ↔
    id ∉ busy ∧ q.Has id fun e => e.isOpen = false ∧ e.owner = owner
  sorted : ∀ owner, (q.histOf owner).Pairwise (· < ·)
  filled : ∀ owner, q.ownerHist.lookup owner ≠ some []
  count : q.evictableCount = total q.ownerHist

theorem indexed_empty (bound ownerFloor : ℕ) :
    Indexed [] { bound := bound, ownerFloor := ownerFloor } where
  ascending := List.Pairwise.nil
  below := by simp
  nested := List.nodup_nil
  retained := by simp
  pinned id := by simp [Has]
  decided d id := by simp [idsOf, listAt, Has]
  once d := by simp [idsOf, listAt]
  listed owner id := by simp [histOf, listAt, Has]
  sorted owner := by simp [histOf, listAt]
  filled owner := by simp
  count := rfl

namespace Indexed

theorem same_event (indexed : Indexed busy q) {a b : Event} (ha : a ∈ q.events)
    (hb : b ∈ q.events) (same : a.seq = b.seq) : a = b :=
  List.inj_on_of_nodup_map (indexed.ascending.imp fun less => less.ne) ha hb same

theorem has_iff (indexed : Indexed busy q) {e : Event} (member : e ∈ q.events) {p : Event → Prop} :
    q.Has e.seq p ↔ p e := by
  constructor
  · rintro ⟨e', member', same, holds⟩
    exact indexed.same_event member' member same ▸ holds
  · intro holds
    exact ⟨e, member, rfl, holds⟩

theorem pinned_iff (indexed : Indexed busy q) {e : Event} (member : e ∈ q.events) :
    e.seq ∈ q.pinned ↔ e.seq ∉ busy ∧ e.isOpen = true := by
  rw [indexed.pinned, indexed.has_iff member]

theorem listed_iff (indexed : Indexed busy q) {e : Event} (member : e ∈ q.events)
    (owner : Option String) :
    e.seq ∈ q.histOf owner ↔ e.seq ∉ busy ∧ e.isOpen = false ∧ e.owner = owner := by
  rw [indexed.listed, indexed.has_iff member]

theorem find_iff (indexed : Indexed busy q) {id : EventId} {e : Event} :
    q.find id = some e ↔ e ∈ q.events ∧ e.seq = id := by
  constructor
  · exact find_some
  · rintro ⟨member, rfl⟩
    cases found : q.find e.seq with
    | none => exact absurd rfl (find_none found e member)
    | some e' =>
      obtain ⟨member', same⟩ := find_some found
      rw [indexed.same_event member' member same]

/-- The bucket of an owner, read off the log. -/
theorem histOf_eq (indexed : Indexed busy q) (owner : Option String) :
    q.histOf owner =
      (q.events.filter fun e => decide (e.seq ∉ busy ∧ e.isOpen = false ∧ e.owner = owner)).map
        (·.seq) := by
  have sublist := (List.filter_sublist (l := q.events)
    (p := fun e => decide (e.seq ∉ busy ∧ e.isOpen = false ∧ e.owner = owner))).map (·.seq)
  have sameIds : ∀ id, id ∈ q.histOf owner ↔ id ∈ (q.events.filter fun e =>
      decide (e.seq ∉ busy ∧ e.isOpen = false ∧ e.owner = owner)).map (·.seq) := by
    intro id
    rw [indexed.listed]
    simp only [List.mem_map, List.mem_filter, decide_eq_true_eq, Has]
    constructor
    · rintro ⟨old, e, member, rfl, closed⟩
      exact ⟨e, ⟨member, old, closed⟩, rfl⟩
    · rintro ⟨e, ⟨member, old, closed⟩, rfl⟩
      exact ⟨old, e, member, rfl, closed⟩
  -- two strictly ascending lists with the same members are one list
  have ascending := indexed.ascending.sublist sublist
  have perm := (List.perm_ext_iff_of_nodup ((indexed.sorted owner).imp fun less => less.ne)
    (ascending.imp fun less => less.ne)).mpr sameIds
  exact perm.eq_of_pairwise (fun a b _ _ less more => absurd less more.asymm)
    (indexed.sorted owner) ascending

/-! ### Publishing -/

theorem ownerOf (indexed : Indexed busy q) (session : SessionId) (resolved : Option String) :
    Indexed busy (q.ownerOf session resolved).1 := by
  obtain ⟨cache, frame⟩ := ownerOf_frame (q := q) session resolved
  rw [frame]
  exact { indexed with }

/-- The event of a new publish is in the log and in no index. -/
theorem reserve (indexed : Indexed busy q) (n : Notice) (owner : Option String) :
    Indexed (q.nextSeq :: busy) (q.reserve n owner).1 := by
  have early : ∀ id p, q.Has id p → id < q.nextSeq := by
    rintro id p ⟨e, member, rfl, -⟩
    exact indexed.below e member
  have settled : ∀ id p, (id ∉ q.nextSeq :: busy ∧ (q.reserve n owner).1.Has id p) ↔
      (id ∉ busy ∧ q.Has id p) := by
    intro id p
    rw [has_reserve, List.mem_cons, not_or]
    constructor
    · rintro ⟨⟨other, old⟩, has | ⟨same, -⟩⟩
      · exact ⟨old, has⟩
      · exact absurd same other
    · rintro ⟨old, has⟩
      exact ⟨⟨(early id p has).ne, old⟩, .inl has⟩
  exact
    { ascending := by
        simp only [EventQueue.reserve, List.map_append, List.map_cons, List.map_nil]
        refine List.pairwise_append.mpr ⟨indexed.ascending, List.pairwise_singleton _ _, ?_⟩
        intro id member next single
        obtain ⟨e, inside, rfl⟩ := List.mem_map.mp member
        rw [List.mem_singleton.mp single]
        exact indexed.below e inside
      below := by
        intro e member
        rcases List.mem_append.mp member with old | new
        · exact Nat.lt_succ_of_lt (indexed.below e old)
        · rw [List.mem_singleton.mp new]
          exact Nat.lt_succ_self _
      nested := by
        refine List.nodup_cons.mpr ⟨?_, indexed.nested⟩
        intro member
        exact (early _ _ (indexed.retained _ member)).ne rfl
      retained := by
        intro id member
        rw [has_reserve]
        rcases List.mem_cons.mp member with rfl | old
        · exact .inr ⟨rfl, trivial⟩
        · exact .inl (indexed.retained id old)
      pinned := fun id => (indexed.pinned id).trans (settled id _).symm
      decided := fun d id => (indexed.decided d id).trans (settled id _).symm
      once := indexed.once
      listed := fun owner id => (indexed.listed owner id).trans (settled id _).symm
      sorted := indexed.sorted
      filled := indexed.filled
      count := indexed.count }

/-- An event that is not pinned may be marked at any time: it is closed, or in its publish. -/
theorem mark (indexed : Indexed busy q) {id : EventId} (loose : id ∉ q.pinned)
    (reason : ResolvedReason) : Indexed busy (q.mark id reason) := by
  -- outside `busy` the event was closed before, and it is closed after
  have closed : ∀ e ∈ q.events, e.seq = id → e.seq ∉ busy → e.isOpen = false := by
    intro e member same old
    rw [← Bool.not_eq_true]
    intro isOpen
    exact loose (same ▸ (indexed.pinned_iff member).mpr ⟨old, isOpen⟩)
  have resolved : ∀ e : Event, ({ e with resolvedReason := some reason } : Event).isOpen = false := by
    intro e
    simp [Event.isOpen]
  have unmoved : ∀ x (p : Event → Prop) (r : Bool → Prop),
      (∀ e : Event, p { e with resolvedReason := some reason } ↔ p e) →
      ((x ∉ busy ∧ (q.mark id reason).Has x fun e => r e.isOpen ∧ p e) ↔
        (x ∉ busy ∧ q.Has x fun e => r e.isOpen ∧ p e)) := by
    intro x p r stable
    refine and_congr_right fun old => ?_
    rw [has_mark]
    refine exists_congr fun e => and_congr_right fun member => and_congr_right fun number => ?_
    beta_reduce
    by_cases same : x = id
    · rw [if_pos same, resolved, stable, closed e member (number.trans same) (number ▸ old)]
    · rw [if_neg same]
  exact
    { ascending := by rw [mark_seqs]; exact indexed.ascending
      below := by
        intro e member
        rcases mem_mark.mp member with ⟨old, -⟩ | ⟨e', old, -, rfl⟩
        · exact indexed.below e old
        · exact indexed.below e' old
      nested := indexed.nested
      retained := by
        intro x member
        obtain ⟨e, inside, number, -⟩ := indexed.retained x member
        exact has_mark.mpr ⟨e, inside, number, trivial⟩
      pinned := by
        intro x
        have same := unmoved x (fun _ => True) (· = true) fun _ => Iff.rfl
        simp only [and_true] at same
        exact (indexed.pinned x).trans same.symm
      decided := fun d x => (indexed.decided d x).trans
        (unmoved x (fun e => e.decisionId = some d) (· = true) fun _ => Iff.rfl).symm
      once := indexed.once
      listed := fun owner x => (indexed.listed owner x).trans
        (unmoved x (fun e => e.owner = owner) (· = false) fun _ => Iff.rfl).symm
      sorted := indexed.sorted
      filled := indexed.filled
      count := indexed.count }

/-! ### Classifying -/

private theorem count_indexEvictable (e : Event) (count : q.evictableCount = total q.ownerHist) :
    (q.indexEvictable e).evictableCount = total (q.indexEvictable e).ownerHist := by
  have longer := (insertSeq_perm (q.histOf e.owner) e.seq).length_eq
  have before := total_erase q.ownerHist e.owner
  simp only [indexEvictable, total_putList, longer, List.length_cons]
  rw [count, before]
  simp only [histOf]
  omega

private theorem idsOf_indexDecision (e : Event) (d : DecisionId) :
    (q.indexDecision e).idsOf d =
      if e.decisionId = some d then q.idsOf d ++ [e.seq] else q.idsOf d := by
  simp only [indexDecision]
  split
  next decision named =>
    simp only [idsOf, listAt_putList, named, Option.some.injEq]
    by_cases same : d = decision
    · simp [same]
    · simp [same, Ne.symm same]
  next unnamed => simp [unnamed]

/-- The hook is done: the event goes where its kind and resolution now put it. -/
theorem indexNew {e : Event} (indexed : Indexed (e.seq :: busy) q) (member : e ∈ q.events) :
    Indexed busy (q.indexNew e) := by
  obtain ⟨fresh, nested⟩ := List.nodup_cons.mp indexed.nested
  have log : (q.indexNew e).events = q.events := indexNew_events e
  have has : ∀ id p, (q.indexNew e).Has id p ↔ q.Has id p := by
    intro id p
    simp only [Has, log]
  have own : ∀ p, q.Has e.seq p ↔ p e := fun p => indexed.has_iff member
  have next : (q.indexNew e).nextSeq = q.nextSeq := by
    simp only [EventQueue.indexNew, indexDecision, indexEvictable]
    split
    · split <;> rfl
    · rfl
  by_cases isOpen : e.isOpen = true
  · have shape : q.indexNew e = ({ q with pinned := insert e.seq q.pinned }).indexDecision e := by
      simp only [EventQueue.indexNew, isOpen, if_true]
    have pins : (q.indexNew e).pinned = insert e.seq q.pinned := by
      rw [shape, indexDecision]
      split <;> rfl
    have hist : (q.indexNew e).ownerHist = q.ownerHist := by
      rw [shape, indexDecision]
      split <;> rfl
    have count : (q.indexNew e).evictableCount = q.evictableCount := by
      rw [shape, indexDecision]
      split <;> rfl
    have ids : ∀ d, (q.indexNew e).idsOf d =
        if e.decisionId = some d then q.idsOf d ++ [e.seq] else q.idsOf d := by
      intro d
      rw [shape, idsOf_indexDecision]
      rfl
    exact
      { ascending := by rw [log]; exact indexed.ascending
        below := by rw [log, next]; exact indexed.below
        nested := nested
        retained := fun id old => (has id _).mpr (indexed.retained id (List.mem_cons_of_mem _ old))
        pinned := by
          intro id
          rw [pins, Finset.mem_insert, indexed.pinned, has, List.mem_cons, not_or]
          by_cases same : id = e.seq
          · subst same
            simp [own, isOpen, fresh]
          · simp [same]
        decided := by
          intro d id
          have known := indexed.decided d id
          rw [List.mem_cons, not_or] at known
          rw [ids, has]
          by_cases same : id = e.seq
          · subst same
            rw [own]
            by_cases named : e.decisionId = some d
            · simp [named, isOpen, fresh]
            · simp [named, known]
          · by_cases named : e.decisionId = some d
            · rw [if_pos named, List.mem_append, List.mem_singleton, known]
              simp [same]
            · rw [if_neg named, known]
              simp [same]
        once := by
          intro d
          rw [ids]
          split
          · have absent : e.seq ∉ q.idsOf d := by
              intro known
              exact ((indexed.decided d e.seq).mp known).1 List.mem_cons_self
            exact List.nodup_append.mpr ⟨indexed.once d, List.nodup_singleton _,
              fun a known b single same => absent (List.mem_singleton.mp single ▸ same ▸ known)⟩
          · exact indexed.once d
        listed := by
          intro owner id
          have known := indexed.listed owner id
          rw [List.mem_cons, not_or] at known
          rw [EventQueue.histOf, hist, ← EventQueue.histOf, known, has]
          by_cases same : id = e.seq
          · subst same
            simp [own, isOpen]
          · simp [same]
        sorted := fun owner => by rw [EventQueue.histOf, hist]; exact indexed.sorted owner
        filled := by rw [hist]; exact indexed.filled
        count := by rw [count, hist]; exact indexed.count }
  · have closed : e.isOpen = false := by simpa using isOpen
    have shape : q.indexNew e = q.indexEvictable e := by
      simp only [EventQueue.indexNew, closed, Bool.false_eq_true, if_false]
    have hist : ∀ owner, (q.indexNew e).histOf owner =
        if owner = e.owner then insertSeq (q.histOf e.owner) e.seq else q.histOf owner := by
      intro owner
      rw [shape, histOf_indexEvictable]
    exact
      { ascending := by rw [log]; exact indexed.ascending
        below := by rw [log, next]; exact indexed.below
        nested := nested
        retained := fun id old => (has id _).mpr (indexed.retained id (List.mem_cons_of_mem _ old))
        pinned := by
          intro id
          have known := indexed.pinned id
          rw [List.mem_cons, not_or] at known
          have pins : (q.indexNew e).pinned = q.pinned := by rw [shape]; rfl
          rw [pins, known, has]
          by_cases same : id = e.seq
          · subst same
            simp [own, closed]
          · simp [same]
        decided := by
          intro d id
          have known := indexed.decided d id
          rw [List.mem_cons, not_or] at known
          have ids : (q.indexNew e).idsOf d = q.idsOf d := by rw [shape]; rfl
          rw [ids, known, has]
          by_cases same : id = e.seq
          · subst same
            simp [own, closed]
          · simp [same]
        once := by
          intro d
          have ids : (q.indexNew e).idsOf d = q.idsOf d := by rw [shape]; rfl
          rw [ids]
          exact indexed.once d
        listed := by
          intro owner id
          have known := indexed.listed owner id
          rw [List.mem_cons, not_or] at known
          rw [hist, has]
          by_cases same : id = e.seq
          · subst same
            rw [own]
            by_cases mine : owner = e.owner
            · subst mine
              simp [mem_insertSeq, closed, fresh]
            · rw [if_neg mine, known]
              simp [own, Ne.symm mine]
          · by_cases mine : owner = e.owner
            · subst mine
              rw [if_pos rfl, mem_insertSeq, known]
              simp [same]
            · rw [if_neg mine, known]
              simp [same]
        sorted := by
          intro owner
          rw [hist]
          split
          · refine insertSeq_ascending (indexed.sorted e.owner) ?_
            intro known
            exact ((indexed.listed _ _).mp known).1 List.mem_cons_self
          · exact indexed.sorted owner
        filled := by
          rw [shape]
          exact fun owner => putList_filled indexed.filled _ _ _
        count := by
          rw [shape]
          exact count_indexEvictable e indexed.count }

/-! ### Taking an event out of its index -/

private theorem idsOf_unindexDecision (e : Event) (d : DecisionId) :
    (q.unindexDecision e).idsOf d =
      if e.decisionId = some d then (q.idsOf d).filter (· ≠ e.seq) else q.idsOf d := by
  simp only [unindexDecision]
  split
  next decision named =>
    simp only [idsOf, listAt_putList, named, Option.some.injEq]
    by_cases same : d = decision
    · simp [same]
    · simp [same, Ne.symm same]
  next unnamed => simp [unnamed]

/-- A pinned event without its pin is where it was during its publish. -/
theorem unindex {e : Event} (indexed : Indexed busy q) (member : e ∈ q.events)
    (pin : e.seq ∈ q.pinned) :
    Indexed (e.seq :: busy) (({ q with pinned := q.pinned.erase e.seq }).unindexDecision e) := by
  obtain ⟨old, isOpen⟩ := (indexed.pinned_iff member).mp pin
  have own : ∀ p, q.Has e.seq p ↔ p e := fun p => indexed.has_iff member
  generalize shape : ({ q with pinned := q.pinned.erase e.seq }).unindexDecision e = q'
  have log : q'.events = q.events := by
    rw [← shape, unindexDecision]
    split <;> rfl
  have pins : q'.pinned = q.pinned.erase e.seq := by
    rw [← shape, unindexDecision]
    split <;> rfl
  have hist : q'.ownerHist = q.ownerHist := by
    rw [← shape, unindexDecision]
    split <;> rfl
  have count : q'.evictableCount = q.evictableCount := by
    rw [← shape, unindexDecision]
    split <;> rfl
  have next : q'.nextSeq = q.nextSeq := by
    rw [← shape, unindexDecision]
    split <;> rfl
  have ids : ∀ d, q'.idsOf d =
      if e.decisionId = some d then (q.idsOf d).filter (· ≠ e.seq) else q.idsOf d := by
    intro d
    rw [← shape, idsOf_unindexDecision]
    rfl
  have has : ∀ id p, q'.Has id p ↔ q.Has id p := by
    intro id p
    simp only [Has, log]
  exact
    { ascending := by rw [log]; exact indexed.ascending
      below := by rw [log, next]; exact indexed.below
      nested := List.nodup_cons.mpr ⟨old, indexed.nested⟩
      retained := by
        intro id held
        rw [has]
        rcases List.mem_cons.mp held with rfl | outer
        · exact (own _).mpr trivial
        · exact indexed.retained id outer
      pinned := by
        intro id
        rw [pins, Finset.mem_erase, indexed.pinned, has, List.mem_cons, not_or, and_assoc]
      decided := by
        intro d id
        rw [ids, has, List.mem_cons, not_or]
        by_cases named : e.decisionId = some d
        · rw [if_pos named, List.mem_filter, indexed.decided, decide_eq_true_eq]
          tauto
        · rw [if_neg named, indexed.decided]
          by_cases same : id = e.seq
          · subst same
            simp [own, named]
          · simp [same]
      once := by
        intro d
        rw [ids]
        split
        · exact (indexed.once d).filter _
        · exact indexed.once d
      listed := by
        intro owner id
        rw [EventQueue.histOf, hist, ← EventQueue.histOf, indexed.listed, has, List.mem_cons,
          not_or]
        by_cases same : id = e.seq
        · subst same
          simp [own, isOpen]
        · simp [same]
      sorted := fun owner => by rw [EventQueue.histOf, hist]; exact indexed.sorted owner
      filled := by rw [hist]; exact indexed.filled
      count := by rw [count, hist]; exact indexed.count }

/-- So is an evictable event that its owner's history no longer lists. -/
theorem unlist {e : Event} (indexed : Indexed busy q) (member : e ∈ q.events)
    (inside : e.seq ∈ q.histOf e.owner) :
    Indexed (e.seq :: busy) { q.dropHist e with evictableCount := q.evictableCount - 1 } := by
  obtain ⟨old, closed, -⟩ := (indexed.listed_iff member e.owner).mp inside
  have own : ∀ p, q.Has e.seq p ↔ p e := fun p => indexed.has_iff member
  exact
    { ascending := indexed.ascending
      below := indexed.below
      nested := List.nodup_cons.mpr ⟨old, indexed.nested⟩
      retained := by
        intro id held
        rcases List.mem_cons.mp held with rfl | outer
        · exact (own _).mpr trivial
        · exact indexed.retained id outer
      pinned := by
        intro id
        refine (indexed.pinned id).trans ?_
        rw [List.mem_cons, not_or]
        by_cases same : id = e.seq
        · subst same
          simp [own, closed]
        · simp only [same, not_false_eq_true, true_and]
          rfl
      decided := by
        intro d id
        refine (indexed.decided d id).trans ?_
        rw [List.mem_cons, not_or]
        by_cases same : id = e.seq
        · subst same
          simp [own, closed]
        · simp only [same, not_false_eq_true, true_and]
          rfl
      once := indexed.once
      listed := by
        intro owner id
        have hist : EventQueue.histOf { q.dropHist e with evictableCount := q.evictableCount - 1 }
            owner = if owner = e.owner then (q.histOf e.owner).erase e.seq else q.histOf owner :=
          histOf_dropHist e owner
        have nodup := (indexed.sorted e.owner).imp fun less => less.ne
        rw [hist, List.mem_cons, not_or]
        by_cases mine : owner = e.owner
        · subst mine
          rw [if_pos rfl, List.Nodup.mem_erase_iff nodup, indexed.listed, and_assoc]
          rfl
        · rw [if_neg mine, indexed.listed]
          by_cases same : id = e.seq
          · subst same
            simp [own, Ne.symm mine]
          · simp only [same, not_false_eq_true, true_and]
            rfl
      sorted := by
        intro owner
        have hist : EventQueue.histOf { q.dropHist e with evictableCount := q.evictableCount - 1 }
            owner = if owner = e.owner then (q.histOf e.owner).erase e.seq else q.histOf owner :=
          histOf_dropHist e owner
        rw [hist]
        split
        · exact (indexed.sorted e.owner).sublist List.erase_sublist
        · exact indexed.sorted owner
      filled := fun owner => putList_filled indexed.filled _ _ _
      count := by
        have shorter := List.length_erase_of_mem inside
        have some_ := List.length_pos_of_mem inside
        have before := total_erase q.ownerHist e.owner
        simp only [dropHist, total_putList, indexed.count, shorter]
        simp only [histOf] at some_ ⊢
        omega }

/-- An event that no index holds may leave the log. -/
theorem without {id : EventId} (indexed : Indexed (id :: busy) q) :
    Indexed busy { q with events := q.events.filter (·.seq ≠ id) } := by
  obtain ⟨fresh, nested⟩ := List.nodup_cons.mp indexed.nested
  have rest : ∀ x p, (x ∉ id :: busy ∧ q.Has x p) ↔
      (x ∉ busy ∧ ({ q with events := q.events.filter (·.seq ≠ id) } : EventQueue).Has x p) := by
    intro x p
    rw [has_without, List.mem_cons, not_or]
    tauto
  exact
    { ascending := indexed.ascending.sublist (List.filter_sublist.map _)
      below := fun e member => indexed.below e (List.mem_of_mem_filter member)
      nested := nested
      retained := by
        intro x held
        refine has_without.mpr ⟨?_, indexed.retained x (List.mem_cons_of_mem _ held)⟩
        rintro rfl
        exact fresh held
      pinned := fun x => (indexed.pinned x).trans (rest x _)
      decided := fun d x => (indexed.decided d x).trans (rest x _)
      once := indexed.once
      listed := fun owner x => (indexed.listed owner x).trans (rest x _)
      sorted := indexed.sorted
      filled := indexed.filled
      count := indexed.count }

/-! ### Resolving -/

private theorem unindexDecision_mark (e : Event) (id : EventId) (reason : ResolvedReason) :
    (q.mark id reason).unindexDecision e = (q.unindexDecision e).mark id reason := by
  simp only [unindexDecision]
  split <;> rfl

/-- A resolved event moves from its pin to its owner's history. -/
theorem resolveOne {id : EventId} (indexed : Indexed busy q) (pin : id ∈ q.pinned)
    (reason : ResolvedReason) : Indexed busy (resolveOne reason q id) := by
  obtain ⟨-, e, member, rfl, -⟩ := (indexed.pinned id).mp pin
  have found : q.find e.seq = some e := indexed.find_iff.mpr ⟨member, rfl⟩
  have loose := indexed.unindex member pin
  generalize shape : ({ q with pinned := q.pinned.erase e.seq }).unindexDecision e = q' at loose
  have log : q'.events = q.events := by
    rw [← shape, unindexDecision]
    split <;> rfl
  have unpinned : e.seq ∉ q'.pinned := fun still => ((loose.pinned e.seq).mp still).1 (by simp)
  -- the marked event, as if its publish ended here
  have marked := loose.mark unpinned reason
  have copy : { e with resolvedReason := some reason } ∈ (q'.mark e.seq reason).events :=
    mem_mark.mpr (.inr ⟨e, log ▸ member, rfl, rfl⟩)
  have closed : ({ e with resolvedReason := some reason } : Event).isOpen = false := by
    simp [Event.isOpen]
  have settled := indexNew (e := { e with resolvedReason := some reason }) marked copy
  have same : (q.mark e.seq reason).unpin e =
      (q'.mark e.seq reason).indexNew { e with resolvedReason := some reason } := by
    rw [EventQueue.indexNew, closed, if_neg Bool.false_ne_true, ← shape, ← unindexDecision_mark]
    rfl
  rw [EventQueue.resolveOne, found]
  dsimp only
  rw [same]
  exact settled

theorem resolveAll {ids : List EventId} (indexed : Indexed busy q) (nodup : ids.Nodup)
    (pins : ∀ id ∈ ids, id ∈ q.pinned) (reason : ResolvedReason) :
    Indexed busy (ids.foldl (EventQueue.resolveOne reason) q) := by
  induction ids generalizing q with
  | nil => exact indexed
  | cons id rest ih =>
    obtain ⟨fresh, distinct⟩ := List.nodup_cons.mp nodup
    have once := indexed.resolveOne (pins id (by simp)) reason
    refine ih once distinct fun other later => ?_
    have differ : other ≠ id := fun same => fresh (same ▸ later)
    obtain ⟨old, e, member, rfl, isOpen⟩ :=
      (indexed.pinned other).mp (pins other (List.mem_cons_of_mem _ later))
    have still := (isOpen_resolveOne (q := q) id reason e).mpr ⟨⟨member, isOpen⟩, differ⟩
    exact (once.pinned _).mpr ⟨old, e, still.1, rfl, still.2⟩

/-! ### Eviction -/

theorem drop {victim : Event} (indexed : Indexed busy q) (picked : q.pickVictim = some victim) :
    Indexed busy (q.drop victim) := by
  obtain ⟨member, -, inside⟩ := pickVictim_some picked
  have gone := (indexed.unlist member inside).without
  exact { gone with }

theorem evictLoop (indexed : Indexed busy q) (rounds : ℕ) :
    Indexed busy (evictLoop rounds q) := by
  induction rounds generalizing q with
  | zero => exact indexed
  | succ rounds ih =>
    simp only [EventQueue.evictLoop]
    split
    · exact indexed
    · split
      next victim picked => exact ih (indexed.drop picked)
      next => exact indexed

theorem evict (indexed : Indexed busy q) : Indexed busy q.evictIfNeeded :=
  indexed.evictLoop _

/-! ### The operations -/

theorem idsOf_pinned (indexed : Indexed busy q) (d : DecisionId) :
    ∀ id ∈ q.idsOf d, id ∈ q.pinned := by
  intro id known
  obtain ⟨old, e, member, same, isOpen, -⟩ := (indexed.decided d id).mp known
  exact (indexed.pinned id).mpr ⟨old, e, member, same, isOpen⟩

/-! ### Forgetting -/

theorem forgetEvent (indexed : Indexed [] q) {e : Event} (member : e ∈ q.events) :
    Indexed [] (q.forgetEvent e) := by
  simp only [EventQueue.forgetEvent, forgetOne]
  by_cases pin : e.seq ∈ q.pinned
  · rw [if_pos pin]
    have gone := (indexed.unindex member pin).without
    have log : (({ q with pinned := q.pinned.erase e.seq }).unindexDecision e).events =
        q.events := by
      rw [unindexDecision]
      split <;> rfl
    rwa [log] at gone
  · rw [if_neg pin]
    have closed : e.isOpen = false := by
      rw [← Bool.not_eq_true]
      intro isOpen
      exact pin ((indexed.pinned_iff member).mpr ⟨by simp, isOpen⟩)
    have inside : e.seq ∈ q.histOf e.owner :=
      (indexed.listed_iff member e.owner).mpr ⟨by simp, closed, rfl⟩
    rw [if_pos inside]
    exact (indexed.unlist member inside).without

theorem forgetSession (indexed : Indexed [] q) (session : SessionId) :
    Indexed [] (q.forgetSession session) := by
  have each : ∀ (es : List Event) (q : EventQueue), Indexed [] q → (∀ e ∈ es, e ∈ q.events) →
      (es.map (·.seq)).Nodup → Indexed [] (es.foldl EventQueue.forgetEvent q) := by
    intro es
    induction es with
    | nil => exact fun q indexed _ _ => indexed
    | cons e rest ih =>
      intro q indexed inside nodup
      obtain ⟨fresh, distinct⟩ := List.nodup_cons.mp nodup
      refine ih _ (indexed.forgetEvent (inside e (by simp))) ?_ distinct
      intro x later
      refine List.mem_filter.mpr ⟨inside x (List.mem_cons_of_mem _ later), decide_eq_true ?_⟩
      intro same
      exact fresh (List.mem_map.mpr ⟨x, later, same⟩)
  have unique : (q.events.map (·.seq)).Nodup := indexed.ascending.imp fun less => less.ne
  have swept := each (q.events.filter (·.sessionId = session)) q indexed
    (fun e member => List.mem_of_mem_filter member)
    (unique.sublist (List.filter_sublist.map _))
  rw [forgetSession_eq q session unique]
  exact { swept with }

end Indexed

end EventQueue

end Nelix.Daemon
