import Nelix.Daemon.EventWaits
import Nelix.Router.WaitForward

/-!
# Following the waits

A reader hands the cursor of each answer to its next wait. Whatever the daemon and the archive do
meanwhile, an answer advances the component of what it delivers and no other, so the waits that
follow one another deliver in order, and pass over no event of a session that they ask for.
-/
namespace Nelix.Router

open Contracts Core Store GenRoutine
open Daemon (Event EventRing QueueMove EventId)

variable {f : WaitForward} {gen : Adopted} {sessions : List String} {reads : WaitReads}

/-! ### One wait -/

/-- The cursor once the absent components stand at what was read of them. The archive's stays absent
where it is not polled or the look at its counter fails for the moment. -/
structure Established (f : WaitForward) (gen : Adopted) (reads : WaitReads)
    (cursor base : Cursor) : Prop where
  routerEpoch : base.routerEpoch = cursor.routerEpoch
  topology : base.topologyRevision = cursor.topologyRevision
  others : ∀ g, g ≠ gen.generationId → base.positions.get? g = cursor.positions.get? g
  present : ∀ position, cursor.positions.get? gen.generationId = some position →
    position.1 = gen.epoch ∧ base.positions.get? gen.generationId = some position
  absent : cursor.positions.get? gen.generationId = none →
    ∃ seq, currentSeq reads.current = .ok seq ∧
      base.positions.get? gen.generationId = some (gen.epoch, seq)
  archived : ∀ position, cursor.archive = some position →
    (∀ archiveEpoch ∈ f.archiveEpoch, position.1 = archiveEpoch) ∧ base.archive = some position
  unarchived : cursor.archive = none →
    base.archive = (do
      let archiveEpoch ← f.archiveEpoch
      let seq ← reads.first.toOption
      pure (archiveEpoch, seq))

/-- One of the wait's forwards was answered so. -/
def WaitReads.Replied (reads : WaitReads) (body : Json) : Prop :=
  (∃ turn ∈ reads.turns, turn.forwarded = some (.answered 200 body)) ∨
    reads.single = some (.answered 200 body)

/-- How the cursor of an answer stands to the one that was handed in: the established one, and at
most the component of what is delivered has gone on. -/
def Leads (f : WaitForward) (gen : Adopted) (reads : WaitReads) (cursor : Cursor) :
    WaitAnswer → Prop
  | .quiet next => Established f gen reads cursor next
  | .event evt next =>
    ∃ base after seq body, Established f gen reads cursor base ∧
      reads.Replied body ∧ body.get? "event" = some evt ∧
      healthyIntCursor? (evt.get? "seq") = some seq ∧
      base.positions.get? gen.generationId = some (gen.epoch, after) ∧ after ≤ seq ∧
      next.positions.get? gen.generationId = some (gen.epoch, seq) ∧
      (∀ g, g ≠ gen.generationId → next.positions.get? g = base.positions.get? g) ∧
      next.archive = base.archive ∧ next.routerEpoch = base.routerEpoch ∧
      next.topologyRevision = base.topologyRevision
  | .archive next =>
    ∃ base archiveEpoch seq current, Established f gen reads cursor base ∧
      base.archive = some (archiveEpoch, seq) ∧ seq < current ∧
      (∃ turn ∈ reads.turns, turn.counter = .ok current) ∧
      next = base.advanceArchive archiveEpoch current
  | _ => True

/-- An advance never rewinds, and it leaves everything else. -/
theorem Cursor.advance_spec {cursor next : Cursor} {g e : String} {seq : ℕ}
    (advanced : cursor.advance g e seq = .ok next) :
    (∀ position, cursor.positions.get? g = some (e, position) → position ≤ seq) ∧
      next.positions.get? g = some (e, seq) ∧
      (∀ g', g' ≠ g → next.positions.get? g' = cursor.positions.get? g') ∧
      next.archive = cursor.archive ∧ next.routerEpoch = cursor.routerEpoch ∧
      next.topologyRevision = cursor.topologyRevision := by
  have placed := Cursor.advance_positions advanced
  have rest : (∀ position, cursor.positions.get? g = some (e, position) → position ≤ seq) ∧
      next.archive = cursor.archive ∧ next.routerEpoch = cursor.routerEpoch ∧
      next.topologyRevision = cursor.topologyRevision := by
    unfold Cursor.advance at advanced
    split at advanced
    · split at advanced
      · rename_i epoch position held
        split at advanced
        · cases advanced
        · rename_i onward
          cases advanced
          refine ⟨fun position' same => ?_, rfl, rfl, rfl⟩
          rw [held, Option.some.injEq, Prod.mk.injEq] at same
          exact Nat.le_of_not_lt fun less => onward ⟨same.1, same.2 ▸ less⟩
      · rename_i fresh
        cases advanced
        exact ⟨fun position same => absurd (fresh.symm.trans same) (by rintro ⟨⟩), rfl, rfl, rfl⟩
    · cases advanced
  refine ⟨rest.1, ?_, fun g' other => ?_, rest.2⟩
  · rw [placed, if_pos rfl]
  · rw [placed, if_neg other]

/-- What the daemon's reply comes to. -/
theorem waitOnGeneration_ok {cursor : Cursor} {read : LiveRead} {answer : WaitAnswer}
    (answered : waitOnGeneration gen cursor read = .ok answer) :
    answer = .unownable ∨ answer = .cursorExpired ∨ answer = .quiet cursor ∨
      ∃ body evt seq next, read = .answered 200 body ∧ body.get? "event" = some evt ∧
        healthyIntCursor? (evt.get? "seq") = some seq ∧
        cursor.advance gen.generationId gen.epoch seq = .ok next ∧ answer = .event evt next := by
  rw [waitOnGeneration, bind_ok] at answered
  obtain ⟨⟨status, body⟩, relayed, rest⟩ := answered
  have replied : read = .answered status body := by
    cases read with
    | connectError => cases relayed
    | responseError => cases relayed
    | answered status' body' =>
      simp only [relay, Except.ok.injEq, Prod.mk.injEq] at relayed
      rw [relayed.1, relayed.2]
  dsimp only at rest
  split at rest
  · cases rest
    exact .inl rfl
  split at rest
  · cases rest
  rename_i healthy
  split at rest
  · cases rest
    exact .inr (.inl rfl)
  split at rest
  · cases rest
    exact .inr (.inr (.inl rfl))
  · cases rest
    exact .inr (.inr (.inl rfl))
  · rename_i evt _ given
    split at rest
    · cases rest
    · rename_i seq counted
      rw [bind_ok] at rest
      obtain ⟨next, advanced, same⟩ := rest
      cases same
      have ok : status = 200 := by
        by_contra other
        exact healthy (.inl other)
      exact .inr (.inr (.inr ⟨body, evt, seq, next, ok ▸ replied, given, counted, advanced, rfl⟩))

section Loop

variable {request : WaitRequest} {cursor : Cursor} {archiveEpoch : ℤ} {archiveSeq : ℕ}
  {answer : WaitAnswer}

/-- The turn's look at the counter or its forward gives the answer. -/
def WaitTurn.Gives (request : WaitRequest) (cursor : Cursor) (archiveEpoch : ℤ) (archiveSeq : ℕ)
    (answer : WaitAnswer) (turn : WaitTurn) : Prop :=
  (∃ current, turn.counter = .ok current ∧ archiveSeq < current ∧
    answer = .archive (cursor.advanceArchive archiveEpoch current)) ∨
  ∃ read, turn.forwarded = some read ∧ waitOnGeneration request.gen cursor read = .ok answer

theorem forwardIn_answers (turn : WaitTurn) (later : Waited)
    (answered : (WaitForward.forwardIn request cursor turn later).outcome = .ok (some answer)) :
    answer = .quiet cursor ∨ later.outcome = .ok (some answer) ∨
      ∃ read, turn.forwarded = some read ∧
        waitOnGeneration request.gen cursor read = .ok answer := by
  rw [WaitForward.forwardIn] at answered
  split at answered
  · cases answered
    exact .inl rfl
  cases fate : turn.forwarded with
  | none =>
    rw [fate] at answered
    cases answered
  | some read =>
    rw [fate, Option.map_some] at answered
    cases replied : waitOnGeneration request.gen cursor read with
    | error raised =>
      rw [replied] at answered
      cases raised with
      | nelix e =>
        dsimp only at answered
        split at answered
        · cases answered
        · exact .inr (.inl answered)
      | _ => cases answered
    | ok answer' =>
      rw [replied] at answered
      cases answer' with
      | quiet => exact .inr (.inl answered)
      | _ =>
        cases answered
        exact .inr (.inr ⟨read, rfl, replied⟩)

/-- What the loop answers comes from the window's end or from one of its turns. -/
theorem multiplex_answers (turns : List WaitTurn)
    (answered : (WaitForward.multiplex request cursor archiveEpoch archiveSeq turns).outcome =
      .ok (some answer)) :
    answer = .quiet cursor ∨
      ∃ turn ∈ turns, turn.Gives request cursor archiveEpoch archiveSeq answer := by
  induction turns with
  | nil => cases answered
  | cons turn rest ih =>
    have forward : (WaitForward.forwardIn request cursor turn
        (WaitForward.multiplex request cursor archiveEpoch archiveSeq rest)).outcome =
          .ok (some answer) →
        answer = .quiet cursor ∨
          ∃ t ∈ turn :: rest, t.Gives request cursor archiveEpoch archiveSeq answer := by
      intro goes
      rcases forwardIn_answers turn _ goes with quiet | later | given
      · exact .inl quiet
      · refine (ih later).imp_right ?_
        rintro ⟨t, member, gives⟩
        exact ⟨t, List.mem_cons_of_mem _ member, gives⟩
      · exact .inr ⟨turn, List.mem_cons_self, .inr given⟩
    rw [WaitForward.multiplex] at answered
    cases looked : turn.counter with
    | ok current =>
      rw [looked] at answered
      dsimp only at answered
      split at answered
      · rename_i more
        cases answered
        exact .inr ⟨turn, List.mem_cons_self, .inl ⟨current, looked, more, rfl⟩⟩
      · exact forward answered
    | error fault =>
      rw [looked] at answered
      dsimp only at answered
      cases lasts : fault.lasting? with
      | some x =>
        rw [lasts] at answered
        cases answered
      | none =>
        rw [lasts] at answered
        exact forward answered

end Loop

/-! ### Where a wait starts -/

/-- The generation's component stands in the current epoch. -/
structure Placed (gen : Adopted) (current : LiveRead) (cursor placed : Cursor) (after : ℕ) :
    Prop where
  position : placed.positions.get? gen.generationId = some (gen.epoch, after)
  held : ∀ position, cursor.positions.get? gen.generationId = some position →
    position.1 = gen.epoch ∧ placed = cursor
  fresh : cursor.positions.get? gen.generationId = none →
    currentSeq current = .ok after ∧ cursor.advance gen.generationId gen.epoch after = .ok placed

theorem position_placed {cursor placed : Cursor} {current : LiveRead} {after : ℕ}
    (starts : WaitForward.position gen cursor current = .ok (.inr (placed, after))) :
    Placed gen current cursor placed after := by
  rw [WaitForward.position] at starts
  cases held : cursor.positions.get? gen.generationId with
  | none =>
    rw [held] at starts
    simp only [bind_ok, pure, Except.pure, Except.ok.injEq, Sum.inr.injEq, Prod.mk.injEq] at starts
    obtain ⟨seq, read, advancedTo, advanced, rfl, rfl⟩ := starts
    exact
      { position := (Cursor.advance_spec advanced).2.1
        held := fun _ same => by cases held.symm.trans same
        fresh := fun _ => ⟨read, advanced⟩ }
  | some position =>
    obtain ⟨epoch, seq⟩ := position
    rw [held] at starts
    dsimp only at starts
    split at starts
    · cases starts
    · rename_i same
      cases starts
      have current : epoch = gen.epoch := not_not.mp same
      refine { position := current ▸ held, held := ?_, fresh := ?_ }
      · rintro _ is
        cases held.symm.trans is
        exact ⟨current, rfl⟩
      · exact fun none => by cases held.symm.trans none

/-- The archive's component stands, where it is polled. -/
theorem archivePosition_placed {cursor base : Cursor} {first : Except ReadFault ℕ}
    {polled : Option (ℤ × ℕ)}
    (starts : f.archivePosition cursor first = .ok (.inr (base, polled))) :
    base.positions = cursor.positions ∧ base.routerEpoch = cursor.routerEpoch ∧
      base.topologyRevision = cursor.topologyRevision ∧
      (∀ position, polled = some position → base.archive = some position) ∧
      (∀ position, cursor.archive = some position →
        (∀ archiveEpoch ∈ f.archiveEpoch, position.1 = archiveEpoch) ∧
          base.archive = some position) ∧
      (cursor.archive = none → base.archive = (do
        let archiveEpoch ← f.archiveEpoch
        let seq ← first.toOption
        pure (archiveEpoch, seq))) := by
  rw [WaitForward.archivePosition] at starts
  cases stored : f.archiveEpoch with
  | none =>
    rw [stored] at starts
    cases starts
    refine ⟨rfl, rfl, rfl, nofun, fun position held => ⟨nofun, held⟩, fun none => none⟩
  | some archiveEpoch =>
    rw [stored] at starts
    dsimp only at starts
    cases held : cursor.archive with
    | some position =>
      obtain ⟨epoch, seq⟩ := position
      rw [held] at starts
      dsimp only at starts
      split at starts
      · cases starts
      · rename_i same
        cases starts
        have current : epoch = archiveEpoch := not_not.mp same
        refine ⟨rfl, rfl, rfl, ?_, ?_, nofun⟩
        · rintro _ ⟨⟩
          exact current ▸ held
        · rintro _ ⟨⟩
          refine ⟨?_, held⟩
          rintro _ ⟨⟩
          exact current
    | none =>
      rw [held] at starts
      dsimp only at starts
      cases read : first with
      | ok seq =>
        rw [read] at starts
        cases starts
        exact ⟨rfl, rfl, rfl, fun _ same => same, nofun, fun _ => rfl⟩
      | error fault =>
        rw [read] at starts
        dsimp only at starts
        split at starts
        · cases starts
        · cases starts
          exact ⟨rfl, rfl, rfl, nofun, nofun, fun _ => held⟩

/-- The cursor that a wait goes on with, and the number it hands to the daemon. -/
structure Started (f : WaitForward) (gen : Adopted) (reads : WaitReads) (cursor base : Cursor)
    (after : ℕ) (polled : Option (ℤ × ℕ)) : Prop extends Established f gen reads cursor base where
  starts : ∃ placed, WaitForward.position gen cursor reads.current = .ok (.inr (placed, after))
  position : base.positions.get? gen.generationId = some (gen.epoch, after)
  archive : ∀ position, polled = some position → base.archive = some position

theorem started {cursor placed base : Cursor} {after : ℕ} {polled : Option (ℤ × ℕ)}
    (begins : WaitForward.position gen cursor reads.current = .ok (.inr (placed, after)))
    (starts : f.archivePosition placed reads.first = .ok (.inr (base, polled))) :
    Started f gen reads cursor base after polled := by
  have own := position_placed begins
  obtain ⟨positions, router, topology, archive, archived, unarchived⟩ :=
    archivePosition_placed starts
  have kept : (∀ g, g ≠ gen.generationId → placed.positions.get? g = cursor.positions.get? g) ∧
      placed.archive = cursor.archive ∧ placed.routerEpoch = cursor.routerEpoch ∧
      placed.topologyRevision = cursor.topologyRevision := by
    cases held : cursor.positions.get? gen.generationId with
    | none => exact (Cursor.advance_spec (own.fresh held).2).2.2
    | some position =>
      rw [(own.held position held).2]
      exact ⟨fun _ _ => rfl, rfl, rfl, rfl⟩
  exact
    { routerEpoch := router.trans kept.2.2.1
      topology := topology.trans kept.2.2.2
      others := fun g other => positions ▸ kept.1 g other
      present := by
        intro position held
        obtain ⟨epoch, same⟩ := own.held position held
        exact ⟨epoch, by rw [positions, same, held]⟩
      absent := by
        intro none
        exact ⟨after, (own.fresh none).1, by rw [positions, own.position]⟩
      archived := fun position held => archived position (kept.2.1.trans held)
      unarchived := fun none => unarchived (kept.2.1.trans none)
      starts := ⟨placed, begins⟩
      position := by rw [positions, own.position]
      archive := archive }

/-- An answer other than the resync comes from the loop, or from the one forward. -/
theorem waitOn_stages {cursor : Cursor} {answer : WaitAnswer}
    (answered : (f.waitOn gen sessions cursor reads).outcome = .ok (some answer)) :
    answer = .cursorExpired ∨ ∃ base after polled,
      Started f gen reads cursor base after polled ∧
      match polled with
      | some (archiveEpoch, archiveSeq) =>
        (WaitForward.multiplex ⟨gen, sessions, after⟩ base archiveEpoch archiveSeq
          reads.turns).outcome = .ok (some answer)
      | none => (WaitForward.forwardOnce ⟨gen, sessions, after⟩ base reads.single).outcome =
          .ok (some answer) := by
  rw [WaitForward.waitOn] at answered
  cases placedAt : WaitForward.position gen cursor reads.current with
  | error raised =>
    rw [placedAt] at answered
    cases answered
  | ok stage =>
    rw [placedAt] at answered
    obtain early | ⟨placed, after⟩ := stage
    · cases answered
      exact .inl (position_answers placedAt)
    dsimp only at answered
    cases archived : f.archivePosition placed reads.first with
    | error raised =>
      rw [archived] at answered
      cases answered
    | ok stage =>
      rw [archived] at answered
      obtain early | ⟨base, polled⟩ := stage
      · cases answered
        exact .inl (archivePosition_answers archived)
      refine .inr ⟨base, after, polled, started placedAt archived, ?_⟩
      cases polled with
      | none => exact answered
      | some position => exact answered

theorem forwardOnce_answers {request : WaitRequest} {cursor : Cursor} {read : Option LiveRead}
    {answer : WaitAnswer}
    (answered : (WaitForward.forwardOnce request cursor read).outcome = .ok (some answer)) :
    ∃ reply, read = some reply ∧ waitOnGeneration request.gen cursor reply = .ok answer := by
  cases read with
  | none => cases answered
  | some reply =>
    refine ⟨reply, rfl, ?_⟩
    have mapped : (some <$> waitOnGeneration request.gen cursor reply) = .ok (some answer) :=
      answered
    cases replied : waitOnGeneration request.gen cursor reply with
    | error raised =>
      rw [replied] at mapped
      cases mapped
    | ok given =>
      rw [replied] at mapped
      cases mapped
      rfl

/-- An answer that a reply gives moves the generation's component at most. -/
theorem Started.leads_reply {cursor base : Cursor} {after : ℕ} {polled : Option (ℤ × ℕ)}
    {read : LiveRead} {answer : WaitAnswer} (started : Started f gen reads cursor base after polled)
    (among : ∀ body, read = .answered 200 body → reads.Replied body)
    (replied : waitOnGeneration gen base read = .ok answer) : Leads f gen reads cursor answer := by
  rcases waitOnGeneration_ok replied with
    rfl | rfl | rfl | ⟨body, evt, seq, next, is, given, counted, advanced, rfl⟩
  · trivial
  · trivial
  · exact started.toEstablished
  · obtain ⟨onward, own, others, rest⟩ := Cursor.advance_spec advanced
    exact ⟨base, after, seq, body, started.toEstablished, among body is, given, counted,
      started.position, onward after started.position, own, others, rest⟩

/-- Every answer of a wait moves the cursor as it should. -/
theorem waitOn_leads {cursor : Cursor} {answer : WaitAnswer}
    (answered : (f.waitOn gen sessions cursor reads).outcome = .ok (some answer)) :
    Leads f gen reads cursor answer := by
  rcases waitOn_stages answered with rfl | ⟨base, after, polled, started, goes⟩
  · trivial
  cases polled with
  | none =>
    obtain ⟨reply, single, replied⟩ := forwardOnce_answers goes
    exact started.leads_reply (fun body is => .inr (is ▸ single)) replied
  | some position =>
    obtain ⟨archiveEpoch, archiveSeq⟩ := position
    rcases multiplex_answers reads.turns goes with rfl | ⟨turn, member, looked | replied⟩
    · exact started.toEstablished
    · obtain ⟨current, counter, more, rfl⟩ := looked
      exact ⟨base, archiveEpoch, archiveSeq, current, started.toEstablished,
        started.archive _ rfl, more, ⟨turn, member, counter⟩, rfl⟩
    · obtain ⟨read, forwarded, replied⟩ := replied
      exact started.leads_reply (fun body is => .inl ⟨turn, member, is ▸ forwarded⟩) replied

/-! ### The waits of a reader -/

/-- What becomes of a forward: the daemon holds it, it comes to something else than a reply of the
daemon's wait, or the daemon serves it. -/
inductive ForwardFate
  | held
  | other (read : LiveRead)
  | served (rounds : List (List QueueMove))

/-- One turn of the loop, and what the board and the queue do before it. -/
structure TurnFate where
  changes : ℕ
  fault : Option ReadFault
  inTime : Bool
  moves : List QueueMove
  forward : ForwardFate

/-- One wait: the generation, the sessions of the ledger, those that the daemon takes for the
owner's, and what the reads and the forwards come to; none is a read that goes through. -/
structure WaitFate where
  gen : Adopted
  sessions : List String
  owns : String → Bool
  current : Option LiveRead
  first : Option ReadFault
  turns : List TurnFate
  single : ForwardFate

/-- The daemon's queue, the owner's board number and the cursor that the reader has. -/
structure Follower where
  ring : EventRing
  board : ℕ
  cursor : Cursor

inductive FollowerMove
  | queue (move : QueueMove)
  | change
  | wait (fate : WaitFate)

/-- What a wait hands out. -/
inductive Handed
  | event (gen : Adopted) (taken : EventRing.Taken)
  | board (seq : ℕ)

def boardRead (fault : Option ReadFault) (board : ℕ) : Except ReadFault ℕ :=
  fault.elim (.ok board) .error

/-- What a wait reads of `GET /status`. -/
def statusRead (ring : EventRing) : LiveRead :=
  .answered 200 (.object [("cursor", .int (ring.queue.latestSeq .all))])

/-- The reply to a forward, and where the queue is then. -/
def ForwardFate.reply (idText : EventId → String) (owns : String → Bool) (after : ℕ)
    (sessions : List String) (ring : EventRing) : ForwardFate → Option LiveRead × EventRing
  | .held => (none, ring)
  | .other read => (some read, ring)
  | .served rounds =>
    let served := ring.serveWait owns idText after sessions rounds
    (some (.answered served.1.1 served.1.2), served.2)

namespace WaitFate

variable (idText : EventId → String) (fate : WaitFate)

def reply (after : ℕ) (ring : EventRing) (forward : ForwardFate) : Option LiveRead × EventRing :=
  forward.reply idText fate.owns after fate.sessions ring

/-- The turns as the loop sees them, and where they leave the queue and the board. -/
def turnsFrom (after : ℕ) : List TurnFate → EventRing → ℕ → List WaitTurn × EventRing × ℕ
  | [], ring, board => ([], ring, board)
  | turn :: rest, ring, board =>
    let replied := fate.reply idText after (EventRing.machine.after ring turn.moves) turn.forward
    let later := turnsFrom after rest replied.2 (board + turn.changes)
    (⟨boardRead turn.fault (board + turn.changes), turn.inTime, replied.1⟩ :: later.1, later.2)

def status (s : Follower) : LiveRead := fate.current.getD (statusRead s.ring)

/-- The number that the forwards carry. -/
def after (s : Follower) : ℕ :=
  match WaitForward.position fate.gen s.cursor (fate.status s) with
  | .ok (.inr (_, after)) => after
  | _ => 0

def looped (s : Follower) : List WaitTurn × EventRing × ℕ :=
  fate.turnsFrom idText (fate.after s) fate.turns s.ring s.board

def once (s : Follower) : Option LiveRead × EventRing :=
  fate.reply idText (fate.after s) (fate.looped idText s).2.1 fate.single

def met (s : Follower) : WaitReads where
  current := fate.status s
  first := boardRead fate.first s.board
  turns := (fate.looped idText s).1
  single := (fate.once idText s).1

def asked (sid : String) : Bool := decide (sid ∈ fate.sessions) && fate.owns sid

end WaitFate

namespace Follower

variable (f : WaitForward) (idText : EventId → String)

/-- The reader goes on from the cursor of the answer; after a marker or an error it tries again. -/
def step (s : Follower) : FollowerMove → Follower × List Handed
  | .queue move => ({ s with ring := s.ring.next move }, [])
  | .change => ({ s with board := s.board + 1 }, [])
  | .wait fate =>
    let later : Follower :=
      { s with ring := (fate.once idText s).2, board := (fate.looped idText s).2.2 }
    match (f.waitOn fate.gen fate.sessions s.cursor (fate.met idText s)).outcome with
    | .ok (some (.quiet next)) => ({ later with cursor := next }, [])
    | .ok (some (.event evt next)) =>
      ({ later with cursor := next },
        [.event fate.gen ⟨fate.asked, fate.after s, (healthyIntCursor? (evt.get? "seq")).getD 0,
          evt⟩])
    | .ok (some (.archive next)) =>
      ({ later with cursor := next }, [.board (next.archive.elim 0 Prod.snd)])
    | _ => (later, [])

def machine : Machine Follower FollowerMove Handed := ⟨step f idText⟩

end Follower

/-! ### What the daemon's replies say -/

section Fates

variable {idText : EventId → String} {fate : WaitFate} {s : Follower} {after : ℕ}

theorem reply_becomes (idText : EventId → String) (fate : WaitFate) (after : ℕ) (ring : EventRing)
    (forward : ForwardFate) : ring.Becomes (fate.reply idText after ring forward).2 := by
  cases forward with
  | held => exact .refl ring
  | other read => exact .refl ring
  | served rounds => exact ring.serveWait_becomes fate.owns idText after fate.sessions rounds

/-- Each turn of the loop meets the queue and the board on their way. -/
theorem mem_turnsFrom (idText : EventId → String) (fate : WaitFate) (after : ℕ)
    (turns : List TurnFate) (ring : EventRing) (board : ℕ) :
    let last := fate.turnsFrom idText after turns ring board
    ring.Becomes last.2.1 ∧ board ≤ last.2.2 ∧
    ∀ turn ∈ last.1, ∃ t ∈ turns, ∃ here n,
      ring.Becomes here ∧ (fate.reply idText after here t.forward).2.Becomes last.2.1 ∧
      n ≤ last.2.2 ∧
      turn = ⟨boardRead t.fault n, t.inTime, (fate.reply idText after here t.forward).1⟩ := by
  induction turns generalizing ring board with
  | nil => exact ⟨.refl ring, le_rfl, List.forall_mem_nil _⟩
  | cons t rest ih =>
    intro last
    have moved : ring.Becomes (EventRing.machine.after ring t.moves) := ⟨t.moves, rfl⟩
    have replied := reply_becomes idText fate after (EventRing.machine.after ring t.moves) t.forward
    obtain ⟨becomes, grows, each⟩ := ih (fate.reply idText after
      (EventRing.machine.after ring t.moves) t.forward).2 (board + t.changes)
    refine ⟨(moved.trans replied).trans becomes, (Nat.le_add_right _ _).trans grows, ?_⟩
    intro turn member
    rcases List.mem_cons.mp member with rfl | later
    · exact ⟨t, List.mem_cons_self, _, _, moved, becomes, grows, rfl⟩
    · obtain ⟨t', among, here, n, reached, onward, below, is⟩ := each turn later
      exact ⟨t', List.mem_cons_of_mem _ among, here, n, (moved.trans replied).trans reached,
        onward, below, is⟩

theorem boardRead_ok {fault : Option ReadFault} {board n : ℕ}
    (read : boardRead fault board = .ok n) : n = board := by
  cases fault with
  | none =>
    cases read
    rfl
  | some fault => cases read

/-- The forwards of a wait. -/
def WaitFate.forwards (fate : WaitFate) : List ForwardFate :=
  fate.turns.map (·.forward) ++ [fate.single]

/-- What a wait leaves the reader with. -/
inductive LeftWith (f : WaitForward) (idText : EventId → String) (s : Follower) (fate : WaitFate) :
    Cursor → List Handed → Prop
  | stays : LeftWith f idText s fate s.cursor []
  | quiet {base : Cursor} {polled : Option (ℤ × ℕ)}
      (started : Started f fate.gen (fate.met idText s) s.cursor base (fate.after s) polled) :
      LeftWith f idText s fate base []
  | event {base next : Cursor} {polled : Option (ℤ × ℕ)} {forward : ForwardFate}
      {here : EventRing} {body evt : Json} {seq : ℕ}
      (started : Started f fate.gen (fate.met idText s) s.cursor base (fate.after s) polled)
      (among : forward ∈ fate.forwards) (reached : s.ring.Becomes here)
      (onward : (fate.reply idText (fate.after s) here forward).2.Becomes (fate.once idText s).2)
      (replied : (fate.reply idText (fate.after s) here forward).1 = some (.answered 200 body))
      (given : body.get? "event" = some evt)
      (counted : healthyIntCursor? (evt.get? "seq") = some seq)
      (advanced : base.advance fate.gen.generationId fate.gen.epoch seq = .ok next) :
      LeftWith f idText s fate next [.event fate.gen ⟨fate.asked, fate.after s, seq, evt⟩]
  | board {base : Cursor} {archiveEpoch : ℤ} {n current : ℕ}
      (started : Started f fate.gen (fate.met idText s) s.cursor base (fate.after s)
        (some (archiveEpoch, n)))
      (more : n < current) (made : current ≤ (fate.looped idText s).2.2) :
      LeftWith f idText s fate (base.advanceArchive archiveEpoch current) [.board current]

theorem step_wait (f : WaitForward) (idText : EventId → String) (s : Follower) (fate : WaitFate) :
    ∃ next handed, LeftWith f idText s fate next handed ∧
      Follower.step f idText s (.wait fate) =
        (⟨(fate.once idText s).2, (fate.looped idText s).2.2, next⟩, handed) := by
  have loop := mem_turnsFrom idText fate (fate.after s) fate.turns s.ring s.board
  cases outcome : (f.waitOn fate.gen fate.sessions s.cursor (fate.met idText s)).outcome with
  | error raised => exact ⟨_, _, .stays, by simp only [Follower.step, outcome]⟩
  | ok answer =>
    cases answer with
    | none => exact ⟨_, _, .stays, by simp only [Follower.step, outcome]⟩
    | some answer =>
      rcases waitOn_stages outcome with rfl | ⟨base, after, polled, started, goes⟩
      · exact ⟨_, _, .stays, by simp only [Follower.step, outcome]⟩
      have carries : fate.after s = after := by
        obtain ⟨placed, starts⟩ := started.starts
        rw [WaitFate.after, show WaitForward.position fate.gen s.cursor (fate.status s) = _
          from starts]
      subst carries
      -- what a reply gives, once it is known where the queue was
      have gives : ∀ forward ∈ fate.forwards, ∀ here read, s.ring.Becomes here →
          (fate.reply idText (fate.after s) here forward).2.Becomes (fate.once idText s).2 →
          (fate.reply idText (fate.after s) here forward).1 = some read →
          waitOnGeneration fate.gen base read = .ok answer →
          ∃ next handed, LeftWith f idText s fate next handed ∧
            Follower.step f idText s (.wait fate) =
              (⟨(fate.once idText s).2, (fate.looped idText s).2.2, next⟩, handed) := by
        intro forward among here read reached onward replied answered
        rcases waitOnGeneration_ok answered with
          rfl | rfl | rfl | ⟨body, evt, seq, next, rfl, given, counted, advanced, rfl⟩
        · exact ⟨_, _, .stays, by simp only [Follower.step, outcome]⟩
        · exact ⟨_, _, .stays, by simp only [Follower.step, outcome]⟩
        · exact ⟨_, _, .quiet started, by simp only [Follower.step, outcome]⟩
        · refine ⟨_, _, .event started among reached onward replied given counted advanced, ?_⟩
          simp only [Follower.step, outcome, counted, Option.getD_some]
      have last := reply_becomes idText fate (fate.after s) (fate.looped idText s).2.1 fate.single
      cases polled with
      | none =>
        obtain ⟨read, single, answered⟩ := forwardOnce_answers goes
        exact gives fate.single (List.mem_append_right _ (List.mem_singleton_self _)) _ read
          loop.1 (.refl _) single answered
      | some position =>
        obtain ⟨archiveEpoch, n⟩ := position
        rcases multiplex_answers _ goes with rfl | ⟨turn, member, looked | replied⟩
        · exact ⟨_, _, .quiet started, by simp only [Follower.step, outcome]⟩
        · obtain ⟨current, counter, more, rfl⟩ := looked
          obtain ⟨t, -, here, m, -, -, below, rfl⟩ := loop.2.2 turn member
          have made : current ≤ (fate.looped idText s).2.2 := (boardRead_ok counter).trans_le below
          refine ⟨_, _, .board started more made, ?_⟩
          simp only [Follower.step, outcome]
          rfl
        · obtain ⟨read, forwarded, answered⟩ := replied
          obtain ⟨t, among, here, m, reached, onward, -, rfl⟩ := loop.2.2 turn member
          exact gives t.forward (List.mem_append_left _ (List.mem_map_of_mem among)) here read
            reached (onward.trans last) forwarded answered

/-- What is no reply of the daemon's wait or status does not pass for one. -/
def Foreign (read : LiveRead) : Prop := ∀ body, read ≠ .answered 200 body

def ForwardFate.Honest : ForwardFate → Prop
  | .other read => Foreign read
  | _ => True

def WaitFate.Honest (fate : WaitFate) : Prop :=
  (∀ read ∈ fate.current, Foreign read) ∧ ∀ forward ∈ fate.forwards, forward.Honest

theorem asked_iff (sid : String) :
    fate.asked sid = true ↔ sid ∈ fate.sessions ∧ fate.owns sid = true := by
  rw [WaitFate.asked, Bool.and_eq_true, decide_eq_true_eq]

/-- The event of a reply is the one that is owed where the reply is made. -/
theorem event_owed {here : EventRing} {forward : ForwardFate} {body evt : Json} {seq : ℕ}
    (honest : forward.Honest) (attends : here.Attends)
    (replied : (fate.reply idText after here forward).1 = some (.answered 200 body))
    (given : body.get? "event" = some evt) (counted : healthyIntCursor? (evt.get? "seq") = some seq) :
    ∃ scope x, (∀ e : Event, e.inScope scope ↔ fate.asked e.sessionId = true) ∧
      evt = Daemon.evtDict idText x ∧ x.seq = seq ∧
      (fate.reply idText after here forward).2.Owed after scope (.event x) := by
  cases forward with
  | held => cases replied
  | other read => exact absurd (Option.some.inj replied) (honest body)
  | served rounds =>
    have same := LiveRead.answered.inj (Option.some.inj replied)
    obtain ⟨scope, delivery, scopes, told, owed⟩ :=
      attends.serveWait_owed fate.owns idText after fate.sessions rounds same.1
    rw [told] at same
    cases delivery with
    | cursorExpired =>
      rw [← same.2] at given
      cases given
      cases counted
    | nothing =>
      rw [← same.2] at given
      cases given
      cases counted
    | event x =>
      rw [← same.2] at given
      cases given
      refine ⟨scope, x, fun e => (scopes e).trans (asked_iff e.sessionId).symm, rfl, ?_, owed⟩
      have counts : healthyIntCursor? ((Daemon.evtDict idText x).get? "seq") = some x.seq := by
        have read : (Daemon.evtDict idText x).get? "seq" = some (.int x.seq) := rfl
        rw [read, healthyIntCursor?, if_pos (Int.natCast_nonneg _), Int.toNat_natCast]
      exact Option.some.inj (counts.symm.trans counted)

/-- The position that a status gives is that of the last event. -/
theorem currentSeq_status (honest : ∀ read ∈ fate.current, Foreign read) {seq : ℕ}
    (read : currentSeq (fate.status s) = .ok seq) : seq = s.ring.queue.lastSeq := by
  rw [WaitFate.status] at read
  cases current : fate.current with
  | none =>
    rw [current, Option.getD_none, statusRead, currentSeq, bind_ok] at read
    obtain ⟨_, relayed, counted⟩ := read
    cases relayed
    have counts : healthyIntCursor? (some (.int (s.ring.queue.latestSeq .all))) =
        some s.ring.queue.lastSeq := by
      rw [healthyIntCursor?, if_pos (Int.natCast_nonneg _), Int.toNat_natCast]
      rfl
    have looked : (Json.object [("cursor", .int (s.ring.queue.latestSeq .all))]).get? "cursor" =
      some (.int (s.ring.queue.latestSeq .all)) := rfl
    dsimp only at counted
    rw [if_pos rfl, looked, counts] at counted
    cases counted
    rfl
  | some given =>
    rw [current, Option.getD_some, currentSeq, bind_ok] at read
    obtain ⟨⟨status, body⟩, relayed, counted⟩ := read
    cases given with
    | connectError => cases relayed
    | responseError => cases relayed
    | answered status' body' =>
      simp only [relay, Except.ok.injEq, Prod.mk.injEq] at relayed
      have other : status ≠ 200 := fun ok =>
        honest _ current body' (by rw [relayed.1, ok])
      dsimp only at counted
      rw [if_neg other] at counted
      cases counted

end Fates

/-! ### Runs of waits -/

/-- A component began at the position that the first cursor had, or, where it had none, at the number
that stood when a wait of the run began. -/
def Begins {α : Type} (m : Machine Follower FollowerMove Handed) (s₀ : Follower)
    (moves : List FollowerMove) (position : Option α) (now : Follower → α) (a : α) : Prop :=
  position = some a ∨ position = none ∧ ∃ before rest, moves = before ++ rest ∧
    a = now (m.after s₀ before)

section Begins

variable {α : Type} {m : Machine Follower FollowerMove Handed} {s₀ : Follower}
  {moves : List FollowerMove} {position : Option α} {now : Follower → α} {a : α}

theorem Begins.append (begins : Begins m s₀ moves position now a) (i : FollowerMove) :
    Begins m s₀ (moves ++ [i]) position now a := by
  refine begins.imp_right ?_
  rintro ⟨none, before, rest, rfl, is⟩
  exact ⟨none, before, rest ++ [i], List.append_assoc _ _ _, is⟩

theorem Begins.here (none : position = none) (i : FollowerMove) :
    Begins m s₀ (moves ++ [i]) position now (now (m.after s₀ moves)) :=
  .inr ⟨none, moves, [i], rfl, rfl⟩

end Begins

/-- What is handed out of the epoch. -/
def takenOf (g e : String) : Handed → Option EventRing.Taken
  | .event gen taken => if gen.generationId = g ∧ gen.epoch = e then some taken else none
  | .board _ => none

def noticeOf : Handed → Option ℕ
  | .event _ _ => none
  | .board seq => some seq

/-- A reply that says it comes from the followed daemon's wait or status does come from there. -/
def Follower.Honest (g e : String) (_ : Follower) : FollowerMove → Prop
  | .wait fate => fate.gen.generationId = g → fate.gen.epoch = e → fate.Honest
  | _ => True

/-- The reader's way through the events of an epoch. -/
structure EpochRecord (f : WaitForward) (idText : EventId → String) (g e : String) (s₀ : Follower)
    (moves : List FollowerMove) (s : Follower) (handed : List Handed) : Prop where
  here : s = (Follower.machine f idText).after s₀ moves
  attends : s.ring.Attends
  stays : ∀ a, s₀.cursor.positions.get? g = some (e, a) →
    ∃ b, s.cursor.positions.get? g = some (e, b)
  follows : ∀ b, s.cursor.positions.get? g = some (e, b) → ∃ a,
    Begins (Follower.machine f idText) s₀ moves (s₀.cursor.positions.get? g)
      (fun s => (e, s.ring.queue.lastSeq)) (e, a) ∧
    s.ring.Follows idText a (handed.filterMap (takenOf g e)) b
  fresh : s.cursor.positions.get? g = none →
    s₀.cursor.positions.get? g = none ∧ handed.filterMap (takenOf g e) = []
  foreign : ∀ e' b, s.cursor.positions.get? g = some (e', b) → e' ≠ e →
    handed.filterMap (takenOf g e) = []

namespace EpochRecord

variable {idText : EventId → String} {g e : String} {s₀ s s' : Follower}
  {moves : List FollowerMove} {handed : List Handed} {fate : WaitFate}

/-- The position stays, and the queue moves. -/
theorem passes (record : EpochRecord f idText g e s₀ moves s handed) {i : FollowerMove}
    {more : List Handed} (step : Follower.step f idText s i = (s', more))
    (becomes : s.ring.Becomes s'.ring)
    (same : s'.cursor.positions.get? g = s.cursor.positions.get? g)
    (nothing : more.filterMap (takenOf g e) = []) :
    EpochRecord f idText g e s₀ (moves ++ [i]) s' (handed ++ more) := by
  have quiet : (handed ++ more).filterMap (takenOf g e) = handed.filterMap (takenOf g e) := by
    rw [List.filterMap_append, nothing, List.append_nil]
  refine
    { here := ?_
      attends := record.attends.becomes becomes
      stays := fun a began => ?_
      follows := fun b held => ?_
      fresh := fun none => ?_
      foreign := fun e' b held other => ?_ }
  · rw [Machine.after_append, ← record.here]
    exact (congrArg Prod.fst step).symm
  · rw [same]
    exact record.stays a began
  · obtain ⟨a, begins, follows⟩ := record.follows b (same ▸ held)
    rw [quiet]
    exact ⟨a, begins.append i, follows.becomes record.attends.toSound becomes⟩
  · rw [quiet]
    exact record.fresh (same ▸ none)
  · rw [quiet]
    exact record.foreign e' b (same ▸ held) other

/-- Another epoch of the generation has the position. -/
theorem elsewhere (record : EpochRecord f idText g e s₀ moves s handed) {i : FollowerMove}
    {more : List Handed} (step : Follower.step f idText s i = (s', more))
    (becomes : s.ring.Becomes s'.ring) {e' : String} {n : ℕ}
    (before : ∀ position, s.cursor.positions.get? g = some position → position.1 = e')
    (after : s'.cursor.positions.get? g = some (e', n)) (other : e' ≠ e)
    (nothing : more.filterMap (takenOf g e) = []) :
    EpochRecord f idText g e s₀ (moves ++ [i]) s' (handed ++ more) := by
  have quiet : (handed ++ more).filterMap (takenOf g e) = [] := by
    rw [List.filterMap_append, nothing, List.append_nil]
    cases held : s.cursor.positions.get? g with
    | none => exact (record.fresh held).2
    | some position =>
      exact record.foreign position.1 position.2 held ((before position held).trans_ne other)
  refine
    { here := ?_
      attends := record.attends.becomes becomes
      stays := fun a began => ?_
      follows := fun b held => ?_
      fresh := fun none => ?_
      foreign := fun _ _ _ _ => quiet }
  · rw [Machine.after_append, ← record.here]
    exact (congrArg Prod.fst step).symm
  · obtain ⟨b, held⟩ := record.stays a began
    exact absurd (before _ held) other.symm
  · rw [after, Option.some.injEq, Prod.mk.injEq] at held
    exact absurd held.1 other
  · cases none.symm.trans after

/-- The reader has got on in the epoch. -/
theorem onward (record : EpochRecord f idText g e s₀ moves s handed) {i : FollowerMove}
    {more : List Handed} (step : Follower.step f idText s i = (s', more))
    (becomes : s.ring.Becomes s'.ring) {a b : ℕ}
    (after : s'.cursor.positions.get? g = some (e, b))
    (begins : Begins (Follower.machine f idText) s₀ (moves ++ [i]) (s₀.cursor.positions.get? g)
      (fun s => (e, s.ring.queue.lastSeq)) (e, a))
    (follows : s'.ring.Follows idText a ((handed ++ more).filterMap (takenOf g e)) b) :
    EpochRecord f idText g e s₀ (moves ++ [i]) s' (handed ++ more) := by
  refine
    { here := ?_
      attends := record.attends.becomes becomes
      stays := fun _ _ => ⟨b, after⟩
      follows := fun b' held => ?_
      fresh := fun none => ?_
      foreign := fun e' b' held other => ?_ }
  · rw [Machine.after_append, ← record.here]
    exact (congrArg Prod.fst step).symm
  · rw [after, Option.some.injEq, Prod.mk.injEq] at held
    exact ⟨a, begins, held.2 ▸ follows⟩
  · cases none.symm.trans after
  · rw [after, Option.some.injEq, Prod.mk.injEq] at held
    exact absurd held.1.symm other

/-- A wait in the epoch starts where the reader is, or at the last number. -/
theorem starts (record : EpochRecord f idText g e s₀ moves s handed) {base : Cursor}
    {polled : Option (ℤ × ℕ)} (generation : fate.gen.generationId = g) (epoch : fate.gen.epoch = e)
    (honest : fate.Honest)
    (started : Started f fate.gen (fate.met idText s) s.cursor base (fate.after s) polled) :
    base.positions.get? g = some (e, fate.after s) ∧ ∃ a,
      Begins (Follower.machine f idText) s₀ (moves ++ [.wait fate]) (s₀.cursor.positions.get? g)
        (fun s => (e, s.ring.queue.lastSeq)) (e, a) ∧
      s.ring.Follows idText a (handed.filterMap (takenOf g e)) (fate.after s) := by
  have position := started.position
  rw [generation, epoch] at position
  refine ⟨position, ?_⟩
  cases held : s.cursor.positions.get? g with
  | none =>
    obtain ⟨fresh, silent⟩ := record.fresh held
    obtain ⟨seq, read, is⟩ := started.absent (generation ▸ held)
    rw [generation, position, Option.some.injEq, Prod.mk.injEq] at is
    have last : fate.after s = s.ring.queue.lastSeq :=
      is.2.trans (currentSeq_status honest.1 read)
    have begins : Begins (Follower.machine f idText) s₀ (moves ++ [.wait fate])
        (s₀.cursor.positions.get? g) (fun s => (e, s.ring.queue.lastSeq))
        (e, ((Follower.machine f idText).after s₀ moves).ring.queue.lastSeq) := .here fresh _
    rw [← record.here] at begins
    rw [silent, last]
    exact ⟨_, begins, .nil idText s.ring _⟩
  | some place =>
    obtain ⟨mine, same⟩ := started.present place (generation ▸ held)
    rw [generation, position, Option.some.injEq] at same
    subst same
    obtain ⟨a, begins, follows⟩ := record.follows _ held
    exact ⟨a, begins.append _, follows⟩

theorem left (record : EpochRecord f idText g e s₀ moves s handed) {next : Cursor}
    {more : List Handed} (left : LeftWith f idText s fate next more)
    (step : Follower.step f idText s (.wait fate) =
      (⟨(fate.once idText s).2, (fate.looped idText s).2.2, next⟩, more))
    (honest : fate.gen.generationId = g → fate.gen.epoch = e → fate.Honest) :
    EpochRecord f idText g e s₀ (moves ++ [.wait fate])
      ⟨(fate.once idText s).2, (fate.looped idText s).2.2, next⟩ (handed ++ more) := by
  have becomes : s.ring.Becomes (fate.once idText s).2 :=
    (mem_turnsFrom idText fate (fate.after s) fate.turns s.ring s.board).1.trans
      (reply_becomes idText fate (fate.after s) (fate.looped idText s).2.1 fate.single)
  -- without an event the position is where the wait started
  have still : ∀ {base : Cursor} {polled : Option (ℤ × ℕ)},
      Started f fate.gen (fate.met idText s) s.cursor base (fate.after s) polled →
      (∀ g', next.positions.get? g' = base.positions.get? g') →
      more.filterMap (takenOf g e) = [] →
      EpochRecord f idText g e s₀ (moves ++ [.wait fate])
        ⟨(fate.once idText s).2, (fate.looped idText s).2.2, next⟩ (handed ++ more) := by
    intro base polled started same nothing
    by_cases generation : fate.gen.generationId = g
    · by_cases epoch : fate.gen.epoch = e
      · obtain ⟨position, a, begins, follows⟩ :=
          record.starts generation epoch (honest generation epoch) started
        refine record.onward step becomes ((same g).trans position) begins ?_
        rw [List.filterMap_append, nothing, List.append_nil]
        exact follows.becomes record.attends.toSound becomes
      · refine record.elsewhere step becomes (fun position held => ?_)
          ((same g).trans (generation ▸ started.position)) epoch nothing
        exact (started.present position (generation ▸ held)).1
    · exact record.passes step becomes
        ((same g).trans (started.others g (Ne.symm generation))) nothing
  cases left with
  | stays => exact record.passes step becomes rfl rfl
  | quiet started => exact still started (fun _ => rfl) rfl
  | board started more made => exact still started (fun _ => rfl) rfl
  | @event base _ polled forward here body evt seq started among reached later replied given counted
      advanced =>
    obtain ⟨-, own, others, -⟩ := Cursor.advance_spec advanced
    by_cases generation : fate.gen.generationId = g
    · by_cases epoch : fate.gen.epoch = e
      · have good := honest generation epoch
        obtain ⟨position, a, begins, follows⟩ := record.starts generation epoch good started
        have attends := record.attends.becomes reached
        obtain ⟨scope, x, asks, rfl, rfl, owed⟩ :=
          event_owed (good.2 forward among) attends replied given counted
        have served := reply_becomes idText fate (fate.after s) here forward
        rw [generation, epoch] at own
        refine record.onward step becomes own begins ?_
        have took : List.filterMap (takenOf g e) [.event fate.gen ⟨fate.asked, fate.after s, x.seq,
            Daemon.evtDict idText x⟩] =
              [⟨fate.asked, fate.after s, x.seq, Daemon.evtDict idText x⟩] := by
          simp [takenOf, generation, epoch]
        rw [List.filterMap_append, took]
        have there := follows.becomes record.attends.toSound (reached.trans served)
        exact (there.take (attends.becomes served) asks owed).becomes
          (attends.becomes served).toSound later
      · refine record.elsewhere step becomes (fun position held => ?_)
          (generation ▸ own) epoch ?_
        · exact (started.present position (generation ▸ held)).1
        · simp [takenOf, epoch]
    · refine record.passes step becomes ?_ ?_
      · exact (others g (Ne.symm generation)).trans (started.others g (Ne.symm generation))
      · simp [takenOf, generation]

theorem start (attends : s.ring.Attends) : EpochRecord f idText g e s [] s [] where
  here := rfl
  attends := attends
  stays a held := ⟨a, held⟩
  follows b held := ⟨b, .inl held, .nil idText s.ring b⟩
  fresh none := ⟨none, rfl⟩
  foreign _ _ _ _ := rfl

/-- Every step keeps the record. -/
theorem keeps (record : EpochRecord f idText g e s₀ moves s handed) {i : FollowerMove}
    (honest : s.Honest g e i) :
    EpochRecord f idText g e s₀ (moves ++ [i]) (Follower.step f idText s i).1
      (handed ++ (Follower.step f idText s i).2) := by
  cases i with
  | queue move => exact record.passes rfl ⟨[move], rfl⟩ rfl rfl
  | change => exact record.passes rfl (.refl _) rfl rfl
  | wait fate =>
    obtain ⟨next, more, outcome, step⟩ := step_wait f idText s fate
    rw [step]
    exact record.left outcome step honest

end EpochRecord

/-- Answers that lead a reader from the board number `n` to `m`: they come in order, and the last has
every change up to `m`. -/
structure Notices (board n : ℕ) (seqs : List ℕ) (m : ℕ) : Prop where
  le : n ≤ m
  bounded : m = n ∨ m ≤ board
  ascending : seqs.Pairwise (· < ·)
  within : ∀ k ∈ seqs, n < k ∧ k ≤ m
  covers : ∀ k, n < k → k ≤ m → ∃ k' ∈ seqs, k ≤ k'

namespace Notices

variable {board board' n m current : ℕ} {seqs : List ℕ}

theorem nil (board n : ℕ) : Notices board n [] n where
  le := le_rfl
  bounded := .inl rfl
  ascending := List.Pairwise.nil
  within := by simp
  covers k above below := absurd below (Nat.not_le.mpr above)

theorem grows (notices : Notices board n seqs m) (more : board ≤ board') :
    Notices board' n seqs m :=
  { notices with bounded := notices.bounded.imp_right fun made => made.trans more }

theorem notice (notices : Notices board n seqs m) (more : m < current) (made : current ≤ board) :
    Notices board n (seqs ++ [current]) current where
  le := notices.le.trans more.le
  bounded := .inr made
  ascending := by
    refine List.pairwise_append.mpr ⟨notices.ascending, List.pairwise_singleton _ _, ?_⟩
    intro k old last single
    rw [List.mem_singleton.mp single]
    exact (notices.within k old).2.trans_lt more
  within := by
    intro k member
    rcases List.mem_append.mp member with old | new
    · exact ⟨(notices.within k old).1, (notices.within k old).2.trans more.le⟩
    · rw [List.mem_singleton.mp new]
      exact ⟨notices.le.trans_lt more, le_rfl⟩
  covers k _ below := ⟨current, List.mem_append_right _ (List.mem_singleton_self _), below⟩

end Notices

/-- The reader's way through the changes of the board. -/
structure BoardRecord (f : WaitForward) (idText : EventId → String) (s₀ : Follower)
    (moves : List FollowerMove) (s : Follower) (handed : List Handed) : Prop where
  here : s = (Follower.machine f idText).after s₀ moves
  stays : ∀ archiveEpoch n, s₀.cursor.archive = some (archiveEpoch, n) →
    ∃ m, s.cursor.archive = some (archiveEpoch, m)
  notices : ∀ archiveEpoch m, s.cursor.archive = some (archiveEpoch, m) → ∃ n,
    Begins (Follower.machine f idText) s₀ moves s₀.cursor.archive
      (fun s => (archiveEpoch, s.board)) (archiveEpoch, n) ∧
    Notices s.board n (handed.filterMap noticeOf) m
  fresh : s.cursor.archive = none →
    s₀.cursor.archive = none ∧ handed.filterMap noticeOf = []

namespace BoardRecord

variable {idText : EventId → String} {s₀ s s' : Follower} {moves : List FollowerMove}
  {handed : List Handed} {fate : WaitFate}

theorem passes (record : BoardRecord f idText s₀ moves s handed) {i : FollowerMove}
    {more : List Handed} (step : Follower.step f idText s i = (s', more))
    (grows : s.board ≤ s'.board) (same : s'.cursor.archive = s.cursor.archive)
    (nothing : more.filterMap noticeOf = []) :
    BoardRecord f idText s₀ (moves ++ [i]) s' (handed ++ more) := by
  have quiet : (handed ++ more).filterMap noticeOf = handed.filterMap noticeOf := by
    rw [List.filterMap_append, nothing, List.append_nil]
  refine
    { here := ?_
      stays := fun archiveEpoch n began => ?_
      notices := fun archiveEpoch m held => ?_
      fresh := fun none => ?_ }
  · rw [Machine.after_append, ← record.here]
    exact (congrArg Prod.fst step).symm
  · rw [same]
    exact record.stays archiveEpoch n began
  · obtain ⟨n, begins, notices⟩ := record.notices archiveEpoch m (same ▸ held)
    rw [quiet]
    exact ⟨n, begins.append i, notices.grows grows⟩
  · rw [quiet]
    exact record.fresh (same ▸ none)

/-- The reader has got on. -/
theorem onward (record : BoardRecord f idText s₀ moves s handed) {i : FollowerMove}
    {more : List Handed} (step : Follower.step f idText s i = (s', more)) {archiveEpoch : ℤ}
    {n m : ℕ} (before : ∀ position, s.cursor.archive = some position → position.1 = archiveEpoch)
    (after : s'.cursor.archive = some (archiveEpoch, m))
    (begins : Begins (Follower.machine f idText) s₀ (moves ++ [i]) s₀.cursor.archive
      (fun s => (archiveEpoch, s.board)) (archiveEpoch, n))
    (notices : Notices s'.board n ((handed ++ more).filterMap noticeOf) m) :
    BoardRecord f idText s₀ (moves ++ [i]) s' (handed ++ more) := by
  refine
    { here := ?_
      stays := fun archiveEpoch' n began => ?_
      notices := fun archiveEpoch' m' held => ?_
      fresh := fun none => ?_ }
  · rw [Machine.after_append, ← record.here]
    exact (congrArg Prod.fst step).symm
  · obtain ⟨m', held⟩ := record.stays archiveEpoch' n began
    have same : archiveEpoch' = archiveEpoch := before _ held
    exact ⟨m, same ▸ after⟩
  · rw [after, Option.some.injEq, Prod.mk.injEq] at held
    obtain ⟨rfl, rfl⟩ := held
    exact ⟨n, begins, notices⟩
  · cases none.symm.trans after

/-- A wait that polls the board starts where the reader is, or at the number that stands. -/
theorem starts (record : BoardRecord f idText s₀ moves s handed) {base : Cursor}
    {polled : Option (ℤ × ℕ)}
    (started : Started f fate.gen (fate.met idText s) s.cursor base (fate.after s) polled)
    {archiveEpoch : ℤ} {m : ℕ} (held : base.archive = some (archiveEpoch, m)) :
    (∀ position, s.cursor.archive = some position → position.1 = archiveEpoch) ∧ ∃ n,
      Begins (Follower.machine f idText) s₀ (moves ++ [.wait fate]) s₀.cursor.archive
        (fun s => (archiveEpoch, s.board)) (archiveEpoch, n) ∧
      Notices s.board n (handed.filterMap noticeOf) m := by
  cases before : s.cursor.archive with
  | some position =>
    have same := (started.archived position before).2
    rw [held, Option.some.injEq] at same
    subst same
    obtain ⟨n, begins, notices⟩ := record.notices archiveEpoch m before
    refine ⟨?_, n, begins.append _, notices⟩
    rintro _ ⟨⟩
    rfl
  | none =>
    refine ⟨nofun, ?_⟩
    obtain ⟨fresh, silent⟩ := record.fresh before
    have read := started.unarchived before
    rw [held] at read
    -- the number that was read is the one that stands
    have stands : m = s.board := by
      cases stored : f.archiveEpoch with
      | none =>
        rw [stored] at read
        cases read
      | some epoch =>
        rw [stored] at read
        cases first : (fate.met idText s).first with
        | error fault =>
          rw [first] at read
          cases read
        | ok seq =>
          rw [first] at read
          cases read
          exact boardRead_ok first
    have begins : Begins (Follower.machine f idText) s₀ (moves ++ [.wait fate]) s₀.cursor.archive
        (fun s => (archiveEpoch, s.board))
        (archiveEpoch, ((Follower.machine f idText).after s₀ moves).board) := .here fresh _
    rw [← record.here] at begins
    rw [silent, stands]
    exact ⟨_, begins, .nil s.board _⟩

theorem left (record : BoardRecord f idText s₀ moves s handed) {next : Cursor}
    {more : List Handed} (left : LeftWith f idText s fate next more)
    (step : Follower.step f idText s (.wait fate) =
      (⟨(fate.once idText s).2, (fate.looped idText s).2.2, next⟩, more)) :
    BoardRecord f idText s₀ (moves ++ [.wait fate])
      ⟨(fate.once idText s).2, (fate.looped idText s).2.2, next⟩ (handed ++ more) := by
  have grows : s.board ≤ (fate.looped idText s).2.2 :=
    (mem_turnsFrom idText fate (fate.after s) fate.turns s.ring s.board).2.1
  -- without a notice the number is where the wait started
  have still : ∀ {base : Cursor} {polled : Option (ℤ × ℕ)},
      Started f fate.gen (fate.met idText s) s.cursor base (fate.after s) polled →
      next.archive = base.archive → more.filterMap noticeOf = [] →
      BoardRecord f idText s₀ (moves ++ [.wait fate])
        ⟨(fate.once idText s).2, (fate.looped idText s).2.2, next⟩ (handed ++ more) := by
    intro base polled started same nothing
    cases held : base.archive with
    | none =>
      refine record.passes step grows ?_ nothing
      cases before : s.cursor.archive with
      | none => exact same.trans held
      | some position => exact absurd ((started.archived position before).2.symm.trans held) nofun
    | some position =>
      obtain ⟨before, n, begins, notices⟩ := record.starts started held
      refine record.onward step before (same.trans held) begins ?_
      rw [List.filterMap_append, nothing, List.append_nil]
      exact notices.grows grows
  cases left with
  | stays => exact record.passes step grows rfl rfl
  | quiet started => exact still started rfl rfl
  | event started among reached later replied given counted advanced =>
    exact still started (Cursor.advance_spec advanced).2.2.2.1 rfl
  | @board base archiveEpoch m current started more made =>
    obtain ⟨before, n, begins, notices⟩ := record.starts started (started.archive _ rfl)
    refine record.onward step before rfl begins ?_
    rw [List.filterMap_append]
    exact (notices.grows grows).notice more made

theorem start : BoardRecord f idText s [] s [] where
  here := rfl
  stays _ n held := ⟨n, held⟩
  notices _ m held := ⟨m, .inl held, .nil s.board m⟩
  fresh none := ⟨none, rfl⟩

theorem keeps (record : BoardRecord f idText s₀ moves s handed) (i : FollowerMove) :
    BoardRecord f idText s₀ (moves ++ [i]) (Follower.step f idText s i).1
      (handed ++ (Follower.step f idText s i).2) := by
  cases i with
  | queue move => exact record.passes rfl le_rfl rfl rfl
  | change => exact record.passes rfl (Nat.le_succ _) rfl rfl
  | wait fate =>
    obtain ⟨next, more, outcome, step⟩ := step_wait f idText s fate
    rw [step]
    exact record.left outcome step

end BoardRecord

/-! ### Every wait and every run of waits -/

/-- What a wait answers once it has a cursor and a generation. -/
theorem wait_leads {at_ : Deployment} {c : Replies} {w w' : Boot} {ownerId orchestrationId : String}
    {token : String} {waited : Waited} {answer : WaitAnswer}
    (ran : (f.wait at_ w.db ownerId orchestrationId token reads).run c.answer w = (.ok waited, w'))
    (answered : waited.outcome = .ok (some answer)) :
    (answer = .emptyOrchestration ∨ answer = .cursorExpired ∨ answer = .boardChanged) ∨
      ∃ cursor gen, f.startCursor token w.cell.topologyRevision = .ok (.inr cursor) ∧
        (Registry.active at_).run c.answer w = (.ok gen, w') ∧ Leads f gen reads cursor answer := by
  rcases wait_stages ran with ⟨marker, rfl, markers⟩ | ⟨sessions, cursor, gen, -, decoded, active, rfl⟩
  · cases answered
    exact .inl markers
  · exact .inr ⟨cursor, gen, decoded, active, waitOn_leads answered⟩

/-- In every wait, with every cursor and whatever the daemon and the archive do: the absent
components are established at what is read of them, the archive's unless that read fails for the
moment; from there the answer advances the component of what it delivers, and a timeout none. So
readers that follow the cursors are handed the events of an epoch in order, and what is passed over
is of a session that the wait did not ask for; and they are told of the board's changes in order,
and of each of them. -/
theorem following_delivers (f : WaitForward) :
    (∀ at_ c ownerId orchestrationId token reads w w' waited answer,
      (f.wait at_ w.db ownerId orchestrationId token reads).run (Replies.answer c) w =
        (.ok waited, w') →
      waited.outcome = .ok (some answer) →
      (answer = .emptyOrchestration ∨ answer = .cursorExpired ∨ answer = .boardChanged) ∨
        ∃ cursor gen, f.startCursor token w.cell.topologyRevision = .ok (.inr cursor) ∧
          (Registry.active at_).run c.answer w = (.ok gen, w') ∧
          Leads f gen reads cursor answer) ∧
    ∀ idText g e bound ownerFloor earlier board cursor moves,
      let m := Follower.machine f idText
      let s : Follower :=
        ⟨EventRing.machine.after (EventRing.start bound ownerFloor) earlier, board, cursor⟩
      m.Along (Follower.Honest g e) s moves →
      EpochRecord f idText g e s moves (m.after s moves) (m.outputs s moves) ∧
        BoardRecord f idText s moves (m.after s moves) (m.outputs s moves) := by
  refine ⟨fun _ _ _ _ _ _ _ _ _ _ ran answered => wait_leads ran answered, ?_⟩
  intro idText g e bound ownerFloor earlier board cursor moves m s honest
  have attends : s.ring.Attends := (EventRing.attends_start bound ownerFloor).after earlier
  constructor
  · exact m.record_along (EpochRecord f idText g e s) (fun _ _ _ _ record good => record.keeps good)
      (.start attends) honest
  · exact m.record_along (BoardRecord f idText s) (fun _ _ _ i record _ => record.keeps i)
      .start honest

/-! ### A session that joins during a wait -/

def early : String := "s-00000001"

def joining : String := "s-00000002"

def ended (sid : String) : Daemon.Notice := { sessionId := sid, kind := .done }

/-- The first look at the counter fails, and while the wait for one session is held another session
joins the orchestration and ends its turn first. -/
def joinedWait : WaitFate where
  gen := ⟨⟨12, some "fp"⟩, firstEpoch, sampleGeneration, "/n.sock", none⟩
  sessions := [early]
  owns _ := true
  current := none
  first := some .sqlite
  turns := []
  single := .served
    [[.reserve (ended joining) none, .settle, .reserve (ended early) none, .settle]]

/-- The next wait is for both; its window closes after one turn. -/
def nextWait : WaitFate where
  gen := joinedWait.gen
  sessions := [early, joining]
  owns _ := true
  current := none
  first := none
  turns := [⟨0, none, true, [], .served []⟩, ⟨0, none, false, [], .held⟩]
  single := .held

def joiningMoves : List FollowerMove := [.wait joinedWait, .change, .wait nextWait]

theorem unplaced (g : String) (position : String × ℕ)
    (held : (∅ : Dict String (String × ℕ)).get? g = some position) : validGenerationId g = true := by
  simp at held

theorem epoch_named : "router-1" ≠ "" := by decide

/-- A reader without a position. -/
def newReader : Follower where
  ring := EventRing.machine.after (EventRing.start 2048 64) []
  board := 5
  cursor := ⟨"router-1", 1, ∅, none, epoch_named, unplaced⟩

def sampleReading : Machine Follower FollowerMove Handed :=
  Follower.machine sampleWait fun _ => "e"

def handedSeqs (handed : List Handed) : List ℕ :=
  (handed.filterMap (takenOf sampleGeneration firstEpoch)).map (·.seq)

/-- The first wait leaves the archive's component absent, though the store is read at once
afterwards; and the event of the session that joined is never handed out, though the next wait asks
for the session and the position has gone beyond the event. -/
theorem joining_passed_over :
    let first := sampleReading.after newReader [.wait joinedWait]
    let last := sampleReading.after newReader joiningMoves
    first.cursor.archive = none ∧
      handedSeqs (sampleReading.outputs newReader joiningMoves) = [2] ∧
      last.cursor.positions.get? sampleGeneration = some (firstEpoch, 2) ∧
      last.ring.history.map (fun e => (e.seq, e.sessionId)) = [(1, joining), (2, early)] := by
  decide +kernel

theorem following_delivers_joining :
    (∃ waited cursor, attendedWait = (.ok waited, attendedWait.2) ∧
      ((WaitAnswer.quiet cursor = .emptyOrchestration ∨ WaitAnswer.quiet cursor = .cursorExpired ∨
          WaitAnswer.quiet cursor = .boardChanged) ∨
        ∃ cursor' gen, sampleWait.startCursor "" attendedBoot.cell.topologyRevision =
            .ok (.inr cursor') ∧
          (Registry.active sampleDeployment).run drainedReplies.answer attendedBoot =
            (.ok gen, attendedWait.2) ∧
          Leads sampleWait gen eventlessReads cursor' (.quiet cursor))) ∧
    EpochRecord sampleWait (fun _ => "e") sampleGeneration firstEpoch newReader joiningMoves
        (sampleReading.after newReader joiningMoves)
        (sampleReading.outputs newReader joiningMoves) ∧
      BoardRecord sampleWait (fun _ => "e") newReader joiningMoves
        (sampleReading.after newReader joiningMoves)
        (sampleReading.outputs newReader joiningMoves) := by
  obtain ⟨waited, ran, silent, -⟩ := attendedWait_quiet
  refine ⟨?_, (following_delivers sampleWait).2 (fun _ => "e") sampleGeneration firstEpoch 2048 64 []
    5 newReader.cursor joiningMoves ?_⟩
  · obtain none | ⟨cursor, quiet⟩ := silent
    · have answers : (quietly attendedWait.1).isSome = true := by decide +kernel
      obtain ⟨outcome, asked⟩ := waited
      rw [ran] at answers
      cases none
      cases answers
    · exact ⟨waited, cursor, ran, (following_delivers sampleWait).1 sampleDeployment drainedReplies
        "owner" sampleRequest.orchestrationId "" eventlessReads attendedBoot attendedWait.2 waited
        (.quiet cursor) ran quiet⟩
  · have served : joinedWait.Honest := by
      refine ⟨nofun, fun forward member => ?_⟩
      rw [List.mem_singleton.mp member]
      trivial
    have held : nextWait.Honest := by
      refine ⟨nofun, fun forward member => ?_⟩
      simp only [WaitFate.forwards, nextWait, List.map_cons, List.map_nil, List.cons_append,
        List.nil_append, List.mem_cons, List.not_mem_nil, or_false] at member
      rcases member with rfl | rfl | rfl <;> trivial
    exact ⟨fun _ _ => served, trivial, fun _ _ => held, trivial⟩

end Nelix.Router
