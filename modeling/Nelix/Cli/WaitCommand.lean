import Nelix.Cli.Doorbell

/-!
# The wait command

`nelix wait` asks the router window after window, with the cursor that it holds, until a reply is worth
waking for or its time is over. It prints a block then; who is woken runs the command that ends the block.

## Main results

`caller_wakes_iff`: a caller who runs the printed command again and again is woken as it should be exactly
when no window that counts is answered by the marker of sessions that no one can wait for, no cursor is
rejected and no interrupt hides an event.
-/
namespace Nelix.Cli
open Contracts Router

/-! ### The loop -/

/-- One window: its reply with the time that is read after it, an error of the call, or an interrupt
before or after the reply is taken in. -/
inductive Turn
  | answered (reply : Reply) (clock : ℚ)
  | failed
  | interrupted (reply : Option Reply)

inductive Finish
  | printed (classified : Classified)
  /-- `wait failed`, on the error's own line. -/
  | failed

/-- The windows, each with the cursor that was sent, and how the wait ended; none while it goes on. -/
structure Ring where
  windows : List (Option String × Turn)
  finish : Option Finish

/-- `if classified["cursor"]: cursor = classified["cursor"]` -/
def carry (cursor : Json) (classified : Classified) : Json :=
  if classified.cursor.truthy then classified.cursor else cursor

section Loop
variable (shown : Json → String) (deadline : ℚ)

/-- `cmd_wait` from the router's health on. -/
def wait : Json → List Turn → Ring
  | _, [] => ⟨[], none⟩
  | cursor, turn :: rest =>
    match turn with
    | .failed => ⟨[(sent shown cursor, turn)], some .failed⟩
    | .interrupted reply =>
      let held := reply.elim cursor fun reply => carry cursor (classify reply.body)
      ⟨[(sent shown cursor, turn)], some (.printed ⟨.none, [], held⟩)⟩
    | .answered reply clock =>
      let classified := classify reply.body
      let held := carry cursor classified
      if classified.reason ≠ .none ∨ deadline ≤ clock then
        ⟨[(sent shown cursor, turn)], some (.printed { classified with cursor := held })⟩
      else
        let later := wait held rest
        ⟨(sent shown cursor, turn) :: later.windows, later.finish⟩

/-- The option's value, if it is given. -/
def argument (given : Option String) : Json := (given.map Json.text).getD .null

/-- An empty value counts as none. -/
def opening (given : Option String) : Option String := given.filter (· ≠ "")

/-- The waits of a caller who always runs the command that was printed. -/
def follow : Option String → List (ℚ × List Turn) → List Ring
  | _, [] => []
  | given, (deadline, turns) :: more =>
    let ring := wait shown deadline (argument given) turns
    ring ::
      match ring.finish with
      | some (.printed classified) => follow (sent shown classified.cursor) more
      | _ => []

end Loop

/-! ### What is asked of it -/

/-- What a list has up to the first that ends it, and that one. -/
def through {α : Type*} (p : α → Bool) : List α → List α
  | [] => []
  | x :: l => if p x then [x] else x :: through p l

namespace Turn

def reply : Turn → Option Reply
  | answered reply _ => some reply
  | failed => none
  | interrupted reply => reply

/-- The wait should end here. -/
def ends (deadline : ℚ) : Turn → Bool
  | answered reply clock => reply.rings || deadline ≤ clock
  | failed | interrupted _ => true

/-- A block is printed if the wait ends here. -/
def prints : Turn → Bool
  | failed => false
  | _ => true

/-- The cursor that its reply brings. -/
def cursor (turn : Turn) : Option String := turn.reply.bind Reply.cursor

/-- The last cursor that was brought, or else the one that was given. -/
def held (given : Option String) (turns : List Turn) : Option String :=
  (turns.filterMap Turn.cursor).getLast?.or given

/-- The reply rejects the cursor. -/
def rejects (turn : Turn) : Bool := turn.reply.any Reply.isResync

/-- The event that is delivered, as far as the block shows events. -/
def event (turn : Turn) : Option (List (String × Json)) := (turn.reply.bind Reply.delivered).map triage

end Turn

/-- What the caller sees of events. -/
def Ring.shown (ring : Ring) : List (List (String × Json)) :=
  match ring.finish with
  | some (.printed classified) => classified.events
  | _ => []

section Wakes
variable (shown : Json → String) (deadline : ℚ) (given : Option String) (turns : List Turn)

/-- One wait does what it should. -/
structure Wakes : Prop where
  /-- It ends at the first reply that is worth waking for, or when its time is over. -/
  ends : (wait shown deadline (argument given) turns).windows.map Prod.snd =
      through (Turn.ends deadline) turns ∧
    ((wait shown deadline (argument given) turns).finish.isSome ↔
      ∃ turn ∈ turns, turn.ends deadline = true)
  /-- Each window is asked with the last cursor that a window before it brought. -/
  carries : ∀ before turn after, through (Turn.ends deadline) turns = before ++ turn :: after →
    (wait shown deadline (argument given) turns).windows[before.length]? =
      some (Turn.held (opening given) before, turn)
  /-- The command carries the last cursor that was brought, unless the cursor was rejected. -/
  rearms : ∀ classified sentLast turn,
    (wait shown deadline (argument given) turns).finish = some (.printed classified) →
    (wait shown deadline (argument given) turns).windows.getLast? = some (sentLast, turn) →
    turn.rejects = false →
      sent shown classified.cursor = Turn.held (opening given) (through (Turn.ends deadline) turns)
  /-- The command does not carry a cursor that was just rejected. -/
  fresh : ∀ classified sentLast turn,
    (wait shown deadline (argument given) turns).finish = some (.printed classified) →
    (wait shown deadline (argument given) turns).windows.getLast? = some (sentLast, turn) →
    turn.rejects = true →
      sent shown classified.cursor = none ∨ sent shown classified.cursor ≠ sentLast
  /-- An event that is delivered is shown. -/
  rings : (wait shown deadline (argument given) turns).shown =
    (wait shown deadline (argument given) turns).windows.filterMap fun window => window.2.event

/-- The turn that should end the wait does it: it is no marker of sessions that no one can wait for, unless
the time is over; it rejects no cursor; and it hides no event behind an interrupt. -/
def Turn.Rung (held : Option String) : Turn → Prop
  | .answered .unownable clock => deadline ≤ clock
  | .answered reply _ => reply.isResync = true → held = none
  | .interrupted (some reply) => reply.delivered = none ∧ (reply.isResync = true → held = none)
  | .interrupted none | .failed => True

/-- The condition on one wait: it is about the first turn that should end it. -/
def Steady : Prop :=
  ∀ before turn after, turns = before ++ turn :: after → (∀ u ∈ before, u.ends deadline = false) →
    turn.Rung deadline (Turn.held (opening given) before)

end Wakes

section Caller
variable (shown : Json → String)

/-- Each wait of the caller does what it should. -/
def EachWakes : Option String → List (ℚ × List Turn) → Prop
  | _, [] => True
  | given, (deadline, turns) :: more =>
    Wakes shown deadline given turns ∧
      ∀ classified, (wait shown deadline (argument given) turns).finish = some (.printed classified) →
        EachWakes (sent shown classified.cursor) more

/-- The windows of all waits in turn. -/
def windowsOf (rings : List Ring) : List (Option String × Turn) := rings.flatMap Ring.windows

/-- A caller who always runs the printed command is woken as it should be. -/
structure CallerWakes (given : Option String) (calls : List (ℚ × List Turn)) : Prop where
  each : EachWakes shown given calls
  /-- Every event that is delivered is seen once, in order. -/
  once : (follow shown given calls).flatMap Ring.shown =
    (windowsOf (follow shown given calls)).filterMap fun window => window.2.event
  /-- A cursor that was rejected is not sent again at once. -/
  onward : (windowsOf (follow shown given calls)).IsChain fun window next =>
    window.2.rejects = true → next.1 = none ∨ next.1 ≠ window.1

/-- The condition on all waits: each starts from the last cursor that was brought before it. -/
def EachSteady : Option String → List (ℚ × List Turn) → Prop
  | _, [] => True
  | given, (deadline, turns) :: more =>
    Steady deadline given turns ∧
      ∀ before turn after, turns = before ++ turn :: after → (∀ u ∈ before, u.ends deadline = false) →
        turn.ends deadline = true → turn.prints = true →
          EachSteady (Turn.held (opening given) (before ++ [turn])) more

end Caller

/-! ### One wait -/

section One
variable {shown : Json → String} {deadline clock : ℚ} {given : Option String} {cursor : Json}
  {turns before after rest : List Turn} {turn : Turn} {reply : Reply}

theorem sent_argument : sent shown (argument given) = opening given := by
  cases given with
  | none => rfl
  | some token =>
    by_cases filled : token = ""
    · rw [filled]
      rfl
    · exact (sent_text shown filled).trans (by simp [opening, Option.filter, filled])

theorem Reply.cursor_filled {token : String} (brought : reply.cursor = some token) : token ≠ "" := by
  cases reply with
  | event _ cursor | quiet cursor => exact Option.some.inj brought ▸ cursor.filled
  | emptyOrchestration | cursorExpired | boardChanged | unownable | refused _ => cases brought

/-- The cursor that is held after a reply. -/
theorem sent_carry (reply : Reply) (cursor : Json) :
    sent shown (carry cursor (classify reply.body)) = reply.cursor.or (sent shown cursor) := by
  rw [classify_body, carry]
  cases brought : reply.cursor with
  | none => rfl
  | some token =>
    have filled := Reply.cursor_filled brought
    have truthy : (Json.text token).truthy = true := decide_eq_true filled
    simp [truthy, sent_text shown filled]

@[simp] theorem Turn.held_nil : Turn.held given [] = given := rfl

theorem Turn.held_concat :
    Turn.held given (before ++ [turn]) = turn.cursor.or (Turn.held given before) := by
  rw [held, held, List.filterMap_append, List.getLast?_append, List.filterMap_cons]
  cases turn.cursor <;> rfl

theorem Turn.held_cons : Turn.held given (turn :: rest) = Turn.held (turn.cursor.or given) rest := by
  rw [held, held, List.filterMap_cons]
  cases turn.cursor with
  | none => rfl
  | some token =>
    dsimp only
    rw [List.getLast?_cons]
    cases (rest.filterMap Turn.cursor).getLast? <;> rfl

/-- What the loop holds behind these turns. -/
def carried (cursor : Json) (turns : List Turn) : Json :=
  turns.foldl (fun cursor turn => turn.reply.elim cursor fun reply => carry cursor (classify reply.body))
    cursor

theorem sent_carried : sent shown (carried cursor turns) = Turn.held (sent shown cursor) turns := by
  induction turns generalizing cursor with
  | nil => rfl
  | cons turn turns ih =>
    rw [Turn.held_cons]
    refine ih.trans (congrArg (Turn.held · turns) ?_)
    rw [Turn.cursor]
    dsimp only
    cases turn.reply with
    | none => rfl
    | some reply => exact sent_carry reply cursor

/-- The windows of these turns. -/
def asked (shown : Json → String) : Json → List Turn → List (Option String × Turn)
  | _, [] => []
  | cursor, turn :: rest => (sent shown cursor, turn) :: asked shown (carried cursor [turn]) rest

theorem asked_snd : (asked shown cursor turns).map Prod.snd = turns := by
  induction turns generalizing cursor with
  | nil => rfl
  | cons turn turns ih => exact congrArg (turn :: ·) ih

theorem asked_append :
    asked shown cursor (before ++ after) =
      asked shown cursor before ++ asked shown (carried cursor before) after := by
  induction before generalizing cursor with
  | nil => rfl
  | cons turn before ih => exact congrArg (_ :: ·) ih

theorem asked_getElem? :
    (asked shown cursor (before ++ turn :: after))[before.length]? =
      some (Turn.held (sent shown cursor) before, turn) := by
  have length : (asked shown cursor before).length = before.length := by
    rw [← List.length_map (f := Prod.snd), asked_snd]
  rw [asked_append, ← length, List.getElem?_append_right (le_refl _), Nat.sub_self, asked, sent_carried]
  rfl

/-- A reply that does not end the wait is passed. -/
theorem wait_passes (quiet : reply.reason = .none) (early : clock < deadline) :
    wait shown deadline cursor (.answered reply clock :: rest) =
      ⟨(sent shown cursor, .answered reply clock) ::
          (wait shown deadline (carried cursor [.answered reply clock]) rest).windows,
        (wait shown deadline (carried cursor [.answered reply clock]) rest).finish⟩ := by
  have reason : (classify reply.body).reason = .none := by rw [classify_body, quiet]
  rw [wait]
  simp only
  rw [if_neg (by simp [reason, early])]
  rfl

/-- What does not end the wait, by right, is passed. -/
theorem wait_cons (goes : turn.ends deadline = false) :
    wait shown deadline cursor (turn :: rest) =
      ⟨(sent shown cursor, turn) :: (wait shown deadline (carried cursor [turn]) rest).windows,
        (wait shown deadline (carried cursor [turn]) rest).finish⟩ := by
  cases turn with
  | failed | interrupted _ => cases goes
  | answered reply clock =>
    obtain ⟨silent, early⟩ := Bool.or_eq_false_iff.mp goes
    refine wait_passes ?_ (not_le.mp (of_decide_eq_false early))
    cases reply with
    | quiet _ | refused _ => rfl
    | emptyOrchestration | cursorExpired | boardChanged | unownable | event _ _ => cases silent

theorem wait_append (go : ∀ u ∈ before, u.ends deadline = false) :
    wait shown deadline cursor (before ++ rest) =
      ⟨asked shown cursor before ++ (wait shown deadline (carried cursor before) rest).windows,
        (wait shown deadline (carried cursor before) rest).finish⟩ := by
  induction before generalizing cursor with
  | nil => rfl
  | cons turn before ih =>
    obtain ⟨goes, later⟩ := List.forall_mem_cons.mp go
    rw [List.cons_append, wait_cons goes, ih later]
    rfl

theorem through_of_none {α : Type*} {p : α → Bool} {l : List α} (none : ∀ x ∈ l, p x = false) :
    through p l = l := by
  induction l with
  | nil => rfl
  | cons x l ih =>
    obtain ⟨here, later⟩ := List.forall_mem_cons.mp none
    rw [through, if_neg (by simp [here]), ih later]

theorem through_append {α : Type*} {p : α → Bool} {l rest : List α} {x : α}
    (none : ∀ y ∈ l, p y = false) (here : p x = true) : through p (l ++ x :: rest) = l ++ [x] := by
  induction l with
  | nil => rw [List.nil_append, through, if_pos here, List.nil_append]
  | cons y l ih =>
    obtain ⟨first, later⟩ := List.forall_mem_cons.mp none
    rw [List.cons_append, through, if_neg (by simp [first]), ih later, List.cons_append]

/-- Either no turn ends the wait, or there is a first one. -/
theorem first_end (deadline : ℚ) (turns : List Turn) :
    (∀ u ∈ turns, u.ends deadline = false) ∨
      ∃ before turn after, turns = before ++ turn :: after ∧ (∀ u ∈ before, u.ends deadline = false) ∧
        turn.ends deadline = true := by
  induction turns with
  | nil => exact .inl (by simp)
  | cons turn turns ih =>
    cases here : turn.ends deadline with
    | true => exact .inr ⟨[], turn, turns, rfl, by simp, here⟩
    | false =>
      rcases ih with none | ⟨before, first, after, rfl, quiet, ends⟩
      · exact .inl (List.forall_mem_cons.mpr ⟨here, none⟩)
      · exact .inr ⟨turn :: before, first, after, rfl, List.forall_mem_cons.mpr ⟨here, quiet⟩, ends⟩

/-- How a wait ends at a turn. -/
def Turn.finish (turn : Turn) (cursor : Json) : Finish :=
  match turn with
  | .failed => .failed
  | .interrupted _ => .printed ⟨.none, [], carried cursor [turn]⟩
  | .answered reply _ => .printed { classify reply.body with cursor := carried cursor [turn] }

/-- The marker that is not known, in time. -/
def Turn.Overheard (deadline : ℚ) (turn : Turn) : Prop :=
  ∃ clock, turn = .answered .unownable clock ∧ clock < deadline

theorem wait_stops (ends : turn.ends deadline = true) (heard : ¬ turn.Overheard deadline) :
    wait shown deadline cursor (turn :: rest) =
      ⟨[(sent shown cursor, turn)], some (turn.finish cursor)⟩ := by
  cases turn with
  | failed => rfl
  | interrupted reply => rfl
  | answered reply clock =>
    have stops : (classify reply.body).reason ≠ .none ∨ deadline ≤ clock := by
      rw [classify_body]
      cases reply with
      | emptyOrchestration | cursorExpired | boardChanged | event _ _ => exact .inl (by simp [Reply.reason])
      | unownable => exact .inr (not_lt.mp fun early => heard ⟨clock, rfl, early⟩)
      | quiet _ | refused _ => exact .inr (of_decide_eq_true ends)
    rw [wait]
    simp only
    rw [if_pos stops]
    rfl

/-- What the block shows, where one is printed. -/
def Finish.events : Finish → List (List (String × Json))
  | .printed classified => classified.events
  | .failed => []

theorem Ring.shown_some {windows : List (Option String × Turn)} {finish : Finish} :
    (Ring.mk windows (some finish)).shown = finish.events := by
  cases finish <;> rfl

theorem Turn.event_none (goes : turn.ends deadline = false) : turn.event = none := by
  cases turn with
  | failed | interrupted _ => cases goes
  | answered reply clock =>
    obtain ⟨silent, -⟩ := Bool.or_eq_false_iff.mp goes
    cases reply with
    | quiet _ | refused _ => rfl
    | emptyOrchestration | cursorExpired | boardChanged | unownable | event _ _ => cases silent

theorem events_asked (go : ∀ u ∈ before, u.ends deadline = false) :
    (asked shown cursor before).filterMap (fun window => window.2.event) = [] := by
  induction before generalizing cursor with
  | nil => rfl
  | cons turn before ih =>
    obtain ⟨goes, later⟩ := List.forall_mem_cons.mp go
    rw [asked, List.filterMap_cons]
    dsimp only
    rw [Turn.event_none goes]
    exact ih later

/-- No turn is lost, and none is asked for with another cursor than the last. -/
theorem asked_argument (place : before ++ turn :: after = turns) :
    (asked shown (argument given) turns)[before.length]? =
      some (Turn.held (opening given) before, turn) := by
  rw [← place, asked_getElem?, sent_argument]

theorem wakes_of_none (go : ∀ u ∈ turns, u.ends deadline = false) :
    Wakes shown deadline given turns := by
  have whole : wait shown deadline (argument given) turns = ⟨asked shown (argument given) turns, none⟩ := by
    have passed : wait shown deadline (argument given) (turns ++ []) = _ := wait_append go
    rwa [List.append_nil, wait, List.append_nil] at passed
  refine ⟨?_, ?_, ?_, ?_, ?_⟩
  · rw [whole, asked_snd, through_of_none go]
    refine ⟨rfl, fun some => ?_, fun ⟨turn, member, ends⟩ => absurd (go turn member) (by simp [ends])⟩
    cases some
  · intro before turn after place
    rw [through_of_none go] at place
    rw [whole]
    exact asked_argument place.symm
  -- No block is printed, so there is no command to be wrong.
  · rw [whole]
    intro classified _ turn printed
    cases printed
  · rw [whole]
    intro classified _ turn printed
    cases printed
  · rw [whole]
    exact (events_asked go).symm

theorem wait_ends (quiet : ∀ u ∈ before, u.ends deadline = false) (ends : turn.ends deadline = true)
    (heard : ¬ turn.Overheard deadline) :
    wait shown deadline (argument given) (before ++ turn :: after) =
      ⟨asked shown (argument given) (before ++ [turn]),
        some (turn.finish (carried (argument given) before))⟩ := by
  rw [wait_append quiet, wait_stops ends heard, asked_append]
  rfl

/-- The cursor of the block that is printed. -/
theorem sent_finish {classified : Classified}
    (printed : turn.finish (carried (argument given) before) = .printed classified) :
    sent shown classified.cursor = Turn.held (opening given) (before ++ [turn]) := by
  have last : classified.cursor = carried (argument given) (before ++ [turn]) := by
    rw [carried, List.foldl_append]
    cases turn with
    | failed => cases printed
    | interrupted reply => exact (congrArg Classified.cursor (Finish.printed.inj printed)).symm
    | answered reply clock => exact (congrArg Classified.cursor (Finish.printed.inj printed)).symm
  rw [last, sent_carried, sent_argument]

/-- A reply that rejects a cursor brings none. -/
theorem Turn.cursor_none (rejects : turn.rejects = true) : turn.cursor = none := by
  rw [Turn.rejects] at rejects
  rw [Turn.cursor]
  cases known : turn.reply with
  | none => rfl
  | some reply =>
    rw [known] at rejects
    cases reply with
    | cursorExpired | boardChanged => rfl
    | emptyOrchestration | unownable | event _ _ | quiet _ | refused _ => cases rejects

theorem wakes_at_iff (quiet : ∀ u ∈ before, u.ends deadline = false)
    (ends : turn.ends deadline = true) (heard : ¬ turn.Overheard deadline) :
    Wakes shown deadline given (before ++ turn :: after) ↔
      (turn.rejects = true → Turn.held (opening given) before = none) ∧
        (turn.finish (carried (argument given) before)).events = turn.event.toList := by
  have ring : wait shown deadline (argument given) (before ++ turn :: after) = _ :=
    wait_ends quiet ends heard
  have last : (asked shown (argument given) (before ++ [turn])).getLast? =
      some (Turn.held (opening given) before, turn) := by
    rw [asked_append, asked, asked, List.getLast?_concat, sent_carried, sent_argument]
  have delivered : (asked shown (argument given) (before ++ [turn])).filterMap
      (fun window => window.2.event) = turn.event.toList := by
    rw [asked_append, List.filterMap_append, events_asked quiet, List.nil_append, asked, asked,
      List.filterMap_cons]
    cases turn.event <;> rfl
  have until_here : through (Turn.ends deadline) (before ++ turn :: after) = _ :=
    through_append quiet ends
  constructor
  · intro wakes
    have fresh := wakes.fresh
    have rings := wakes.rings
    rw [ring] at fresh rings
    refine ⟨fun rejects => ?_, (Ring.shown_some.symm.trans rings).trans delivered⟩
    cases finished : turn.finish (carried (argument given) before) with
    | failed =>
      cases turn with
      | failed => cases rejects
      | interrupted _ | answered _ _ => cases finished
    | printed classified =>
      -- The turn brings no cursor of its own: the block carries the one it was asked with, unless none was held.
      have cursor : sent shown classified.cursor = _ := sent_finish finished
      rw [Turn.held_concat, Turn.cursor_none rejects, Option.none_or] at cursor
      rcases fresh classified _ turn (congrArg some finished) last rejects with none | other
      · exact cursor ▸ none
      · exact absurd cursor other
  · rintro ⟨fresh, shows⟩
    refine ⟨?_, ?_, ?_, ?_, ?_⟩
    · rw [ring, until_here, asked_snd]
      exact ⟨rfl, fun _ => ⟨turn, by simp, ends⟩, fun _ => rfl⟩
    · intro before' turn' after' place
      rw [ring]
      exact asked_argument (place.symm.trans until_here)
    · intro classified sentLast turn' printed _ _
      rw [ring] at printed
      rw [until_here]
      exact sent_finish (Option.some.inj printed)
    · intro classified sentLast turn' printed final rejects
      rw [ring] at printed final
      obtain ⟨rfl, rfl⟩ := Prod.mk.inj (Option.some.inj (last.symm.trans final))
      left
      rw [sent_finish (Option.some.inj printed), Turn.held_concat, Turn.cursor_none rejects,
        fresh rejects]
      rfl
    · rw [ring, Ring.shown_some, shows, delivered]

/-- Where the turn rings, by cases on the turn. -/
theorem rung_iff (ends : turn.ends deadline = true) (heard : ¬ turn.Overheard deadline) {cursor : Json}
    {held : Option String} :
    (turn.rejects = true → held = none) ∧ (turn.finish cursor).events = turn.event.toList ↔
      turn.Rung deadline held := by
  cases turn with
  | failed => exact iff_of_true ⟨nofun, rfl⟩ trivial
  | interrupted reply =>
    cases reply with
    | none => exact iff_of_true ⟨nofun, rfl⟩ trivial
    | some reply =>
      have hidden : (([] : List (List (String × Json))) = (reply.delivered.map triage).toList) ↔
          reply.delivered = none := by
        cases reply.delivered <;> simp
      exact and_comm.trans (and_congr_left' hidden)
  | answered reply clock =>
    have shows : (Turn.finish (.answered reply clock) cursor).events =
        (Turn.answered reply clock).event.toList := by
      rw [Turn.finish, Finish.events, classify_body]
      rfl
    cases reply with
    | unownable =>
      have late : deadline ≤ clock := not_lt.mp fun early => heard ⟨clock, rfl, early⟩
      exact iff_of_true ⟨nofun, shows⟩ late
    | emptyOrchestration | cursorExpired | boardChanged | event _ _ | quiet _ | refused _ =>
      exact and_iff_left shows

/-- The marker that is not known lets the wait go on. -/
theorem not_wakes_of_overheard (quiet : ∀ u ∈ before, u.ends deadline = false)
    (overheard : turn.Overheard deadline) : ¬ Wakes shown deadline given (before ++ turn :: after) := by
  intro wakes
  obtain ⟨clock, rfl, early⟩ := overheard
  have goes : wait shown deadline (carried (argument given) before) (.answered .unownable clock :: after) =
      _ := wait_passes rfl early
  -- The marker should have been the last window, but the wait asks again whenever there is another turn.
  obtain ⟨windows, finish⟩ := wakes.ends
  have ends : Turn.ends deadline (.answered .unownable clock) = true := rfl
  rw [through_append quiet ends, wait_append quiet, goes, List.map_append, List.map_cons, asked_snd]
    at windows
  have nothing := List.cons.inj (List.append_cancel_left windows)
  have finished := finish.mpr ⟨_, List.mem_append_right _ (List.mem_cons_self ..), ends⟩
  rw [wait_append quiet, goes] at finished
  cases after with
  | nil => cases finished
  | cons next after =>
    have asks : (wait shown deadline (carried (carried (argument given) before)
        [.answered .unownable clock]) (next :: after)).windows ≠ [] := by
      cases next with
      | failed | interrupted _ => exact List.cons_ne_nil _ _
      | answered reply clock =>
        rw [wait]
        dsimp only
        split <;> exact List.cons_ne_nil _ _
    exact asks (List.map_eq_nil_iff.mp nothing.2)

theorem rung_of_goes {held : Option String} (goes : turn.ends deadline = false) :
    turn.Rung deadline held := by
  cases turn with
  | failed | interrupted _ => cases goes
  | answered reply clock =>
    obtain ⟨silent, -⟩ := Bool.or_eq_false_iff.mp goes
    cases reply with
    | quiet _ | refused _ => exact nofun
    | emptyOrchestration | cursorExpired | boardChanged | unownable | event _ _ => cases silent

/-- The condition is about the first turn that ends the wait. -/
theorem steady_at_iff (quiet : ∀ u ∈ before, u.ends deadline = false)
    (ends : turn.ends deadline = true) :
    Steady deadline given (before ++ turn :: after) ↔
      turn.Rung deadline (Turn.held (opening given) before) := by
  constructor
  · exact fun steady => steady before turn after rfl quiet
  · intro rung before' turn' after' place quiet'
    -- The other split is at the same turn, or after it, where that turn has gone on, or before it.
    rcases List.append_eq_append_iff.mp place with ⟨more, rfl, rest⟩ | ⟨more, rfl, rest⟩
    · cases more with
      | nil =>
        obtain ⟨rfl, -⟩ := List.cons.inj rest
        rwa [List.append_nil]
      | cons u more =>
        obtain ⟨rfl, -⟩ := List.cons.inj rest
        exact absurd (quiet' turn (by simp)) (by simp [ends])
    · cases more with
      | nil =>
        obtain ⟨rfl, -⟩ := List.cons.inj rest
        rwa [List.append_nil] at rung
      | cons u more =>
        obtain ⟨rfl, -⟩ := List.cons.inj rest
        exact rung_of_goes (quiet turn' (by simp))

theorem wakes_iff : Wakes shown deadline given turns ↔ Steady deadline given turns := by
  rcases first_end deadline turns with none | ⟨before, turn, after, rfl, quiet, ends⟩
  · refine iff_of_true (wakes_of_none none) fun before turn after place _ => ?_
    exact rung_of_goes (none turn (place ▸ by simp))
  · rw [steady_at_iff quiet ends]
    by_cases overheard : turn.Overheard deadline
    · refine iff_of_false (not_wakes_of_overheard quiet overheard) ?_
      obtain ⟨clock, rfl, early⟩ := overheard
      exact not_le.mpr early
    · exact (wakes_at_iff quiet ends overheard).trans (rung_iff ends overheard)

end One

/-! ### One wait after the other -/

section Again
variable {shown : Json → String} {deadline : ℚ} {given : Option String} {turns : List Turn}
  {calls : List (ℚ × List Turn)}

theorem finish_printed_iff {turn : Turn} {cursor : Json} :
    (∃ classified, turn.finish cursor = .printed classified) ↔ turn.prints = true := by
  cases turn with
  | failed => exact iff_of_false nofun nofun
  | interrupted _ | answered _ _ => exact iff_of_true ⟨_, rfl⟩ rfl

/-- The command that a wait prints carries the last cursor that was brought up to its end. -/
theorem printed_iff (steady : Steady deadline given turns) {p : Option String → Prop} :
    (∀ classified, (wait shown deadline (argument given) turns).finish = some (.printed classified) →
        p (sent shown classified.cursor)) ↔
      ∀ before turn after, turns = before ++ turn :: after → (∀ u ∈ before, u.ends deadline = false) →
        turn.ends deadline = true → turn.prints = true → p (Turn.held (opening given) (before ++ [turn])) := by
  have finish : ∀ before turn after, turns = before ++ turn :: after →
      (∀ u ∈ before, u.ends deadline = false) → turn.ends deadline = true →
      (wait shown deadline (argument given) turns).finish =
        some (turn.finish (carried (argument given) before)) := by
    rintro before turn after rfl quiet ends
    have heard : ¬ turn.Overheard deadline := by
      rintro ⟨clock, rfl, early⟩
      exact not_le.mpr early (steady before _ after rfl quiet)
    rw [wait_ends quiet ends heard]
  constructor
  · intro all before turn after place quiet ends prints
    obtain ⟨classified, printed⟩ := finish_printed_iff.mpr prints
    have printed' := (finish before turn after place quiet ends).trans (congrArg some printed)
    exact sent_finish printed ▸ all classified printed'
  · intro all classified printed
    rcases first_end deadline turns with none | ⟨before, turn, after, place, quiet, ends⟩
    · have wakes : Wakes shown deadline given turns := wakes_iff.mpr steady
      obtain ⟨turn, member, ends⟩ := wakes.ends.2.mp (by rw [printed]; rfl)
      exact absurd (none turn member) (by simp [ends])
    · have here := Option.some.inj ((finish before turn after place quiet ends).symm.trans printed)
      rw [sent_finish here]
      exact all before turn after place quiet ends (finish_printed_iff.mp ⟨classified, here⟩)

theorem each_wakes_iff : EachWakes shown given calls ↔ EachSteady given calls := by
  -- On the calls: what one wait's command carries is what the next wait is given.
  induction calls generalizing given with
  | nil => exact Iff.rfl
  | cons call calls ih =>
    obtain ⟨deadline, turns⟩ := call
    rw [EachWakes, EachSteady, wakes_iff]
    refine and_congr_right fun steady => ?_
    exact (forall_congr' fun classified => imp_congr_right fun _ => ih).trans
      (printed_iff steady (p := fun given => EachSteady given calls))

theorem events_once (each : EachWakes shown given calls) :
    (follow shown given calls).flatMap Ring.shown =
      (windowsOf (follow shown given calls)).filterMap fun window => window.2.event := by
  induction calls generalizing given with
  | nil => rfl
  | cons call calls ih =>
    obtain ⟨deadline, turns⟩ := call
    obtain ⟨wakes, later⟩ := each
    rw [follow, windowsOf, List.flatMap_cons, List.flatMap_cons, List.filterMap_append, wakes.rings]
    refine congrArg _ ?_
    cases finished : (wait shown deadline (argument given) turns).finish with
    | none => rfl
    | some finish =>
      cases finish with
      | failed => rfl
      | printed classified => exact ih (later classified finished)

theorem through_chain {α : Type*} {p : α → Bool} (l : List α) :
    (through p l).IsChain fun x _ => p x = false := by
  induction l with
  | nil => exact .nil
  | cons x l ih =>
    rw [through]
    split
    case isTrue => exact .singleton x
    case isFalse goes => exact List.isChain_cons.mpr ⟨fun _ _ => eq_false_of_ne_true goes, ih⟩

/-- The first window of a caller is asked with the cursor that was given. -/
theorem first_sent {window : Option String × Turn}
    (first : window ∈ (windowsOf (follow shown given calls)).head?) : window.1 = opening given := by
  cases calls with
  | nil => cases first
  | cons call calls =>
    obtain ⟨deadline, turns⟩ := call
    cases turns with
    | nil => cases first
    | cons turn turns =>
      have asked : ∃ more, (wait shown deadline (argument given) (turn :: turns)).windows =
          (sent shown (argument given), turn) :: more := by
        cases turn with
        | failed | interrupted _ => exact ⟨_, rfl⟩
        | answered reply clock =>
          rw [wait]
          dsimp only
          split <;> exact ⟨_, rfl⟩
      obtain ⟨more, asked⟩ := asked
      rw [follow, windowsOf, List.flatMap_cons, asked] at first
      obtain rfl := Option.some.inj first
      exact sent_argument

theorem opening_or (given : Option String) : opening given = none ∨ opening given = given := by
  rw [opening]
  cases given with
  | none => exact .inl rfl
  | some token =>
    rw [Option.filter]
    split
    · exact .inr rfl
    · exact .inl rfl

theorem rejects_ends {turn : Turn} (rejects : turn.rejects = true) : turn.ends deadline = true := by
  cases turn with
  | failed | interrupted _ => rfl
  | answered reply clock =>
    cases reply with
    | cursorExpired | boardChanged => rfl
    | emptyOrchestration | unownable | event _ _ | quiet _ | refused _ => cases rejects

theorem goes_onward (each : EachWakes shown given calls) :
    (windowsOf (follow shown given calls)).IsChain fun window next =>
      window.2.rejects = true → next.1 = none ∨ next.1 ≠ window.1 := by
  induction calls generalizing given with
  | nil => exact .nil
  | cons call calls ih =>
    obtain ⟨deadline, turns⟩ := call
    obtain ⟨wakes, later⟩ := each
    rw [follow, windowsOf, List.flatMap_cons]
    refine List.isChain_append.mpr ⟨?_, ?_, ?_⟩
    -- A window that rejects its cursor ends its wait, so the next one belongs to the next wait.
    · have within := through_chain (p := Turn.ends deadline) turns
      rw [← wakes.ends.1, List.isChain_map] at within
      exact within.imp fun window next goes rejects =>
        absurd (rejects_ends rejects) (Bool.eq_false_iff.mp goes)
    · cases finished : (wait shown deadline (argument given) turns).finish with
      | none => exact .nil
      | some finish =>
        cases finish with
        | failed => exact .nil
        | printed classified => exact ih (later classified finished)
    · intro window last next first rejects
      cases finished : (wait shown deadline (argument given) turns).finish with
      | none =>
        rw [finished] at first
        cases first
      | some finish =>
        rw [finished] at first
        cases finish with
        | failed => cases first
        | printed classified =>
          rw [first_sent first]
          rcases opening_or (sent shown classified.cursor) with none | same
          · exact .inl none
          · rw [same]
            exact wakes.fresh classified window.1 window.2 finished last rejects

end Again

/-- A caller who always runs the printed command is woken as it should be exactly when, in each of its
waits, the first turn that should end the wait is no marker of sessions that no one can wait for, unless
the time is over, rejects no cursor, and hides no event behind an interrupt. -/
theorem caller_wakes_iff (shown : Json → String) (given : Option String)
    (calls : List (ℚ × List Turn)) : CallerWakes shown given calls ↔ EachSteady given calls := by
  have steadily : EachWakes shown given calls ↔ EachSteady given calls := each_wakes_iff
  rw [← steadily]
  exact ⟨CallerWakes.each, fun each => ⟨each, events_once each, goes_onward each⟩⟩

/-- A wait whose sessions no one can wait for is asked again, and is still not over; and the command after
an expired cursor carries that cursor. -/
theorem caller_spins :
    (wait (fun _ => "") 1800 (argument none) [.answered .unownable 0, .answered .unownable 1]).windows.length
        = 2 ∧
      (wait (fun _ => "") 1800 (argument none) [.answered .unownable 0, .answered .unownable 1]).finish = none ∧
      ¬ CallerWakes (fun _ => "") none [(1800, [.answered .unownable 0, .answered .unownable 1])] ∧
      (∃ classified, (wait (fun _ => "") 1800 (argument (some "c")) [.answered .cursorExpired 0]).finish =
        some (.printed classified) ∧ sent (fun _ => "") classified.cursor = some "c") ∧
      ¬ CallerWakes (fun _ => "") (some "c") [(1800, [.answered .cursorExpired 0])] := by
  have goes : ∀ rest, wait (fun _ => "") 1800 .null (.answered .unownable 0 :: rest) =
      ⟨(none, .answered .unownable 0) :: (wait (fun _ => "") 1800 .null rest).windows,
        (wait (fun _ => "") 1800 .null rest).finish⟩ := fun rest => wait_passes rfl (by decide +kernel)
  have goes' : wait (fun _ => "") 1800 .null [.answered .unownable 1] =
      ⟨[(none, .answered .unownable 1)], none⟩ := wait_passes rfl (by decide +kernel)
  refine ⟨?_, ?_, fun wakes => ?_, ⟨_, rfl, rfl⟩, fun wakes => ?_⟩
  · rw [show argument none = .null from rfl, goes, goes']
    rfl
  · rw [show argument none = .null from rfl, goes, goes']
  · have late : (1800 : ℚ) ≤ 0 := wakes_iff.mp wakes.each.1 [] _ _ rfl (by simp)
    exact absurd late (by decide +kernel)
  · exact absurd (wakes_iff.mp wakes.each.1 [] _ _ rfl (by simp) rfl) (by decide)

end Nelix.Cli
