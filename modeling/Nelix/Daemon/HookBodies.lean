import Nelix.Core.Dict
import Nelix.Core.JsonText
import Nelix.Core.Machine
import Nelix.Daemon.Belief
import Nelix.Daemon.Hooks

/-!
# Hook bodies

The body of a hook's request is JSON of any shape, and what was in it stays as it came until the monitor
reads it. An exception there ends the monitor: the session is crashed.

## Main results

`normalizeBody_ok_iff`: what the monitor makes of a body, and of which ones it makes nothing.

`monitor_spared_iff`: in every run the monitor is not ended by a hook exactly when every hook that it takes
is harmless.

`normalizeBody_typed`: where the members have the types that they should have, this is the normalizer of
hooks.
-/
namespace Nelix.Daemon
open Core Core.JsonText

/-! ### Decoded values -/

mutual
/-- How deep the value is nested. -/
def depth : Document → ℕ
  | .list items => 1 + depthItems items
  | .object fields => 1 + depthFields fields
  | _ => 0

def depthItems : List Document → ℕ
  | [] => 0
  | item :: rest => max (depth item) (depthItems rest)

def depthFields : List (Text × Document) → ℕ
  | [] => 0
  | (_, value) :: rest => max (depth value) (depthFields rest)
end

/-- What the interpreter does with a value: the truth of a float, the text that `str()` makes of what is
no text, the first 16 digits of the SHA-1 of a name and an input, and how deep a value `json.dumps`,
`str()` and the log's `json.dumps` can take in the monitor's thread. None of the log's is a log that is
not at debug level. -/
structure Interpreter where
  floatTruth : List Char → Bool
  shown : Document → Text
  digest : Text → Document → String
  dumpsRoom : ℕ
  strRoom : ℕ
  logRoom : Option ℕ

/-- What is raised in the monitor. -/
inductive HookFault
  | attributeError
  | unicodeEncodeError
  | recursionError
  deriving DecidableEq

section Values
variable (py : Interpreter)

/-- Python's truth of the value. -/
def isTruthy : Document → Bool
  | .null => false
  | .bool value => value
  | .int value _ => value ≠ 0
  | .float literal => py.floatTruth literal
  | .text value => !value.isEmpty
  | .list items => !items.isEmpty
  | .object fields => !fields.isEmpty

/-- `value == expected` for a str. -/
def isText (expected : String) : Document → Bool
  | .text value => value = Text.ofString expected
  | _ => false

/-- `a or b` -/
def orElse (a b : Document) : Document := if isTruthy py a then a else b

/-- UTF-8 has no code for the halves of a pair. -/
def isEncodable (t : Text) : Bool := t.all fun p => !p.isHigh && !p.isLow

end Values

/-! ### The request -/

/-- A hook as it is queued. -/
structure HookBody where
  event : Document
  toolName : Document
  toolInput : Document
  isInterrupt : Bool
  notification : Document

/-- `body.get(key)` -/
def member (fields : List (Text × Document)) (key : String) : Document :=
  ((Dict.ofFields fields).get? (Text.ofString key)).getD .null

/-- `_dispatch_hook` from the decoded body on: none is the answer 400. -/
def dispatchHook (py : Interpreter) : Document → Option HookBody
  | .object fields =>
    ((Dict.ofFields fields).get? (Text.ofString "hook_event_name")).map fun event =>
      { event
        toolName := member fields "tool_name"
        toolInput := orElse py (member fields "tool_input") (.object [])
        isInterrupt := isTruthy py (member fields "is_interrupt")
        notification := orElse py (member fields "message") (member fields "matcher") }
  | _ => none

/-! ### The normalizer -/

section Normalizer
variable (py : Interpreter)

/-- `f"{value}"`, encoded with what follows it, which is ASCII. -/
def encodeValue : Document → Except HookFault Text
  | .text name => if isEncodable name then .ok name else .error .unicodeEncodeError
  -- `str()` escapes what cannot be printed, so its text can be encoded.
  | value => if depth value ≤ py.strRoom then .ok (py.shown value) else .error .recursionError

/-- `f"{tool_name or ''}"` -/
def encodeName (toolName : Document) : Except HookFault Text :=
  encodeValue py (orElse py toolName (.text []))

/-- `gate_fingerprint` -/
def bodyFingerprint (toolName toolInput : Document) : Except HookFault (Option String) :=
  if isTruthy py toolInput then
    if depth toolInput ≤ py.dumpsRoom then do
      let name ← encodeName py toolName
      pure (some (py.digest name toolInput))
    else .error .recursionError
  else .ok none

/-- `note.startswith(start)` for a note that is a text. -/
def startsText (start : String) (note : Text) : Bool := (Text.ofString start).isPrefixOf note

/-- A notification is told by how its text begins. -/
def readNotification : Document → Except HookFault HookObservation
  | .text note =>
    if startsText "permission" note then
      .ok { kind := .waitingForUser, promptKind := some .permissionChoice }
    else if startsText "idle" note then .ok { kind := .idle, closesTurn := true }
    else .ok { kind := .working }
  | _ => .error .attributeError

/-- `normalize_claude_hook`; the raw event is told apart. -/
def normalizeBody (ev : HookBody) : Except HookFault HookObservation :=
  if isText "Stop" ev.event || isText "StopFailure" ev.event then
    .ok { kind := .idle, closesTurn := true, interrupted := ev.isInterrupt }
  else if isText "UserPromptSubmit" ev.event then .ok { kind := .working, opensTurn := true }
  else if isText "PermissionRequest" ev.event then do
    let gateFp ← bodyFingerprint py ev.toolName ev.toolInput
    pure { kind := .waitingForUser, promptKind := some .permissionChoice, gateFp }
  else if isText "AskUserQuestion" ev.toolName && isText "PreToolUse" ev.event then do
    let gateFp ← bodyFingerprint py ev.toolName ev.toolInput
    pure { kind := .waitingForUser, promptKind := some .modalChoice, gateFp }
  else if isText "AskUserQuestion" ev.toolName && isText "PostToolUse" ev.event then
    .ok { kind := .working, clearsPending := true }
  else if isText "Notification" ev.event then
    readNotification (orElse py ev.notification (.text []))
  else do
    let gateFp ←
      if isText "PreToolUse" ev.event then bodyFingerprint py ev.toolName ev.toolInput else .ok none
    pure { kind := .working, gateFp }

/-- The line `hook_applied`, which shows the raw event. -/
def logEvent (event : Document) : Except HookFault Unit :=
  match py.logRoom with
  | none => .ok ()
  | some room => if depth event + 1 ≤ room then .ok () else .error .recursionError

end Normalizer

/-! ### The monitor -/

/-- The monitor's part of a session: the hooks that wait, the belief engine, what was raised out of the
loop, and whether the loop is over. -/
structure Monitor where
  queue : List HookBody := []
  engine : BeliefEngine
  exc : Option HookFault := none
  isOver : Bool := false

/-- What happens around the hooks: a request, the monitor's look at its queue, whatever else the session
does to its engine, and an end of the loop for another reason. -/
inductive MonitorMove
  | posted (body : Document)
  | taken (now : Time)
  | other (f : BeliefEngine → BeliefEngine)
  | ended

section Monitoring
variable (py : Interpreter) (cfg : BeliefConfig)

/-- One round of `_drain_hooks`, with what `_run` does of what is raised. -/
def takeHook (s : Monitor) (now : Time) : Monitor × List HookBody :=
  if s.isOver then (s, [])
  else
    match s.queue with
    | [] => (s, [])
    | ev :: rest =>
      match normalizeBody py ev with
      | .error fault => ({ s with queue := rest, exc := some fault, isOver := true }, [ev])
      | .ok hobs =>
        let engine := (BeliefEngine.onHook cfg s.engine hobs now).1.drainNotes.1
        match logEvent py ev.event with
        | .error fault => ({ s with queue := rest, engine, exc := some fault, isOver := true }, [ev])
        | .ok () => ({ s with queue := rest, engine }, [ev])

/-- The outputs are the hooks that the monitor takes. -/
def monitor : Machine Monitor MonitorMove HookBody where
  step s
    | .posted body => ({ s with queue := s.queue ++ (dispatchHook py body).toList }, [])
    | .taken now => takeHook py cfg s now
    | .other f => (if s.isOver then s else { s with engine := f s.engine }, [])
    | .ended => ({ s with isOver := true }, [])

/-- `_finish_publish`: what was raised out of the loop makes the session crashed. -/
def Monitor.isCrashedByHook (s : Monitor) : Bool := s.exc.isSome

end Monitoring

/-! ### Harmless hooks -/

section Harmless
variable (py : Interpreter)

/-- A text that has a code, or a value that is not nested too deep. -/
def EncodesWell : Document → Prop
  | .text name => isEncodable name = true
  | value => depth value ≤ py.strRoom

/-- The name can be put before what is hashed. -/
def NamesWell (toolName : Document) : Prop := isTruthy py toolName = true → EncodesWell py toolName

/-- A notification's message is a text, if it is truthy; a gate's name and input can be hashed; and the
event can be logged. -/
structure HookBody.Harmless (ev : HookBody) : Prop where
  note : isText "Notification" ev.event = true → isTruthy py ev.notification = true →
    ∃ note, ev.notification = .text note
  gate : isText "PermissionRequest" ev.event = true ∨ isText "PreToolUse" ev.event = true →
    isTruthy py ev.toolInput = true → depth ev.toolInput ≤ py.dumpsRoom ∧ NamesWell py ev.toolName
  logged : ∀ room ∈ py.logRoom, depth ev.event + 1 ≤ room

variable {py : Interpreter} {ev : HookBody} {value toolName toolInput : Document}

theorem isText_iff {expected : String} :
    isText expected value = true ↔ value = .text (Text.ofString expected) := by
  cases value <;> simp [isText]

theorem isText_unique {a b : String} (here : isText a value = true) (other : a ≠ b) :
    isText b value = false := by
  refine Bool.eq_false_iff.mpr fun there => other ?_
  rw [isText_iff.mp here, isText_iff] at there
  exact Text.ofString_injective (Document.text.inj there)

theorem encodeValue_ok_iff : (∃ name, encodeValue py value = .ok name) ↔ EncodesWell py value := by
  cases value with
  | text name =>
    rw [encodeValue, EncodesWell]
    split
    case isTrue encodable => exact iff_of_true ⟨_, rfl⟩ encodable
    case isFalse halves => exact iff_of_false nofun halves
  | null | bool _ | int _ _ | float _ | list _ | object _ =>
    rw [encodeValue.eq_def, EncodesWell.eq_def]
    dsimp only
    split
    case isTrue fits => exact iff_of_true ⟨_, rfl⟩ fits
    case isFalse deep => exact iff_of_false nofun deep

theorem encodeName_ok_iff :
    (∃ name, encodeName py toolName = .ok name) ↔ NamesWell py toolName := by
  rw [encodeName, orElse, encodeValue_ok_iff, NamesWell]
  by_cases truthy : isTruthy py toolName = true
  · rw [if_pos truthy]
    exact ⟨fun well _ => well, fun well => well truthy⟩
  · rw [if_neg truthy]
    exact iff_of_true rfl fun truthy' => absurd truthy' truthy

theorem bodyFingerprint_ok_iff :
    (∃ fp, bodyFingerprint py toolName toolInput = .ok fp) ↔
      (isTruthy py toolInput = true → depth toolInput ≤ py.dumpsRoom ∧ NamesWell py toolName) := by
  rw [bodyFingerprint]
  by_cases truthy : isTruthy py toolInput = true
  · rw [if_pos truthy, ← encodeName_ok_iff]
    simp only [truthy, true_imp_iff]
    by_cases fits : depth toolInput ≤ py.dumpsRoom
    · rw [if_pos fits]
      cases encodeName py toolName with
      | ok name => exact iff_of_true ⟨_, rfl⟩ ⟨fits, _, rfl⟩
      | error fault => exact iff_of_false nofun nofun
    · rw [if_neg fits]
      exact iff_of_false nofun fun both => fits both.1
  · rw [if_neg truthy]
    exact iff_of_true ⟨_, rfl⟩ fun truthy' => absurd truthy' truthy

theorem readNotification_ok_iff :
    (∃ hobs, readNotification value = .ok hobs) ↔ ∃ note, value = .text note := by
  cases value with
  | text note =>
    refine iff_of_true ?_ ⟨note, rfl⟩
    rw [readNotification]
    split_ifs <;> exact ⟨_, rfl⟩
  | null | bool _ | int _ _ | float _ | list _ | object _ =>
    refine iff_of_false ?_ ?_
    · rintro ⟨_, read⟩
      cases read
    · rintro ⟨_, text⟩
      cases text

/-- A fingerprint that is taken on is made or fails as it is. -/
theorem bind_ok_iff {ε α β : Type} {r : Except ε α} {f : α → β} :
    (∃ b, (do let a ← r; pure (f a)) = Except.ok b) ↔ ∃ a, r = .ok a := by
  cases r with
  | ok a => exact iff_of_true ⟨_, rfl⟩ ⟨_, rfl⟩
  | error e => exact iff_of_false nofun nofun

theorem normalizeBody_ok_iff :
    (∃ hobs, normalizeBody py ev = .ok hobs) ↔
      (isText "Notification" ev.event = true → isTruthy py ev.notification = true →
          ∃ note, ev.notification = .text note) ∧
        (isText "PermissionRequest" ev.event = true ∨ isText "PreToolUse" ev.event = true →
          isTruthy py ev.toolInput = true →
            depth ev.toolInput ≤ py.dumpsRoom ∧ NamesWell py ev.toolName) := by
  -- The event is one of those that are looked for, or none of them.
  rw [normalizeBody]
  by_cases stop : (isText "Stop" ev.event || isText "StopFailure" ev.event) = true
  · rw [if_pos stop]
    have others : ∀ b ∈ ["Notification", "PermissionRequest", "PreToolUse"], isText b ev.event = false := by
      intro b member
      rcases Bool.or_eq_true_iff.mp stop with here | here
      · exact isText_unique here (by rintro rfl; revert member; decide)
      · exact isText_unique here (by rintro rfl; revert member; decide)
    simp [others "Notification" (by decide), others "PermissionRequest" (by decide),
      others "PreToolUse" (by decide)]
  rw [if_neg stop]
  by_cases submit : isText "UserPromptSubmit" ev.event = true
  · rw [if_pos submit]
    simp [isText_unique submit (show "UserPromptSubmit" ≠ "Notification" by decide),
      isText_unique submit (show "UserPromptSubmit" ≠ "PermissionRequest" by decide),
      isText_unique submit (show "UserPromptSubmit" ≠ "PreToolUse" by decide)]
  rw [if_neg submit]
  by_cases request : isText "PermissionRequest" ev.event = true
  · rw [if_pos request, bind_ok_iff, bodyFingerprint_ok_iff]
    simp [request, isText_unique request (show "PermissionRequest" ≠ "Notification" by decide)]
  rw [if_neg request]
  by_cases note : isText "Notification" ev.event = true
  · have pre := isText_unique note (show "Notification" ≠ "PreToolUse" by decide)
    have post := isText_unique note (show "Notification" ≠ "PostToolUse" by decide)
    simp only [pre, post, request, note, Bool.and_false, Bool.false_eq_true, if_false, if_true,
      or_self, false_imp_iff, true_imp_iff, and_true]
    rw [orElse, readNotification_ok_iff]
    by_cases truthy : isTruthy py ev.notification = true
    · simp only [truthy, if_true, true_imp_iff]
    · rw [if_neg truthy]
      exact iff_of_true ⟨_, rfl⟩ fun truthy' => absurd truthy' truthy
  have silent : isText "Notification" ev.event = false := Bool.eq_false_iff.mpr note
  have unasked : isText "PermissionRequest" ev.event = false := Bool.eq_false_iff.mpr request
  simp only [silent, unasked, Bool.false_eq_true, if_false, false_imp_iff, true_and, false_or]
  by_cases pre : isText "PreToolUse" ev.event = true
  · have post := isText_unique pre (show "PreToolUse" ≠ "PostToolUse" by decide)
    simp only [pre, post, Bool.and_true, Bool.and_false, Bool.false_eq_true, if_true, if_false,
      true_imp_iff]
    split
    case isTrue modal => rw [bind_ok_iff, bodyFingerprint_ok_iff]
    case isFalse plain => rw [bind_ok_iff, bodyFingerprint_ok_iff]
  · have other : isText "PreToolUse" ev.event = false := Bool.eq_false_iff.mpr pre
    simp only [other, Bool.and_false, Bool.false_eq_true, if_false, false_imp_iff, iff_true]
    split
    case isTrue answered => exact ⟨_, rfl⟩
    case isFalse plain => exact ⟨_, rfl⟩

theorem logEvent_ok_iff :
    logEvent py value = .ok () ↔ ∀ room ∈ py.logRoom, depth value + 1 ≤ room := by
  rw [logEvent]
  cases py.logRoom with
  | none => simp
  | some room =>
    dsimp only
    split
    case isTrue fits => exact iff_of_true rfl fun other same => Option.some.inj same ▸ fits
    case isFalse deep => exact iff_of_false nofun fun all => deep (all room rfl)

theorem HookBody.harmless_iff :
    ev.Harmless py ↔ (∃ hobs, normalizeBody py ev = .ok hobs) ∧ logEvent py ev.event = .ok () := by
  rw [normalizeBody_ok_iff, logEvent_ok_iff]
  exact ⟨fun ⟨note, gate, logged⟩ => ⟨⟨note, gate⟩, logged⟩, fun ⟨⟨note, gate⟩, logged⟩ => ⟨note, gate, logged⟩⟩

/-! ### Typed bodies -/

/-- The members have the types that they should have. -/
structure HookBody.Typed (py : Interpreter) (body : HookBody) (ev : HookEvent) : Prop where
  event : body.event = .text (Text.ofString ev.event)
  toolName : body.toolName = (ev.toolName.map fun name => Document.text (Text.ofString name)).getD .null
  toolInput : isTruthy py body.toolInput = !ev.toolInput.isEmpty
  isInterrupt : body.isInterrupt = ev.isInterrupt
  notification :
    body.notification = (ev.notification.map fun note => Document.text (Text.ofString note)).getD .null

theorem isText_ofString {expected given : String} :
    isText expected (.text (Text.ofString given)) = decide (given = expected) := by
  refine Bool.eq_iff_iff.mpr ?_
  rw [isText_iff, decide_eq_true_iff]
  exact ⟨fun same => Text.ofString_injective (Document.text.inj same), fun same => same ▸ rfl⟩

theorem startsText_ofString (start note : String) :
    startsText start (Text.ofString note) = note.startsWith start := by
  have char_inj : Function.Injective CodePoint.char := fun a b same => CodePoint.char.inj same
  refine Bool.eq_iff_iff.mpr ?_
  rw [startsText, List.isPrefixOf_iff_prefix, String.startsWith_string_iff]
  exact List.prefix_map_iff_of_injective char_inj

theorem isEncodable_ofString (s : String) : isEncodable (Text.ofString s) = true := by
  rw [isEncodable, List.all_eq_true]
  intro p member
  obtain ⟨c, -, rfl⟩ := List.mem_map.mp member
  rfl

/-- `value or ''` for a text or nothing. -/
theorem orElse_typed {value : Option String} :
    orElse py ((value.map fun s => Document.text (Text.ofString s)).getD .null) (.text []) =
      .text (Text.ofString (value.getD "")) := by
  cases value with
  | none => rfl
  | some s =>
    rw [orElse]
    by_cases truthy : isTruthy py (.text (Text.ofString s)) = true
    · exact if_pos truthy
    · have empty : Text.ofString s = [] := by simpa [isTruthy] using truthy
      exact (if_neg truthy).trans (congrArg Document.text empty.symm)

theorem encodeName_typed {name : Option String} :
    encodeName py ((name.map fun name => Document.text (Text.ofString name)).getD .null) =
      .ok (Text.ofString (name.getD "")) := by
  rw [encodeName, orElse_typed]
  exact if_pos (isEncodable_ofString _)

/-- With members of the right types, the hook is read as the normalizer of hooks reads it. -/
theorem normalizeBody_typed {event : HookEvent} (typed : ev.Typed py event)
    (fits : depth ev.toolInput ≤ py.dumpsRoom) :
    normalizeBody py ev =
      .ok { normalizeClaudeHook (fun name _ => py.digest (Text.ofString name) ev.toolInput) event with
        rawEvent := "" } := by
  have gate : bodyFingerprint py ev.toolName ev.toolInput =
      .ok (gateFingerprint (fun name _ => py.digest (Text.ofString name) ev.toolInput) event.toolName
        event.toolInput) := by
    rw [bodyFingerprint, gateFingerprint, typed.toolInput, typed.toolName]
    cases event.toolInput.isEmpty with
    | true => rfl
    | false =>
      have goes : (!false) = true := rfl
      rw [if_pos goes, if_pos fits, encodeName_typed]
      rfl
  have modal : isText "AskUserQuestion" ev.toolName = decide (event.toolName = some "AskUserQuestion") := by
    rw [typed.toolName]
    cases event.toolName with
    | none => rfl
    | some name => simp [isText_ofString]
  have told (key : String) : isText key ev.event = decide (event.event = key) := by
    rw [typed.event, isText_ofString]
  have note : readNotification (orElse py ev.notification (.text [])) =
      .ok (if (event.notification.getD "").startsWith "permission" then
          { kind := .waitingForUser, promptKind := some .permissionChoice }
        else if (event.notification.getD "").startsWith "idle" then { kind := .idle, closesTurn := true }
        else { kind := .working }) := by
    rw [typed.notification, orElse_typed, readNotification, startsText_ofString, startsText_ofString]
    split_ifs <;> rfl
  rw [normalizeBody, normalizeClaudeHook]
  simp only [told, modal, gate, note, typed.isInterrupt, Bool.or_eq_true, Bool.and_eq_true,
    decide_eq_true_eq]
  split_ifs <;> rfl

end Harmless

/-! ### Runs -/

section Runs
variable {py : Interpreter} {cfg : BeliefConfig} {s : Monitor}

/-- What a run keeps: whether a hook was raised over, and where the hooks come from. -/
structure Kept (py : Interpreter) (moves : List MonitorMove) (s : Monitor) (taken : List HookBody) :
    Prop where
  spared : s.exc = none ↔ ∀ ev ∈ taken, ev.Harmless py
  ended : s.exc ≠ none → s.isOver = true
  queued : ∀ ev ∈ s.queue, ∃ body, .posted body ∈ moves ∧ dispatchHook py body = some ev
  posted : ∀ ev ∈ taken, ∃ body, .posted body ∈ moves ∧ dispatchHook py body = some ev

theorem takeHook_kept {moves : List MonitorMove} {taken : List HookBody} (kept : Kept py moves s taken)
    (now : Time) :
    Kept py moves (takeHook py cfg s now).1 (taken ++ (takeHook py cfg s now).2) := by
  rw [takeHook]
  by_cases done : s.isOver = true
  · rw [if_pos done, List.append_nil]
    exact kept
  rw [if_neg done]
  have clean : s.exc = none := not_not.mp fun raised => done (kept.ended raised)
  have harmless := kept.spared.mp clean
  cases waiting : s.queue with
  | nil =>
    dsimp only
    rw [List.append_nil]
    exact kept
  | cons ev rest =>
    have known := kept.queued
    rw [waiting] at known
    obtain ⟨here, later⟩ := List.forall_mem_cons.mp known
    have from_posts : ∀ e ∈ taken ++ [ev], ∃ body, .posted body ∈ moves ∧ dispatchHook py body = some e :=
      List.forall_mem_append.mpr ⟨kept.posted, List.forall_mem_singleton.mpr here⟩
    have raising : ¬ ev.Harmless py → ¬ ∀ e ∈ taken ++ [ev], e.Harmless py :=
      fun harmful all => harmful (all ev (by simp))
    cases read : normalizeBody py ev with
    | error fault =>
      simp only [read]
      have harmful : ¬ ev.Harmless py := fun well => by
        obtain ⟨⟨hobs, ok⟩, -⟩ := HookBody.harmless_iff.mp well
        rw [read] at ok
        cases ok
      exact ⟨iff_of_false nofun (raising harmful), fun _ => rfl, later, from_posts⟩
    | ok hobs =>
      simp only [read]
      cases logged : logEvent py ev.event with
      | error fault =>
        dsimp only
        have harmful : ¬ ev.Harmless py := fun well => by
          have ok := (HookBody.harmless_iff.mp well).2
          rw [logged] at ok
          cases ok
        exact ⟨iff_of_false nofun (raising harmful), fun _ => rfl, later, from_posts⟩
      | ok _ =>
        dsimp only
        have well : ev.Harmless py := HookBody.harmless_iff.mpr ⟨⟨hobs, read⟩, logged⟩
        have all : ∀ e ∈ taken ++ [ev], e.Harmless py :=
          List.forall_mem_append.mpr ⟨harmless, List.forall_mem_singleton.mpr well⟩
        exact ⟨iff_of_true clean all, fun raised => absurd clean raised, later, from_posts⟩

theorem step_kept {moves : List MonitorMove} {taken : List HookBody} (kept : Kept py moves s taken)
    (move : MonitorMove) :
    Kept py (moves ++ [move]) ((monitor py cfg).step s move).1
      (taken ++ ((monitor py cfg).step s move).2) := by
  have later {ev : HookBody} (known : ∃ body, .posted body ∈ moves ∧ dispatchHook py body = some ev) :
      ∃ body, .posted body ∈ moves ++ [move] ∧ dispatchHook py body = some ev := by
    obtain ⟨body, member, same⟩ := known
    exact ⟨body, List.mem_append_left _ member, same⟩
  have wider {s' : Monitor} {taken' : List HookBody} (kept' : Kept py moves s' taken') :
      Kept py (moves ++ [move]) s' taken' :=
    ⟨kept'.spared, kept'.ended, fun ev member => later (kept'.queued ev member),
      fun ev member => later (kept'.posted ev member)⟩
  cases move with
  | posted body =>
    simp only [monitor, List.append_nil]
    refine ⟨kept.spared, kept.ended, ?_, (wider kept).posted⟩
    refine List.forall_mem_append.mpr ⟨(wider kept).queued, fun ev member => ⟨body, by simp, ?_⟩⟩
    exact Option.mem_toList.mp member
  | taken now => exact wider (takeHook_kept kept now)
  | other f =>
    simp only [monitor, List.append_nil]
    split
    · exact wider kept
    · exact wider ⟨kept.spared, kept.ended, kept.queued, kept.posted⟩
  | ended =>
    simp only [monitor, List.append_nil]
    exact wider ⟨kept.spared, fun _ => rfl, kept.queued, kept.posted⟩

end Runs

/-- In every run the session is not crashed by a hook exactly when every hook that the monitor takes is
harmless; and each of these is the body of a request that was accepted. -/
theorem monitor_spared_iff (py : Interpreter) (cfg : BeliefConfig) (engine : BeliefEngine)
    (moves : List MonitorMove) :
    (((monitor py cfg).after { engine } moves).isCrashedByHook = false ↔
        ∀ ev ∈ (monitor py cfg).outputs { engine } moves, ev.Harmless py) ∧
      ∀ ev ∈ (monitor py cfg).outputs { engine } moves,
        ∃ body, .posted body ∈ moves ∧ dispatchHook py body = some ev := by
  have start : Kept py [] { engine } [] :=
    ⟨iff_of_true rfl (by simp), nofun, by simp, by simp⟩
  have kept : Kept py moves ((monitor py cfg).after { engine } moves)
      ((monitor py cfg).outputs { engine } moves) :=
    (monitor py cfg).record_along (Kept py) (fun _ _ _ move kept _ => step_kept kept move) start
      (Machine.along_of_forall (p := fun _ => True) _ fun _ _ => trivial)
  rw [← kept.spared, Monitor.isCrashedByHook, Option.isSome_eq_false_iff, Option.isNone_iff_eq_none]
  exact ⟨Iff.rfl, kept.posted⟩

/-- An interpreter with room for a hundred levels. -/
def hundredLevels : Interpreter where
  floatTruth _ := true
  shown _ := []
  digest _ _ := "0123456789abcdef"
  dumpsRoom := 100
  strRoom := 100
  logRoom := none

/-- A notification whose message is a number, and a permission request of a tool whose name is one half of a
pair, end the monitor. -/
theorem monitor_crashed :
    ((monitor hundredLevels {}).after { engine := {} }
        [.posted (.object [(Text.ofString "hook_event_name", .text (Text.ofString "Notification")),
          (Text.ofString "message", .int 1 (by decide))]), .taken 0]).isCrashedByHook = true ∧
      ((monitor hundredLevels {}).after { engine := {} }
        [.posted (.object [(Text.ofString "hook_event_name", .text (Text.ofString "PermissionRequest")),
          (Text.ofString "tool_name", .text [.high 0]),
          (Text.ofString "tool_input", .object [(Text.ofString "command", .text (Text.ofString "ls"))])]),
        .taken 0]).isCrashedByHook = true := by
  decide +kernel

end Nelix.Daemon
