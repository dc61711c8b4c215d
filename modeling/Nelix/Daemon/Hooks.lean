import Nelix.Contracts.Json
import Nelix.Daemon.Observation

/-!
# Hooks

A hook of the agent, and the one mapper from it to the observation that the belief engine folds.
-/
namespace Nelix.Daemon

open Contracts

/-- A parsed hook body; `event` is the raw `hook_event_name`. -/
structure HookEvent where
  sessionId : String
  event : String
  toolName : Option String := none
  toolInput : List (String × Json) := []
  isInterrupt : Bool := false
  notification : Option String := none

section Normalize

-- the first 16 hex digits of the SHA-1 of the tool's name and its key-sorted input
variable (digest : String → List (String × Json) → String)

/-- The identity of a gate: the tool call itself. None where the call carries no input. -/
def gateFingerprint (toolName : Option String) (toolInput : List (String × Json)) :
    Option String :=
  if toolInput.isEmpty then none else some (digest (toolName.getD "") toolInput)

/-- Map a hook event to its observation. -/
def normalizeClaudeHook (ev : HookEvent) : HookObservation :=
  if ev.event = "Stop" ∨ ev.event = "StopFailure" then
    { kind := .idle, closesTurn := true, interrupted := ev.isInterrupt, rawEvent := ev.event }
  else if ev.event = "UserPromptSubmit" then
    { kind := .working, opensTurn := true, rawEvent := ev.event }
  else if ev.event = "PermissionRequest" then
    { kind := .waitingForUser, promptKind := some .permissionChoice, rawEvent := ev.event
      gateFp := gateFingerprint digest ev.toolName ev.toolInput }
  else if ev.toolName = some "AskUserQuestion" ∧ ev.event = "PreToolUse" then
    { kind := .waitingForUser, promptKind := some .modalChoice, rawEvent := ev.event
      gateFp := gateFingerprint digest ev.toolName ev.toolInput }
  else if ev.toolName = some "AskUserQuestion" ∧ ev.event = "PostToolUse" then
    { kind := .working, clearsPending := true, rawEvent := ev.event }
  else if ev.event = "Notification" then
    let note := ev.notification.getD ""
    if note.startsWith "permission" then
      { kind := .waitingForUser, promptKind := some .permissionChoice, rawEvent := ev.event }
    else if note.startsWith "idle" then
      { kind := .idle, closesTurn := true, rawEvent := ev.event }
    else { kind := .working, rawEvent := ev.event }
  else
    -- a plain `PreToolUse` is a new invocation: it carries the fingerprint that lifts a tombstone
    { kind := .working, rawEvent := ev.event
      gateFp :=
        if ev.event = "PreToolUse" then gateFingerprint digest ev.toolName ev.toolInput else none }

end Normalize

namespace HookObservation

/-- The hook blocks on the user, and marks no turn boundary. -/
structure Pauses (hobs : HookObservation) : Prop where
  kind : hobs.kind = .waitingForUser
  opens : hobs.opensTurn = false
  closes : hobs.closesTurn = false
  clears : hobs.clearsPending = false

instance (hobs : HookObservation) : Decidable hobs.Pauses :=
  decidable_of_iff (hobs.kind = .waitingForUser ∧ hobs.opensTurn = false ∧
      hobs.closesTurn = false ∧ hobs.clearsPending = false)
    ⟨fun ⟨kind, opens, closes, clears⟩ => ⟨kind, opens, closes, clears⟩,
      fun ⟨kind, opens, closes, clears⟩ => ⟨kind, opens, closes, clears⟩⟩

end HookObservation

section Normalized

variable (digest : String → List (String × Json) → String) {ev : HookEvent}

/-- A permission request and the question modal's `PreToolUse` of one tool call pause under one
fingerprint, as a permission choice and as a modal choice. -/
theorem normalize_request (request : ev.event = "PermissionRequest") :
    (normalizeClaudeHook digest ev).Pauses ∧
      (normalizeClaudeHook digest ev).promptKind = some .permissionChoice ∧
      (normalizeClaudeHook digest ev).gateFp =
        gateFingerprint digest ev.toolName ev.toolInput := by
  simp only [normalizeClaudeHook, request]
  exact ⟨⟨rfl, rfl, rfl, rfl⟩, rfl, rfl⟩

theorem normalize_modal (modal : ev.event = "PreToolUse")
    (tool : ev.toolName = some "AskUserQuestion") :
    (normalizeClaudeHook digest ev).Pauses ∧
      (normalizeClaudeHook digest ev).promptKind = some .modalChoice ∧
      (normalizeClaudeHook digest ev).gateFp =
        gateFingerprint digest ev.toolName ev.toolInput := by
  simp only [normalizeClaudeHook, modal, tool]
  exact ⟨⟨rfl, rfl, rfl, rfl⟩, rfl, rfl⟩

end Normalized

end Nelix.Daemon
