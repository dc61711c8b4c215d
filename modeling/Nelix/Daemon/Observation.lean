import Mathlib.Data.Rat.Defs
import Mathlib.Data.Finset.Basic

/-! Driver observations and normalized hook readings: the two inputs of the belief engine. -/
namespace Nelix.Daemon

/-- Clock readings and durations, in seconds. -/
abbrev Time := ℚ

/-- What the screen is. `none` means that no prompt is visible. -/
inductive PromptKind
  | none | freeText | modalChoice | permissionChoice | crash | exit | unknown
  deriving DecidableEq, Repr

/-- On-screen busy hint. -/
inductive BusyReason
  | generating | runningCommand | waitingSubagents
  deriving DecidableEq, Repr

/-- The driver's liveness region; `fp` hashes it. -/
structure Heartbeat where
  fp : Option String := none
  present : Bool := false
  expectedToChange : Bool := false
  deriving DecidableEq, Repr

/-- A menu choice: the selector the driver actuates and its text. -/
structure MenuOption where
  id : String
  label : String
  deriving DecidableEq, Repr

/-- Actionable handles the screen exposes. -/
inductive Affordance
  | acceptsTextInput | modalChoice | permissionChoice | interruptAvailable | backgroundAvailable
  deriving DecidableEq, Repr

structure Observation where
  promptKind : PromptKind
  affordances : Finset Affordance := ∅
  options : List MenuOption := []
  submittedEchoPresent : Bool := false
  semanticFp : String := ""
  contentFp : String := ""
  promptFp : String := ""
  heartbeat : Heartbeat := {}
  busyReason : Option BusyReason := none
  deriving DecidableEq

/-- The non-screen facts of a tick that the engine reads. -/
structure ObservationCtx where
  childAlive : Bool
  deriving DecidableEq, Repr

/-- The state a hook implies. -/
inductive HookKind
  | working | waitingForUser | idle
  deriving DecidableEq, Repr

/-- The normalized reading of one hook event; the flags mark turn boundaries. -/
structure HookObservation where
  kind : HookKind
  closesTurn : Bool := false
  opensTurn : Bool := false
  clearsPending : Bool := false
  interrupted : Bool := false
  promptKind : Option PromptKind := none
  rawEvent : String := ""
  gateFp : Option String := none
  deriving DecidableEq, Repr

end Nelix.Daemon
