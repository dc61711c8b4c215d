import Mathlib.Init

/-! Stable machine error codes and the errors that carry them. Callers branch on the code only. -/
namespace Nelix.Contracts

inductive ErrorCode
  | ownerMismatch | unknownSession | cursorExpired | boardChanged | boardIncomplete
  | archiveIncomplete | unsupportedByGeneration | concurrencyLimit | duplicateStart
  | generationUnavailable | orphanReaped | generationLost | invalidRequest | schemaTooNew
  | idempotencyConflict | storeCorrupt | storeUnavailable | storeUnsupported | internalError
  | admissionUnavailable | rebuilding | staleReconciliationId | terminalExpired
  deriving DecidableEq, Repr

namespace ErrorCode

def spelling : ErrorCode → String
  | ownerMismatch => "owner_mismatch"
  | unknownSession => "unknown_session"
  | cursorExpired => "cursor_expired"
  | boardChanged => "board_changed"
  | boardIncomplete => "board_incomplete"
  | archiveIncomplete => "archive_incomplete"
  | unsupportedByGeneration => "unsupported_by_generation"
  | concurrencyLimit => "concurrency_limit"
  | duplicateStart => "duplicate_start"
  | generationUnavailable => "generation_unavailable"
  | orphanReaped => "orphan_reaped"
  | generationLost => "generation_lost"
  | invalidRequest => "invalid_request"
  | schemaTooNew => "schema_too_new"
  | idempotencyConflict => "idempotency_conflict"
  | storeCorrupt => "store_corrupt"
  | storeUnavailable => "store_unavailable"
  | storeUnsupported => "store_unsupported"
  | internalError => "internal_error"
  | admissionUnavailable => "admission_unavailable"
  | rebuilding => "rebuilding"
  | staleReconciliationId => "stale_reconciliation_id"
  | terminalExpired => "terminal_expired"

/-- The same call, unchanged, may succeed later. -/
def retryable : ErrorCode → Bool
  | boardIncomplete | archiveIncomplete | generationUnavailable | concurrencyLimit
  | admissionUnavailable | rebuilding | staleReconciliationId | storeUnavailable => true
  | ownerMismatch | unknownSession | cursorExpired | boardChanged | unsupportedByGeneration
  | duplicateStart | orphanReaped | generationLost | invalidRequest | schemaTooNew
  | idempotencyConflict | storeCorrupt | storeUnsupported | internalError
  | terminalExpired => false

end ErrorCode

/-- A contract error; the message is for humans only. -/
structure NelixError where
  code : ErrorCode
  message : String
  deriving DecidableEq, Repr

/-- What a call can raise: a contract error, or an exception of Python's own. -/
inductive Raised
  | nelix (error : NelixError)
  | typeError
  | attributeError
  | valueError
  | overflowError
  | runtimeError (message : String)
  deriving DecidableEq, Repr

/-- The result of a call that may raise. -/
abbrev Outcome (α : Type) := Except Raised α

def refuse {α : Type} (code : ErrorCode) (message : String) : Outcome α :=
  .error (.nelix ⟨code, message⟩)

/-- Goes on when the condition holds. -/
def require (p : Prop) [Decidable p] (code : ErrorCode) (message : String) : Outcome Unit :=
  if p then .ok () else refuse code message

/-- What a lookup found, or a refusal. -/
def demand {α : Type} (found : Option α) (code : ErrorCode) (message : String) : Outcome α :=
  match found with
  | some a => .ok a
  | none => refuse code message

@[simp] theorem refuse_ne_ok {α : Type} (code : ErrorCode) (message : String) (a : α) :
    (refuse code message = .ok a) ↔ False := by simp [refuse]

@[simp] theorem require_ok (p : Prop) [Decidable p] (code : ErrorCode) (message : String)
    (u : Unit) : require p code message = .ok u ↔ p := by
  unfold require
  split <;> simp_all

@[simp] theorem demand_ok {α : Type} (found : Option α) (code : ErrorCode) (message : String)
    (a : α) : demand found code message = .ok a ↔ found = some a := by
  cases found <;> simp [demand]

theorem bind_ok {α β : Type} {x : Outcome α} {f : α → Outcome β} {r : β} :
    (x >>= f) = .ok r ↔ ∃ a, x = .ok a ∧ f a = .ok r := by
  cases x with
  | error err => simp [bind, Except.bind]
  | ok a => simp [bind, Except.bind]

/-! What a call raises. -/

theorem refuse_error {α : Type} {code : ErrorCode} {message : String} {x : Raised} :
    (refuse code message : Outcome α) = .error x ↔ x = .nelix ⟨code, message⟩ := by
  simp [refuse, eq_comm]

theorem require_error {p : Prop} [Decidable p] {code : ErrorCode} {message : String} {x : Raised} :
    require p code message = .error x ↔ ¬ p ∧ x = .nelix ⟨code, message⟩ := by
  unfold require
  split <;> simp_all [refuse, eq_comm]

theorem demand_error {α : Type} {found : Option α} {code : ErrorCode} {message : String}
    {x : Raised} :
    demand found code message = .error x ↔ found = none ∧ x = .nelix ⟨code, message⟩ := by
  cases found <;> simp [demand, refuse, eq_comm]

theorem bind_error {α β : Type} {x : Outcome α} {f : α → Outcome β} {r : Raised} :
    (x >>= f) = .error r ↔ x = .error r ∨ ∃ a, x = .ok a ∧ f a = .error r := by
  cases x with
  | error err => simp [bind, Except.bind]
  | ok a => simp [bind, Except.bind]

end Nelix.Contracts
