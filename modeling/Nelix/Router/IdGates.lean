import Nelix.Contracts.IdPatterns

/-!
# The gates for ids

A caller's owner and session pass the router's checks first and the daemon's own checks then. The daemon
does not import the contracts package: it states the owner's pattern again, and its sessions may be named
more widely.

## Main results

`ids_agree`: the two layers take the same owners; and the sessions that the router takes are, unless they
end in a newline, among those that the daemon takes.
-/
namespace Nelix.Daemon
open Core Contracts

/-- `[A-Za-z0-9][A-Za-z0-9._:-]{0,127}`, as the daemon states it again. -/
def ownerPattern : Regex CodePoint :=
  .anchored (.seq (.run (charClass isAlnum) 1 1) (.run (charClass isOwnerChar) 0 127))

/-- `invalid owner_id: <value!r>` -/
structure OwnerRejected where
  value : Text
  deriving DecidableEq

/-- `owner.validate` -/
def validateOwner (value : Text) : Except OwnerRejected Text :=
  if ownerPattern.doesMatch lineFeed value then .ok value else .error ⟨value⟩

/-- Without anchors: `fullmatch` pins both ends. -/
def sessionIdPattern : Regex CodePoint := hexRe 's' 8 64

/-- `invalid session_id: <value!r>` -/
structure SessionIdRejected where
  value : Text
  deriving DecidableEq

def validateSessionIdShape (value : Text) : Except SessionIdRejected Unit :=
  if sessionIdPattern.doesFullmatch lineFeed value then .ok () else .error ⟨value⟩

theorem validateSessionIdShape_ok_iff {value : Text} :
    validateSessionIdShape value = .ok () ↔ IsHexId 's' 8 64 value := by
  have matched : sessionIdPattern.doesFullmatch lineFeed value = true ↔ IsHexId 's' 8 64 value :=
    (Regex.fullmatches_iff plain_hexRe).trans spells_hexRe
  rw [← matched, validateSessionIdShape]
  split
  case isTrue taken => simp [taken]
  case isFalse refused => simp [refused]

theorem validateOwner_ok_iff {value word : Text} :
    validateOwner value = .ok word ↔ word = value ∧ ownerPattern.doesMatch lineFeed value = true := by
  rw [validateOwner]
  split
  case isTrue taken => simp [taken, eq_comm]
  case isFalse refused => simp [refused]

end Nelix.Daemon

namespace Nelix.Router
open Core Contracts Daemon

/-- What `NelixError(INVALID_REQUEST, …)` is raised with. -/
inductive IdRefusal
  /-- `session_id is required` -/
  | required
  | invalid (error : InvalidId)
  deriving DecidableEq

/-- `_owner` -/
def ownerGate (value : Text) : Except IdRefusal Text := (validateOwnerId value).mapError .invalid

/-- `_session` -/
def sessionGate : Option Text → Except IdRefusal Text
  | none => .error .required
  | some value => (validateSessionId value).mapError .invalid

variable {value word : Text}

theorem mapError_ok_iff {ε ε' α : Type*} {f : ε → ε'} {r : Except ε α} {a : α} :
    r.mapError f = .ok a ↔ r = .ok a := by
  cases r <;> simp [Except.mapError]

theorem ownerGate_ok_iff : ownerGate value = .ok word ↔ validateOwner value = .ok word := by
  rw [ownerGate, mapError_ok_iff, validateOwner_ok_iff]
  exact IdKind.owner.validate_ok_iff_matches

theorem sessionGate_ok_iff : sessionGate (some value) = .ok word ↔ validateSessionId value = .ok word :=
  mapError_ok_iff

/-- A grammar of fewer widths holds fewer ids. -/
theorem hexId_mono {letter : Char} {least most least' most' : ℕ} (low : least' ≤ least)
    (high : most ≤ most') (member : IsHexId letter least most value) :
    IsHexId letter least' most' value := by
  obtain ⟨digits, above, below, all, rfl⟩ := member
  exact ⟨digits, low.trans above, below.trans high, all, rfl⟩

/-- Every text with no newline at its end passes the validator of a kind exactly when it is a complete
member of the kind's grammar; the router takes it as a session exactly when the daemon does and it has 32
digits. Whatever passes is handed on as it is. Every text is taken as an owner by the router exactly
when it is taken by the daemon; and the daemon takes complete session ids only. -/
theorem ids_agree (value word : Text) :
    (value.getLast? ≠ some lineFeed →
      (∀ kind : IdKind, kind.validate value = .ok word ↔ word = value ∧ kind.Member value) ∧
      (sessionGate (some value) = .ok word ↔
        word = value ∧ validateSessionIdShape value = .ok () ∧ value.length = 34)) ∧
    (ownerGate value = .ok word ↔ validateOwner value = .ok word) ∧
    (validateSessionIdShape value = .ok () ↔ IsHexId 's' 8 64 value) := by
  refine ⟨fun ending => ⟨fun kind => kind.validate_ok_iff ending, ?_⟩, ownerGate_ok_iff,
    validateSessionIdShape_ok_iff⟩
  have session : validateSessionId value = .ok word ↔ word = value ∧ IsHexId 's' 32 32 value :=
    IdKind.session.validate_ok_iff ending
  rw [sessionGate_ok_iff, session, validateSessionIdShape_ok_iff]
  refine and_congr_right fun _ => ⟨fun member => ⟨hexId_mono (by decide) (by decide) member, ?_⟩, ?_⟩
  · obtain ⟨digits, low, high, -, rfl⟩ := member
    rw [List.length_map, List.length_cons, List.length_cons, le_antisymm high low]
  · rintro ⟨⟨digits, -, -, all, rfl⟩, length⟩
    rw [List.length_map, List.length_cons, List.length_cons] at length
    have width : digits.length = 32 := by omega
    exact ⟨digits, width.ge, width.le, all, rfl⟩

/-- Thirty-two digits. -/
def wideSession : Text := .ofString "s-0123456789abcdef0123456789abcdef"

theorem ids_agree_wide :
    IdKind.session.validate wideSession = .ok wideSession ∧
      sessionGate (some wideSession) = .ok wideSession := by
  have agree := (ids_agree wideSession wideSession).1 (by decide +kernel)
  have member : IsHexId 's' 32 32 wideSession :=
    ⟨"0123456789abcdef0123456789abcdef".toList, by decide +kernel, by decide +kernel,
      List.all_eq_true.mp (by decide +kernel), by decide +kernel⟩
  exact ⟨(agree.1 .session).mpr ⟨rfl, member⟩, agree.2.mpr
    ⟨rfl, by decide +kernel, by decide +kernel⟩⟩

/-- The router takes a session id with a newline behind it, which the daemon refuses; and the daemon takes
a short session id that the router refuses. -/
theorem ids_disagree :
    (IdKind.session.validate (wideSession ++ [lineFeed]) = .ok (wideSession ++ [lineFeed]) ∧
      ¬ IdKind.session.Member (wideSession ++ [lineFeed])) ∧
    validateSessionIdShape (wideSession ++ [lineFeed]) ≠ .ok () ∧
    (validateSessionIdShape (.ofString "s-deadbeef") = .ok () ∧
      ∀ word, sessionGate (some (.ofString "s-deadbeef")) ≠ .ok word) := by
  refine ⟨⟨by decide +kernel, ?_⟩, by decide +kernel, by decide +kernel, ?_⟩
  · rintro ⟨digits, low, high, all, same⟩
    have length := congrArg List.length same
    rw [List.length_map, List.length_cons, List.length_cons, le_antisymm high low] at length
    exact absurd length (by decide +kernel)
  · intro word
    have refused : sessionGate (some (.ofString "s-deadbeef")) =
        .error (.invalid ⟨"session_id", .ofString "s-deadbeef"⟩) := by decide +kernel
    rw [refused]
    nofun

end Nelix.Router
