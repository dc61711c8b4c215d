import Nelix.Contracts.Errors

/-!
# Identifiers

The shapes of the ids the store keeps. Python's `$` also matches before a final newline, so each
shape admits one.
-/
namespace Nelix.Contracts

def isHexDigit (c : Char) : Bool := ('0' ≤ c && c ≤ '9') || ('a' ≤ c && c ≤ 'f')

def isAlnum (c : Char) : Bool :=
  ('A' ≤ c && c ≤ 'Z') || ('a' ≤ c && c ≤ 'z') || ('0' ≤ c && c ≤ '9')

/-- What `$` lets stand at the end. -/
def endsThere : List Char → Bool
  | [] | ['\n'] => true
  | _ => false

/-- `^<letter>-[0-9a-f]{32}$` -/
def matchesHex32 (letter : Char) (value : String) : Bool :=
  match value.toList with
  | first :: '-' :: rest =>
    first == letter && (rest.take 32).length == 32 && (rest.take 32).all isHexDigit &&
      endsThere (rest.drop 32)
  | _ => false

def validSessionId (value : String) : Bool := matchesHex32 's' value

def validOrchestrationId (value : String) : Bool := matchesHex32 'o' value

def validGenerationId (value : String) : Bool := matchesHex32 'g' value

/-- `[._:-]` besides letters and digits. -/
def isOwnerChar (c : Char) : Bool :=
  isAlnum c || c == '.' || c == '_' || c == ':' || c == '-'

/-- `^[A-Za-z0-9][A-Za-z0-9._:-]{0,127}$` -/
def validOwnerId (value : String) : Bool :=
  match value.toList with
  | first :: rest =>
    let tail := rest.takeWhile isOwnerChar
    isAlnum first && tail.length ≤ 127 && endsThere (rest.drop tail.length)
  | [] => false

/-- A session id as `new_session_id` mints it. -/
structure SessionId where
  value : String
  valid : validSessionId value = true
  deriving DecidableEq

/-- A generation id as `new_generation_id` mints it. -/
structure GenerationId where
  value : String
  valid : validGenerationId value = true
  deriving DecidableEq

theorem GenerationId.ne_empty (g : GenerationId) : g.value ≠ "" := by
  intro empty
  have valid := g.valid
  rw [empty] at valid
  exact absurd valid (by decide)

end Nelix.Contracts
