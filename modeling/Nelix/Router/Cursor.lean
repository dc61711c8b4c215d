import Nelix.Contracts.CursorToken
import Nelix.Store.Rows

/-!
# The vector cursor

One position for each generation beside the archive's. Advancing one of them leaves the others.

## Main results

`decode_vector`: a cursor comes back from its token.
-/
namespace Nelix.Router

open Contracts Core Store

/-- `Cursor`: the positions belong to generations, each in one of their epochs. -/
structure Cursor where
  routerEpoch : String
  topologyRevision : ℕ
  positions : Dict String (String × ℕ)
  archive : Option (ℤ × ℕ)
  epoch_ne : routerEpoch ≠ ""
  placed : ∀ g position, positions.get? g = some position → validGenerationId g = true

def newCursor (routerEpoch : String) (topologyRevision : ℕ) : Outcome Cursor :=
  if named : routerEpoch ≠ "" then
    .ok ⟨routerEpoch, topologyRevision, ∅, none, named, fun _ _ held => by simp at held⟩
  else refuse .invalidRequest s!"router_epoch must be a non-empty string: {pyRepr routerEpoch}"

namespace Cursor

/-- The cursor with this component. -/
def placedAt (cursor : Cursor) (generationId generationEpoch : String) (seq : ℕ)
    (valid : validGenerationId generationId = true) : Cursor :=
  { cursor with
    positions := cursor.positions.set generationId (generationEpoch, seq)
    placed := fun g position held => by
      rw [Dict.get?_set] at held
      split at held
      · rename_i same
        exact same ▸ valid
      · exact cursor.placed g position held }

/-- `advance`: this component and no other. -/
def advance (cursor : Cursor) (generationId generationEpoch : String) (seq : ℕ) : Outcome Cursor :=
  if valid : validGenerationId generationId = true then
    match cursor.positions.get? generationId with
    | some (epoch, position) =>
      if epoch = generationEpoch ∧ seq < position then
        refuse .invalidRequest
          s!"cursor may not rewind {generationId}: {position} -> {seq}"
      else .ok (cursor.placedAt generationId generationEpoch seq valid)
    | none => .ok (cursor.placedAt generationId generationEpoch seq valid)
  else refuse .invalidRequest s!"invalid generation_id: {pyRepr generationId}"

def advanceArchive (cursor : Cursor) (archiveEpoch : ℤ) (seq : ℕ) : Cursor :=
  { cursor with archive := some (archiveEpoch, seq) }

/-- The other components stay where they are. -/
theorem advance_positions {cursor cursor' : Cursor} {g e : String} {seq : ℕ}
    (advanced : cursor.advance g e seq = .ok cursor') (g' : String) :
    cursor'.positions.get? g' =
      if g' = g then some (e, seq) else cursor.positions.get? g' := by
  unfold advance at advanced
  split at advanced
  · split at advanced
    · split at advanced
      · cases advanced
      · cases advanced
        exact Dict.get?_set cursor.positions g g' (e, seq)
    · cases advanced
      exact Dict.get?_set cursor.positions g g' (e, seq)
  · cases advanced

/-- The cursor as its token has it. -/
def vector (cursor : Cursor) : VectorCursor where
  routerEpoch := Text.ofString cursor.routerEpoch
  topologyRevision := cursor.topologyRevision
  positions := cursor.positions.mapValues fun position => (Text.ofString position.1, position.2)
  archive := cursor.archive
  epoch_ne := fun empty => cursor.epoch_ne (Text.ofString_injective (empty.trans rfl))
  placed := fun g position held => by
    rw [Dict.get?_mapValues] at held
    obtain ⟨position', there, -⟩ := Option.map_eq_some_iff.mp held
    exact cursor.placed g position' there

/-- The router's own cursors come back from any token that is not too long. -/
theorem decode_vector (shown : JsonText.Document → Option Text) (room : ℕ) {cursor : Cursor}
    {token : Text} (done : cursor.vector.encode = .ok token) (fits : token.length ≤ maxToken) :
    ∃ c', VectorCursor.decode shown (room + 3) token (Text.ofString cursor.routerEpoch)
      cursor.topologyRevision = .ok c' ∧ c'.Same cursor.vector := by
  have unpaired : cursor.vector.Unpaired := by
    refine ⟨Text.ofString_unpaired cursor.routerEpoch, fun row among => ?_⟩
    obtain ⟨position, -, same⟩ := List.mem_map.mp among
    rw [← same]
    exact Text.ofString_unpaired position.2.1
  exact (VectorCursor.decode_encode shown room done unpaired fits :)

end Cursor

end Nelix.Router
