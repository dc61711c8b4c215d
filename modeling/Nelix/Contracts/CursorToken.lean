import Nelix.Contracts.Ids
import Nelix.Core.Base64
import Nelix.Core.Dict
import Nelix.Core.JsonReading
import Nelix.Core.Traverse
import Mathlib.Data.List.Perm.Basic

/-!
# The cursor's token

The token of a vector cursor is its compact JSON in URL-safe base64. Decoding checks the token
against the router that it is brought to.

## Main results

`decode_encode`: a token that is not too long gives back the cursor it was made of.

`decode_settles`: whatever it is given, the decoder answers with a cursor that has a token, or
with one of three errors.
-/
namespace Nelix.Contracts

open Core Core.JsonText

/-- `Cursor`, with its texts as the interpreter has them. -/
structure VectorCursor where
  routerEpoch : Text
  topologyRevision : ℕ
  positions : Dict String (Text × ℕ)
  archive : Option (ℤ × ℕ)
  epoch_ne : routerEpoch ≠ []
  placed : ∀ g position, positions.get? g = some position → validGenerationId g = true

/-- `_V` -/
def tokenVersion : ℤ := 2

/-- `_MAX_TOKEN`: a cursor is small; anything larger is not one. -/
def maxToken : ℕ := 64 * 1024

namespace VectorCursor

/-- What `==` says of two cursors: the order of the positions does not count. -/
structure Same (c c' : VectorCursor) : Prop where
  routerEpoch : c.routerEpoch = c'.routerEpoch
  topologyRevision : c.topologyRevision = c'.topologyRevision
  archive : c.archive = c'.archive
  positions : ∀ g, c.positions.get? g = c'.positions.get? g

def writePosition (row : String × Text × ℕ) : Option (String × List Char) := do
  return (row.1, writeList [writeText row.2.1, ← writeInt row.2.2])

def writeArchive : Option (ℤ × ℕ) → Option (List (String × List Char))
  | none => some []
  | some (epoch, seq) => do return [("a", writeList [← writeInt epoch, ← writeInt seq])]

/-- `json.dumps(obj, separators=(",", ":"), sort_keys=True)` for the object of a cursor. -/
def write (c : VectorCursor) : Option (List Char) := do
  let version ← writeInt tokenVersion
  let revision ← writeInt c.topologyRevision
  let positions ← c.positions.rows.mapM writePosition
  let archive ← writeArchive c.archive
  return writeObject ([("v", version), ("re", writeText c.routerEpoch), ("tr", revision),
    ("p", writeObject positions)] ++ archive)

/-- `encode`. The JSON is ASCII, an octet a character. -/
def encode (c : VectorCursor) : Outcome Text :=
  match c.write with
  | some raw => .ok ((Base64.encode (raw.map Char.toNat)).map .char)
  | none => .error .valueError

/-- The characters of a text without halves of any. -/
def letters? (t : Text) : Option (List Char) :=
  t.mapM fun
    | .char c => some c
    | _ => none

/-- What stands in the token, when that is ASCII, base64 and JSON. -/
def loadToken (room : ℕ) (token : Text) : Option Document := do
  let letters ← letters? token
  if letters.all (·.toNat < 128) then
    loads room (← Base64.decode (letters ++ Base64.padding token.length))
  else none

section Decode

/- `shown` is what `str` makes of a value that is not a string; none where it raises. -/
variable (shown : Document → Option Text)

/-- `str(value)` -/
def pyStr : Document → Option Text
  | .text t => some t
  | other => shown other

def readPosition (field : Text × Document) : Option (String × Text × ℕ) := do
  let generationId := String.ofList (← letters? field.1)
  match field.2 with
  | .list [epoch, .int seq _] =>
    if 0 ≤ seq ∧ validGenerationId generationId = true then
      return (generationId, ← pyStr shown epoch, seq.toNat)
    else none
  | _ => none

def readArchive : Option Document → Option (Option (ℤ × ℕ))
  | none | some .null => some none
  | some (.list [.int epoch _, .int seq _]) =>
    if 0 ≤ seq then some (some (epoch, seq.toNat)) else none
  | _ => none

def readPositions : Option Document → Option (List (String × Text × ℕ))
  | some (.object raw) => (Dict.ofFields raw).rows.mapM (readPosition shown)
  | _ => none

def readRevision : Option Document → Option ℕ
  | some (.int revision _) => if 0 ≤ revision then some revision.toNat else none
  | _ => none

/-- `Cursor(...)`, which checks what it is given. -/
def checked (routerEpoch : Text) (topologyRevision : ℕ) (positions : Dict String (Text × ℕ))
    (archive : Option (ℤ × ℕ)) : Option VectorCursor :=
  if named : routerEpoch ≠ [] then
    if placed : ∀ row ∈ positions.rows, validGenerationId row.1 = true then
      some
        { routerEpoch, topologyRevision, positions, archive
          epoch_ne := named
          placed := fun g position held => by
            obtain ⟨⟨g', position'⟩, found, rfl⟩ := Option.map_eq_some_iff.mp held
            obtain rfl : g' = g := Table.key_of_find? found
            exact placed _ (Table.mem_of_find? found) }
    else none
  else none

/-- The cursor of the object, when everything in it has its form. -/
def readBody (fields : Dict Text Document) : Option VectorCursor := do
  let positions ← readPositions shown (fields.get? (Text.ofString "p"))
  let revision ← readRevision (fields.get? (Text.ofString "tr"))
  let archive ← readArchive (fields.get? (Text.ofString "a"))
  let epoch ← pyStr shown (← fields.get? (Text.ofString "re"))
  checked epoch revision (Dict.ofFields positions) archive

def decode (room : ℕ) (token routerEpoch : Text) (topologyRevision : ℕ) : Outcome VectorCursor := do
  require (token ≠ [] ∧ token.length ≤ maxToken) .invalidRequest "malformed cursor"
  match ← demand (loadToken room token) .invalidRequest "malformed cursor" with
  | .object raw =>
    let fields : Dict Text Document := Dict.ofFields raw
    -- the version first: a later version may have a body of another form
    match fields.get? (Text.ofString "v") with
    | some (.int version _) =>
      require (version = tokenVersion) .cursorExpired "cursor version is no longer supported"
      let cursor ← demand (readBody shown fields) .invalidRequest "malformed cursor"
      require (cursor.routerEpoch = routerEpoch) .cursorExpired
        "router restarted; refetch the board"
      require (cursor.topologyRevision = topologyRevision) .boardChanged
        "generation topology changed; refetch the board"
      return cursor
    | _ => refuse .cursorExpired "cursor version is no longer supported"
  | _ => refuse .invalidRequest "malformed cursor"

end Decode

/-! ### What is written of a cursor -/

theorem letters?_map (l : List Char) : letters? (l.map .char) = some l := by
  refine mapM_eq_some.mpr ?_
  rw [List.forall₂_map_left_iff]
  exact List.forall₂_same.mpr fun _ _ => rfl

theorem short_natCast {n : ℕ} : Short n ↔ n < 10 ^ maxDigits := by
  unfold Short
  rw [Int.natAbs_natCast]
  exact Nat.length_toDigits_le_iff (by decide) (by decide)

theorem short_of_writeInt {n : ℤ} {written : List Char} (done : writeInt n = some written) :
    Short n := by
  simp only [writeInt, Option.ite_none_right_eq_some] at done
  exact done.1

/-- What a row of the positions is written as and read as. -/
structure Row (room : ℕ) (row : String × Text × ℕ) (field : Field) : Prop where
  named : field.1 = row.1
  valid : validGenerationId row.1 = true
  reads : Reads (room + 1) field.2.1 field.2.2
  value : ∃ short, field.2.2 = .list [.text row.2.1, .int row.2.2 short]

/-- A row that can be written: its generation is one, and its epoch comes back. -/
def Writable (row : String × Text × ℕ) : Prop :=
  validGenerationId row.1 = true ∧ row.2.1.Unpaired

theorem row_of_writePosition (room : ℕ) {row : String × Text × ℕ} {written : String × List Char}
    (done : writePosition row = some written) (writable : Writable row) :
    ∃ field, written = (field.1, field.2.1) ∧ Row room row field := by
  simp only [writePosition, Option.bind_eq_bind, Option.bind_eq_some_iff, Option.pure_def,
    Option.some.injEq] at done
  obtain ⟨seq, digits, rfl⟩ := done
  have short := short_of_writeInt digits
  let items : List (List Char × Document) :=
    [(writeText row.2.1, .text row.2.1), (seq, .int row.2.2 short)]
  refine ⟨(row.1, writeList (items.map Prod.fst), .list (items.map Prod.snd)), rfl, rfl,
    writable.1, Reads.list fun item among => ?_, short, rfl⟩
  simp only [items, List.mem_cons, List.not_mem_nil, or_false] at among
  rcases among with rfl | rfl
  · exact Reads.text room writable.2
  · exact Reads.int room digits short

theorem rows_of_written (room : ℕ) {rows : List (String × Text × ℕ)}
    {written : List (String × List Char)}
    (each : List.Forall₂ (fun row entry => writePosition row = some entry) rows written)
    (writable : ∀ row ∈ rows, Writable row) : ∃ fields : List Field,
      written = fields.map (fun field => (field.1, field.2.1)) ∧
        List.Forall₂ (Row room) rows fields := by
  induction each with
  | nil => exact ⟨[], rfl, .nil⟩
  | cons here _ ih =>
    obtain ⟨field, rfl, row⟩ := row_of_writePosition room here (writable _ (by simp))
    obtain ⟨fields, rfl, rows⟩ := ih fun row among => writable row (by simp [among])
    exact ⟨field :: fields, rfl, .cons row rows⟩

theorem readPosition_row {shown : Document → Option Text} {room : ℕ} {row : String × Text × ℕ}
    {field : Field} (here : Row room row field) : readPosition shown field.read = some row := by
  obtain ⟨short, value⟩ := here.value
  have letters : letters? (Text.ofString row.1) = some row.1.toList := letters?_map _
  simp only [readPosition, Field.read, here.named, value, letters, Option.bind_eq_bind,
    Option.bind_some, String.ofList_toList, here.valid]
  simp [pyStr]

/-- Sorted fields under distinct names are told apart by their keys. -/
theorem sorted_distinct {fields : List Field} (distinct : (fields.map Prod.fst).Nodup) :
    (((sortedKeys fields).map Field.read).map Prod.fst).Nodup := by
  have perm := (sortedKeys_perm fields).map fun field => Text.ofString field.1
  rw [List.map_map]
  refine (perm.nodup_iff.mpr ?_ : ((sortedKeys fields).map fun field => Text.ofString field.1).Nodup)
  have keys := distinct.map (f := Text.ofString) fun _ _ => Text.ofString_injective
  rwa [List.map_map] at keys

/-- An object that was written has its values under their names. -/
theorem get?_written {fields : List Field} (distinct : (fields.map Prod.fst).Nodup) (k : String) :
    (Dict.ofFields ((sortedKeys fields).map Field.read)).get? (Text.ofString k) =
      (fields.lookup k).map Prod.snd := by
  have keys := sorted_distinct distinct
  cases found : fields.lookup k with
  | some value =>
    obtain ⟨before, after, here, -⟩ := List.lookup_eq_some_iff.mp found
    have member : (k, value) ∈ sortedKeys fields :=
      (sortedKeys_perm fields).mem_iff.mpr (by simp [here])
    exact Dict.get?_setAll_mem keys (List.mem_map.mpr ⟨_, member, rfl⟩) _
  | none =>
    refine (Dict.get?_setAll_absent (fun field among same => ?_) _).trans rfl
    obtain ⟨row, member, rfl⟩ := List.mem_map.mp among
    have named : row.1 = k := Text.ofString_injective same
    have differs := List.lookup_eq_none_iff.mp found row ((sortedKeys_perm fields).mem_iff.mp member)
    simp [named] at differs

/-- The positions of a cursor come back from their object. -/
theorem positions_read (shown : Document → Option Text) (room : ℕ) {c : VectorCursor}
    {written : List (String × List Char)} (done : c.positions.rows.mapM writePosition = some written)
    (writable : ∀ row ∈ c.positions.rows, Writable row) : ∃ raw rows,
      Reads (room + 2) (writeObject written) (.object raw) ∧
        (Dict.ofFields raw).rows.mapM (readPosition shown) = some rows ∧
          rows.Perm c.positions.rows := by
  obtain ⟨fields, rfl, each⟩ := rows_of_written room (mapM_eq_some.mp done) writable
  have names : List.Forall₂ (· = ·) (c.positions.rows.map Prod.fst) (fields.map Prod.fst) := by
    rw [List.forall₂_map_left_iff, List.forall₂_map_right_iff]
    exact each.imp fun _ _ here => here.named.symm
  have distinct : (fields.map Prod.fst).Nodup := by
    rw [List.forall₂_eq_eq_eq] at names
    exact names ▸ c.positions.distinct
  obtain ⟨rows, sorted, perm⟩ := List.perm_comp_forall₂ (sortedKeys_perm fields) each.flip
  have reads : ∀ field ∈ fields, Reads (room + 1) field.2.1 field.2.2 := by
    intro field among
    obtain ⟨row, -, here⟩ := (beside each).2 field among
    exact here.reads
  refine ⟨(sortedKeys fields).map Field.read, rows, Reads.object reads, ?_, perm⟩
  rw [Dict.rows_ofFields (sorted_distinct distinct), mapM_eq_some, List.forall₂_map_left_iff]
  exact sorted.imp fun _ _ here => readPosition_row here

theorem archive_read (room : ℕ) {archive : Option (ℤ × ℕ)} {written : List (String × List Char)}
    (done : writeArchive archive = some written) : ∃ fields : List Field,
      written = fields.map (fun field => (field.1, field.2.1)) ∧
        (∀ field ∈ fields, Reads (room + 2) field.2.1 field.2.2) ∧
          (fields.map Prod.fst = [] ∨ fields.map Prod.fst = ["a"]) ∧ readArchive ((fields.lookup "a").map Prod.snd) = some archive := by
  cases archive with
  | none =>
    cases done
    exact ⟨[], rfl, nofun, .inl rfl, rfl⟩
  | some position =>
    obtain ⟨epoch, seq⟩ := position
    simp only [writeArchive, Option.bind_eq_bind, Option.bind_eq_some_iff, Option.pure_def,
      Option.some.injEq] at done
    obtain ⟨first, epochDigits, second, seqDigits, rfl⟩ := done
    let items : List (List Char × Document) :=
      [(first, .int epoch (short_of_writeInt epochDigits)),
        (second, .int seq (short_of_writeInt seqDigits))]
    refine ⟨[("a", writeList (items.map Prod.fst), .list (items.map Prod.snd))], rfl, ?_,
      .inr rfl, ?_⟩
    · simp only [List.mem_singleton, forall_eq]
      refine Reads.list fun item among => ?_
      simp only [items, List.mem_cons, List.not_mem_nil, or_false] at among
      rcases among with rfl | rfl
      · exact Reads.int _ epochDigits _
      · exact Reads.int _ seqDigits _
    · simp [items, readArchive]

/-- No text of the cursor has paired halves side by side. -/
structure Unpaired (c : VectorCursor) : Prop where
  routerEpoch : c.routerEpoch.Unpaired
  epochs : ∀ row ∈ c.positions.rows, row.2.1.Unpaired

theorem writable_rows {c : VectorCursor} (unpaired : c.Unpaired) :
    ∀ row ∈ c.positions.rows, Writable row := fun row among =>
  ⟨c.placed row.1 row.2 (Dict.get?_of_mem among), unpaired.epochs row among⟩

/-- What is written of a cursor is an object with the version and the body of the cursor. -/
theorem write_read (shown : Document → Option Text) (room : ℕ) {c : VectorCursor}
    {written : List Char} (done : c.write = some written) (unpaired : c.Unpaired) :
    ∃ raw c', Reads (room + 3) written (.object raw) ∧
      (∃ short, (Dict.ofFields raw).get? (Text.ofString "v") = some (.int tokenVersion short)) ∧
        readBody shown (Dict.ofFields raw) = some c' ∧ c'.Same c := by
  simp only [write, Option.bind_eq_bind, Option.bind_eq_some_iff, Option.pure_def,
    Option.some.injEq] at done
  obtain ⟨version, versionDigits, revision, revisionDigits, positions, rowsDone, archive,
    archiveDone, rfl⟩ := done
  have writable := writable_rows unpaired
  obtain ⟨rawPositions, rows, positionsRead, rowsRead, perm⟩ :=
    positions_read shown room rowsDone writable
  obtain ⟨archiveFields, rfl, archiveReads, names, archiveRead⟩ :=
    archive_read room archiveDone
  let fields : List Field :=
    [("v", version, .int tokenVersion (short_of_writeInt versionDigits)),
      ("re", writeText c.routerEpoch, .text c.routerEpoch),
      ("tr", revision, .int c.topologyRevision (short_of_writeInt revisionDigits)),
      ("p", writeObject positions, .object rawPositions)] ++ archiveFields
  have reads : ∀ field ∈ fields, Reads (room + 2) field.2.1 field.2.2 := by
    intro field among
    simp only [fields, List.cons_append, List.nil_append, List.mem_cons] at among
    rcases among with rfl | rfl | rfl | rfl | among
    · exact Reads.int _ versionDigits _
    · exact Reads.text _ unpaired.routerEpoch
    · exact Reads.int _ revisionDigits _
    · exact positionsRead
    · exact archiveReads field among
  have distinct : (fields.map Prod.fst).Nodup := by
    show (["v", "re", "tr", "p"] ++ archiveFields.map Prod.fst).Nodup
    rcases names with none | one
    · rw [none]
      decide
    · rw [one]
      decide
  have atVersion := get?_written distinct "v"
  have atEpoch := get?_written distinct "re"
  have atRevision := get?_written distinct "tr"
  have atPositions := get?_written distinct "p"
  have atArchive : (Dict.ofFields ((sortedKeys fields).map Field.read)).get? (Text.ofString "a") =
      (archiveFields.lookup "a").map Prod.snd := get?_written distinct "a"
  have placed : ∀ row ∈ (Dict.ofFields rows).rows, validGenerationId row.1 = true := by
    have keys : (rows.map Prod.fst).Nodup :=
      (perm.map Prod.fst).nodup_iff.mpr c.positions.distinct
    rw [Dict.rows_ofFields keys]
    exact fun row among => (writable row (perm.mem_iff.mp among)).1
  refine ⟨(sortedKeys fields).map Field.read,
    ⟨c.routerEpoch, c.topologyRevision, Dict.ofFields rows, c.archive, c.epoch_ne, ?_⟩,
    Reads.object reads, ⟨_, atVersion⟩, ?_, ?_⟩
  · intro g position held
    rw [Dict.get?_ofFields_perm perm g] at held
    exact c.placed g position held
  · simp only [readBody, atPositions, atRevision, atArchive, atEpoch, archiveRead]
    simp [fields, List.lookup_cons, readPositions, readRevision, rowsRead, pyStr, checked, c.epoch_ne]
    exact fun g epoch seq among => placed (g, epoch, seq) among
  · exact ⟨rfl, rfl, rfl, fun g => Dict.get?_ofFields_perm perm g⟩

/-- Decoding undoes the base64 of what was written. -/
theorem loadToken_written {room : ℕ} {written : List Char} {document : Document}
    (reads : Reads room written document) (long : 2 ≤ written.length) :
    loadToken room ((Base64.encode (written.map Char.toNat)).map .char) = some document := by
  have octets : ∀ o ∈ written.map Char.toNat, o < 256 := by
    intro o among
    obtain ⟨c, here, rfl⟩ := List.mem_map.mp among
    exact (reads.plain c here).2.trans (by decide)
  have ascii : (Base64.encode (written.map Char.toNat)).all (·.toNat < 128) = true :=
    List.all_eq_true.mpr fun c among => decide_eq_true (Base64.encode_ascii octets c among)
  simp only [loadToken, letters?_map, Option.bind_eq_bind, Option.bind_some, ascii, if_true,
    List.length_map, Base64.decode_encode octets, loads_written reads long]

theorem length_write {c : VectorCursor} {written : List Char} (done : c.write = some written) :
    c.routerEpoch.length + 4 ≤ written.length := by
  simp only [write, Option.bind_eq_bind, Option.bind_eq_some_iff, Option.pure_def,
    Option.some.injEq] at done
  obtain ⟨version, -, revision, -, positions, -, archive, -, rfl⟩ := done
  have inside : (writeText c.routerEpoch).length + 2 ≤ (writeObject ([("v", version),
      ("re", writeText c.routerEpoch), ("tr", revision), ("p", writeObject positions)] ++
      archive)).length :=
    length_le_writeObject ("re", writeText c.routerEpoch) (by simp)
  have text := length_le_writeText c.routerEpoch
  omega

theorem length_encode {c : VectorCursor} {token : Text} (done : c.encode = .ok token) :
    c.routerEpoch.length + 4 ≤ token.length := by
  unfold encode at done
  split at done
  · rename_i written here
    cases done
    have long := length_write here
    have encoded := Base64.length_le_encode (written.map Char.toNat)
    rw [List.length_map] at encoded ⊢
    omega
  · cases done

/-- The token of a cursor is decoded to that cursor, when it is not too long to be one. -/
theorem decode_encode (shown : Document → Option Text) (room : ℕ) {c : VectorCursor} {token : Text}
    (done : c.encode = .ok token) (unpaired : c.Unpaired) (fits : token.length ≤ maxToken) :
    ∃ c', decode shown (room + 3) token c.routerEpoch c.topologyRevision = .ok c' ∧ c'.Same c := by
  have filled : token ≠ [] := by
    rintro rfl
    cases length_encode done
  unfold encode at done
  split at done
  · rename_i written here
    cases done
    obtain ⟨raw, c', reads, ⟨short, version⟩, body, same⟩ :=
      write_read shown room here unpaired
    have long := length_write here
    have loaded := loadToken_written reads (by omega)
    refine ⟨c', ?_, same⟩
    simp only [decode, bind_ok, require_ok, demand_ok]
    refine ⟨(), ⟨filled, fits⟩, _, loaded, ?_⟩
    simp only [version, bind_ok, require_ok, demand_ok]
    exact ⟨(), trivial, c', body, (), same.routerEpoch, (), same.topologyRevision, rfl⟩
  · cases done

/-! ### What is decoded can be encoded -/

/-- The interpreter can write the numbers of the cursor. -/
structure Numbered (c : VectorCursor) : Prop where
  revision : Short c.topologyRevision
  positions : ∀ row ∈ c.positions.rows, Short row.2.2
  archive : ∀ position ∈ c.archive, Short position.1 ∧ Short position.2

theorem writeInt_short {n : ℤ} (short : Short n) : ∃ written, writeInt n = some written :=
  ⟨_, if_pos short⟩

/-- A cursor has a token exactly when its numbers can be written. -/
theorem encode_ok_iff {c : VectorCursor} : (∃ token, c.encode = .ok token) ↔ c.Numbered := by
  have written : (∃ token, c.encode = .ok token) ↔ ∃ raw, c.write = some raw := by
    unfold encode
    cases c.write <;> simp
  rw [written]
  constructor
  · rintro ⟨raw, done⟩
    simp only [write, Option.bind_eq_bind, Option.bind_eq_some_iff, Option.pure_def,
      Option.some.injEq] at done
    obtain ⟨-, -, revision, digits, positions, rows, archive, archived, -⟩ := done
    refine ⟨short_of_writeInt digits, fun row among => ?_, fun position held => ?_⟩
    · obtain ⟨entry, -, entered⟩ := shown_of_mapM rows among
      simp only [writePosition, Option.bind_eq_bind, Option.bind_eq_some_iff] at entered
      obtain ⟨seq, digits, -⟩ := entered
      exact short_of_writeInt digits
    · rw [Option.mem_def.mp held] at archived
      simp only [writeArchive, Option.bind_eq_bind, Option.bind_eq_some_iff] at archived
      obtain ⟨epoch, epochDigits, seq, seqDigits, -⟩ := archived
      exact ⟨short_of_writeInt epochDigits, short_of_writeInt seqDigits⟩
  · intro numbered
    obtain ⟨version, versionDone⟩ := writeInt_short (n := tokenVersion) (by decide)
    obtain ⟨revision, revisionDone⟩ := writeInt_short numbered.revision
    have each : ∀ row ∈ c.positions.rows, (writePosition row).isSome := by
      intro row among
      obtain ⟨seq, done⟩ := writeInt_short (numbered.positions row among)
      simp [writePosition, done]
    obtain ⟨positions, rowsDone⟩ := mapM_isSome each
    have archiveDone : ∃ archive, writeArchive c.archive = some archive := by
      cases held : c.archive with
      | none => exact ⟨[], rfl⟩
      | some position =>
        obtain ⟨epoch, epochDone⟩ := writeInt_short (numbered.archive position held).1
        obtain ⟨seq, seqDone⟩ := writeInt_short (numbered.archive position held).2
        exact ⟨_, by simp [writeArchive, epochDone, seqDone]; rfl⟩
    obtain ⟨archive, archiveDone⟩ := archiveDone
    simp [write, versionDone, revisionDone, rowsDone, archiveDone]

theorem readPosition_short {shown : Document → Option Text} {field : Text × Document}
    {row : String × Text × ℕ} (done : readPosition shown field = some row) : Short row.2.2 := by
  simp only [readPosition, Option.bind_eq_bind, Option.bind_eq_some_iff] at done
  obtain ⟨letters, -, done⟩ := done
  split at done
  · rename_i epoch seq short _
    simp only [Option.ite_none_right_eq_some, Option.bind_eq_some_iff, Option.pure_def,
      Option.some.injEq] at done
    obtain ⟨⟨nonneg, -⟩, shown', -, rfl⟩ := done
    rwa [Int.toNat_of_nonneg nonneg]
  · cases done

/-- The decoder takes no number that could not be written. -/
theorem readBody_numbered {shown : Document → Option Text} {fields : Dict Text Document}
    {c : VectorCursor} (done : readBody shown fields = some c) : c.Numbered := by
  simp only [readBody, Option.bind_eq_bind, Option.bind_eq_some_iff] at done
  obtain ⟨positions, rows, revision, revisionRead, archive, archiveRead, value, -, epoch, -,
    done⟩ := done
  simp only [checked] at done
  split at done
  · split at done
    · cases done
      refine ⟨?_, fun row among => ?_, fun position within => ?_⟩
      · unfold readRevision at revisionRead
        split at revisionRead
        · rename_i n short _
          simp only [Option.ite_none_right_eq_some, Option.some.injEq] at revisionRead
          obtain ⟨nonneg, rfl⟩ := revisionRead
          rwa [Int.toNat_of_nonneg nonneg]
        · cases revisionRead
      · unfold readPositions at rows
        split at rows
        · obtain ⟨field, -, read⟩ := mem_of_mapM rows (Dict.mem_ofFields among)
          exact readPosition_short read
        · cases rows
      · cases within
        unfold readArchive at archiveRead
        split at archiveRead
        · cases archiveRead
        · cases archiveRead
        · rename_i first epochShort second seqShort _
          simp only [Option.ite_none_right_eq_some, Option.some.injEq] at archiveRead
          obtain ⟨nonneg, rfl⟩ := archiveRead
          exact ⟨epochShort, by rwa [Int.toNat_of_nonneg nonneg]⟩
        · cases archiveRead
    · cases done
  · cases done

/-- The three errors of the decoder. -/
def Documented : Raised → Prop
  | .nelix error => error.code ∈ [.invalidRequest, .cursorExpired, .boardChanged]
  | _ => False

/-- Whatever text it is given, the decoder answers with a cursor of the router that it was brought
to, or with one of its errors. -/
theorem decode_settles (shown : Document → Option Text) (room : ℕ) (token routerEpoch : Text)
    (topologyRevision : ℕ) :
    match decode shown room token routerEpoch topologyRevision with
    | .ok c => c.routerEpoch = routerEpoch ∧ c.topologyRevision = topologyRevision ∧ c.Numbered
    | .error raised => Documented raised := by
  cases answer : decode shown room token routerEpoch topologyRevision with
  | ok c =>
    simp only [decode, bind_ok, require_ok, demand_ok] at answer
    obtain ⟨-, -, document, -, answer⟩ := answer
    split at answer
    · split at answer
      · simp only [bind_ok, require_ok, demand_ok, pure, Except.pure, Except.ok.injEq] at answer
        obtain ⟨-, -, c', body, -, epoch, -, revision, rfl⟩ := answer
        exact ⟨epoch, revision, readBody_numbered body⟩
      · simp at answer
    · simp at answer
  | error raised =>
    simp only [decode, bind_error, require_error, demand_error] at answer
    rcases answer with ⟨-, rfl⟩ | ⟨-, -, ⟨-, rfl⟩ | ⟨document, -, answer⟩⟩
    · simp [Documented]
    · simp [Documented]
    · split at answer
      · split at answer
        · simp only [bind_error, require_error, demand_error, pure, Except.pure, reduceCtorEq,
            and_false, exists_false, or_false] at answer
          rcases answer with ⟨-, rfl⟩ | ⟨-, -, ⟨-, rfl⟩ | ⟨c, -, ⟨-, rfl⟩ | ⟨-, -, -, rfl⟩⟩⟩ <;>
            simp [Documented]
        · simp only [refuse_error] at answer
          subst answer
          simp [Documented]
      · simp only [refuse_error] at answer
        subst answer
        simp [Documented]

/-- The token of a cursor is short enough, and no text of it changes on the way. -/
def Travels (c : VectorCursor) (token : Text) : Prop := c.Unpaired ∧ token.length ≤ maxToken

/-- What can be said of the tokens of cursors and of tokens at large: a token that is not too long
gives back its cursor, a cursor has a token when its numbers can be written, and whatever token is
brought, the answer is a cursor of which the same holds or one of three errors. -/
theorem token_law (shown : Document → Option Text) (room : ℕ) :
    (∀ c token, c.encode = .ok token → c.Travels token → ∃ c',
      decode shown (room + 3) token c.routerEpoch c.topologyRevision = .ok c' ∧ c'.Same c) ∧
    (∀ c : VectorCursor, (∃ token, c.encode = .ok token) ↔ c.Numbered) ∧
    ∀ token routerEpoch topologyRevision,
      match decode shown (room + 3) token routerEpoch topologyRevision with
      | .ok c => ∃ token', c.encode = .ok token' ∧ (c.Travels token' → ∃ c',
          decode shown (room + 3) token' routerEpoch topologyRevision = .ok c' ∧ c'.Same c)
      | .error raised => Documented raised := by
  refine ⟨fun c token done travels => decode_encode shown room done travels.1 travels.2,
    fun c => encode_ok_iff, fun token routerEpoch topologyRevision => ?_⟩
  have settles := decode_settles shown (room + 3) token routerEpoch topologyRevision
  cases answer : decode shown (room + 3) token routerEpoch topologyRevision with
  | error raised =>
    rw [answer] at settles
    exact settles
  | ok c =>
    rw [answer] at settles
    obtain ⟨rfl, rfl, numbered⟩ := settles
    obtain ⟨token', done⟩ := encode_ok_iff.mpr numbered
    exact ⟨token', done, fun travels => decode_encode shown room done travels.1 travels.2⟩

/-- A cursor without positions. -/
def bare (routerEpoch : Text) (named : routerEpoch ≠ []) (topologyRevision : ℕ) : VectorCursor :=
  ⟨routerEpoch, topologyRevision, ∅, none, named, fun _ _ held => by simp at held⟩

/-- A cursor of a router whose epoch is as long as a token may be has a token that is refused, and
one with a number of 4301 digits has none at all. -/
theorem token_too_large :
    (∃ c token, encode c = .ok token ∧
      decode (fun _ => none) 3 token c.routerEpoch c.topologyRevision =
        refuse .invalidRequest "malformed cursor") ∧
    ∃ c, encode c = .error .valueError := by
  constructor
  · let c := bare (List.replicate maxToken (.char 'a')) (by decide) 0
    have numbered : c.Numbered := ⟨by decide, nofun, nofun⟩
    obtain ⟨token, done⟩ := encode_ok_iff.mpr numbered
    have long := length_encode done
    have epoch : c.routerEpoch.length = maxToken := List.length_replicate
    refine ⟨c, token, done, ?_⟩
    rw [decode, require, if_neg (by omega)]
    rfl
  · -- the number stays a name, so that nothing computes its digits
    obtain ⟨n, large⟩ : ∃ n : ℕ, ¬ n < 10 ^ maxDigits := ⟨10 ^ maxDigits, lt_irrefl _⟩
    let c := bare [.char 'a'] (by decide) n
    have unwritten : c.write = none := by
      by_contra written
      obtain ⟨raw, here⟩ := Option.ne_none_iff_exists'.mp written
      have token : ∃ token, c.encode = .ok token := ⟨_, by rw [encode, here]⟩
      exact large (short_natCast.mp (encode_ok_iff.mp token).revision)
    exact ⟨c, by rw [encode, unwritten]⟩

end VectorCursor

end Nelix.Contracts
