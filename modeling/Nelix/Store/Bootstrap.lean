import Nelix.Contracts.Errors
import Nelix.Core.Pool
import Mathlib.Data.Int.Notation
import Mathlib.Data.Nat.Notation

/-!
# Opening the database

What `connect` does to the one database file before it hands out a connection: the lock around the
bootstrap, the journal mode, the version gate, the stamp, and the schema. Every statement can fail,
and a failure can still have written; an opener can be killed between any two of them. Builds of
several versions open the same file.
-/
namespace Nelix.Store

open Contracts Core

/-! ### Errors -/

/-- An exception of `sqlite3`. -/
structure SqliteError where
  errorcode : Option ℕ
  -- a `ProgrammingError` or an `InterfaceError`
  misuse : Bool
  text : String

/-- BUSY, LOCKED, CANTOPEN, IOERR, FULL, NOMEM, INTERRUPT and PROTOCOL. -/
def unavailableCodes : List ℕ := [5, 6, 14, 10, 13, 7, 9, 15]

/-- READONLY, PERM and AUTH. -/
def unsupportedCodes : List ℕ := [8, 3, 23]

/-- CORRUPT and NOTADB. -/
def corruptCodes : List ℕ := [11, 26]

def classifySqliteError (exc : SqliteError) : NelixError :=
  let base := exc.errorcode.map (· % 256)
  if base.any (unavailableCodes.contains ·) then
    ⟨.storeUnavailable, s!"database unavailable: {exc.text}"⟩
  else if base.any (unsupportedCodes.contains ·) then
    ⟨.storeUnsupported, s!"database not writable here: {exc.text}"⟩
  else if base.any (corruptCodes.contains ·) then
    ⟨.storeCorrupt, s!"database corrupt: {exc.text}"⟩
  else if exc.misuse || base.isNone || base == some 1 then
    ⟨.internalError, s!"internal database error: {exc.text}"⟩
  else ⟨.storeCorrupt, s!"database error: {exc.text}"⟩

/-- What a call raises: an error of SQLite, of the system, or the lock's own. -/
inductive CallFault
  | sqlite (exc : SqliteError)
  | os (text : String)
  | lock (error : NelixError)

/-- What stops an open. -/
inductive OpenFault
  | call (fault : CallFault)
  | noWal (error : NelixError)
  /-- The version gate. -/
  | version (error : NelixError)
  /-- `None` is not subscriptable. -/
  | typeError

/-- What `connect` raises for it. -/
def OpenFault.raised : OpenFault → Raised
  | call (.sqlite exc) => .nelix (classifySqliteError exc)
  | call (.os text) => .nelix ⟨.storeUnavailable, s!"could not open the database: {text}"⟩
  | call (.lock error) | noWal error | version error => .nelix error
  | typeError => .typeError

/-! ### The file -/

/-- A statement of a schema. -/
inductive Statement
  | object (name definition : String)
  | pragma (text : String)

/-- What the statement defines. -/
def Statement.name : Statement → Option String
  | object name _ => some name
  | pragma _ => none

/-- What a build brings along; its schema defines no object twice. -/
structure Build where
  version : ℕ
  schema : List Statement
  distinct : (schema.filterMap Statement.name).Nodup

def Build.mark (b : Build) : String := toString b.version

/-- The content of the file: its journal mode, the table `meta` with its stamp, and the objects of
the schema with their definitions. -/
structure File where
  wal : Bool := false
  metaTable : Option (Option String) := none
  objects : String → Option String := fun _ => none

namespace File

def stamp (f : File) : Option String := f.metaTable.join

def enableWal (f : File) : File := { f with wal := true }

def createMeta (f : File) : File := { f with metaTable := some f.stamp }

/-- `INSERT OR IGNORE` -/
def insertStamp (value : String) (f : File) : File :=
  { f with metaTable := f.metaTable.map fun stamp => some (stamp.getD value) }

/-- `CREATE … IF NOT EXISTS` -/
def createObject (name definition : String) (f : File) : File :=
  { f with objects := Function.update f.objects name (some ((f.objects name).getD definition)) }

end File

/-- The file, the transaction that is open on it, who holds the bootstrap lock, who was killed, and
who has run a statement that writes. -/
structure Disk where
  file : File := {}
  pending : Option (ℕ × File) := none
  lock : Option ℕ := none
  dead : ℕ → Bool := fun _ => false
  wrote : ℕ → Bool := fun _ => false

/-! ### The program -/

inductive OpenCall
  | prepareRoot
  | lockFile
  | unlock
  | connect
  | pragma (text : String)
  | journalMode
  | enableWal
  | hasMeta
  | readStamp
  | beginImmediate
  | createMeta
  | insertStamp (value : String)
  | rollback
  | commit
  | createObject (name definition : String)
  | close

namespace OpenCall

def Value : OpenCall → Type
  | journalMode | enableWal => String
  | hasMeta => Bool
  | readStamp => Option String
  | _ => Unit

abbrev Answer (e : OpenCall) : Type := Except CallFault e.Value

end OpenCall

/-- An exception under way, and whether there is a connection by then. -/
structure Thrown where
  fault : OpenFault
  connected : Bool

abbrev OpenProg (α : Type) : Type := Prog OpenCall OpenCall.Answer Thrown α

/-- Performs one call, and raises what it raises. -/
def call (connected : Bool) (e : OpenCall) : OpenProg e.Value :=
  .perform e fun r => .done (r.mapError fun fault => ⟨.call fault, connected⟩)

/-- How `int` reads a stamp. -/
structure StampReader where
  int : String → Option ℤ
  reads : ∀ n : ℕ, int (toString n) = some (n : ℤ)

variable (reader : StampReader) (b : Build)

def refuseVersion {α : Type} (message : String) : OpenProg α :=
  Prog.raise ⟨.version ⟨.storeCorrupt, message⟩, true⟩

def validateVersion (raw : String) : OpenProg Unit :=
  match reader.int raw with
  | none => refuseVersion s!"database version stamp is unreadable: {raw}"
  | some found =>
    if (b.version : ℤ) < found then
      refuseVersion s!"database schema {found} is newer than this build supports ({b.version}); refusing to open it"
    else if found < (b.version : ℤ) then
      refuseVersion s!"database schema {found} predates this build ({b.version}) and no migration exists; refusing to open it"
    else pure ()

def refuseADisagreeingDatabase : OpenProg Unit := do
  let there : Bool ← call true .hasMeta
  if there then
    let row : Option String ← call true .readStamp
    match row with
    | none => pure ()
    | some raw => validateVersion reader b raw
  else pure ()

def writeStamp : OpenProg Unit := do
  let _ ← call true .createMeta
  let _ ← call true (.insertStamp b.mark)
  pure ()

/-- A rollback that fails is suppressed. -/
def undo (x : Thrown) : OpenProg Unit := .perform .rollback fun _ => Prog.raise x

def stampBeforeTheDdl : OpenProg Unit := do
  let _ ← call true .beginImmediate
  (writeStamp b).rescue undo
  let _ ← call true .commit
  pure ()

/-- `executescript` -/
def executeScript : List Statement → OpenProg Unit
  | [] => pure ()
  | .pragma text :: rest => do
    let _ ← call true (.pragma text)
    executeScript rest
  | .object name definition :: rest => do
    let _ ← call true (.createObject name definition)
    executeScript rest

def checkOrStampVersion : OpenProg Unit := do
  let _ ← call true (.insertStamp b.mark)
  let row : Option String ← call true .readStamp
  match row with
  | none => Prog.raise ⟨.typeError, true⟩
  | some raw => validateVersion reader b raw

def useWal : OpenProg Unit := do
  let mode : String ← call true .journalMode
  if mode.toLower = "wal" then pure ()
  else
    let actual : String ← call true .enableWal
    if actual.toLower = "wal" then pure ()
    else
      Prog.raise ⟨.noWal ⟨.storeUnsupported, s!"could not enable WAL (journal_mode={actual}); NELIX_HOME must be on a host-local filesystem"⟩, true⟩

/-- What is done under the lock. -/
def bootstrap : OpenProg Unit := do
  let _ ← call false .connect
  let _ ← call true (.pragma "busy_timeout")
  useWal
  let _ ← call true (.pragma "synchronous")
  let _ ← call true (.pragma "foreign_keys")
  refuseADisagreeingDatabase reader b
  stampBeforeTheDdl b
  executeScript b.schema
  checkOrStampVersion reader b

def release : OpenProg Unit := .perform .unlock fun _ => pure ()

def openLocked : OpenProg Unit := do
  let _ ← call false .prepareRoot
  let _ ← call false .lockFile
  (bootstrap reader b).ensure release

/-- The exception closes the connection. -/
def Thrown.Closes (x : Thrown) : Prop := x.fault ≠ .typeError ∧ x.connected = true

/-- Closes the connection, if there is one by then. -/
def abandon (x : Thrown) : OpenProg Unit :=
  match x.fault with
  | .typeError => Prog.raise x
  | _ => if x.connected then .perform .close fun _ => Prog.raise x else Prog.raise x

def connect : OpenProg Unit := (openLocked reader b).rescue abandon

/-! ### What the statements do -/

namespace OpenCall

/-- What a statement makes of the content. -/
def effect : OpenCall → Option (File → File)
  | enableWal => some File.enableWal
  | createMeta => some File.createMeta
  | insertStamp value => some (File.insertStamp value)
  | createObject name definition => some (File.createObject name definition)
  | _ => none

/-- The statement writes, or takes the write lock. -/
def writing : OpenCall → Bool
  | enableWal | createMeta | insertStamp _ | createObject _ _ | beginImmediate | commit => true
  | _ => false

/-- Nothing of the disk is read or written. -/
def Quiet : OpenCall → Prop
  | prepareRoot | connect | pragma _ => True
  | _ => False

/-- The call can raise. -/
def Fallible : OpenCall → Prop
  | unlock | close => False
  | _ => True

end OpenCall

namespace Disk

/-- The transaction of this opener. -/
def own (d : Disk) (i : ℕ) : Option File := (d.pending.filter (·.1 == i)).map (·.2)

/-- The content that this opener sees. -/
def view (d : Disk) (i : ℕ) : File := (d.own i).getD d.file

/-- Its open transaction is gone. -/
def drop (d : Disk) (i : ℕ) : Disk :=
  { d with pending := d.pending.filter fun p => p.1 != i }

/-- A statement of it that writes was run. -/
def touch (d : Disk) (i : ℕ) (e : OpenCall) : Disk :=
  { d with wrote := Function.update d.wrote i (d.wrote i || e.writing) }

def unlock (d : Disk) (i : ℕ) : Disk := { d with lock := d.lock.filter (· != i) }

/-- The process is killed: the kernel drops its lock, and the next reader its transaction. -/
def kill (d : Disk) (i : ℕ) : Disk :=
  { (d.unlock i).drop i with dead := Function.update d.dead i true }

end Disk

/-- A statement is written into the opener's transaction, or at once where no one has one. -/
inductive Writes (i : ℕ) (f : File → File) : Disk → Disk → Prop
  | inside {d : Disk} {p : File} (mine : d.pending = some (i, p)) :
      Writes i f d { d with pending := some (i, f p) }
  | atOnce {d : Disk} (free : d.pending = none) : Writes i f d { d with file := f d.file }

/-- What a call of this opener may answer, and leave. -/
inductive Acts (i : ℕ) : (e : OpenCall) → Disk → e.Answer → Disk → Prop
  | fails {e : OpenCall} {d : Disk} (x : CallFault) (fallible : e.Fallible)
      (alive : d.dead i = false) : Acts i e d (.error x) (d.touch i e)
  /-- `sqlite3` may roll the transaction back by itself. -/
  | aborts {e : OpenCall} {d : Disk} (x : CallFault) (fallible : e.Fallible)
      (alive : d.dead i = false) : Acts i e d (.error x) ((d.drop i).touch i e)
  /-- The failure came after the write. -/
  | late {e : OpenCall} {f : File → File} {d d' : Disk} (x : CallFault) (alive : d.dead i = false)
      (about : e.effect = some f) (writes : Writes i f d d') : Acts i e d (.error x) (d'.touch i e)
  | writes {e : OpenCall} {f : File → File} {d d' : Disk} (v : e.Value) (alive : d.dead i = false)
      (about : e.effect = some f) (writes : Writes i f d d') : Acts i e d (.ok v) (d'.touch i e)
  | quiet {e : OpenCall} {d : Disk} (v : e.Value) (quiet : e.Quiet) (alive : d.dead i = false) :
      Acts i e d (.ok v) d
  | lockFile {d : Disk} (alive : d.dead i = false) (free : d.lock = none) :
      Acts i .lockFile d (.ok ()) { d with lock := some i }
  | unlock {d : Disk} (alive : d.dead i = false) : Acts i .unlock d (.ok ()) (d.unlock i)
  | journalMode {d : Disk} {mode : String} (alive : d.dead i = false)
      (tells : mode.toLower = "wal" ↔ (d.view i).wal = true) : Acts i .journalMode d (.ok mode) d
  /-- The journal mode stays what it is. -/
  | refusesWal {d : Disk} {mode : String} (alive : d.dead i = false)
      (other : mode.toLower ≠ "wal") : Acts i .enableWal d (.ok mode) (d.touch i .enableWal)
  | hasMeta {d : Disk} (alive : d.dead i = false) :
      Acts i .hasMeta d (.ok (d.view i).metaTable.isSome) d
  | readStamp {d : Disk} {row : Option String} (alive : d.dead i = false)
      (found : (d.view i).metaTable = some row) : Acts i .readStamp d (.ok row) d
  | beginImmediate {d : Disk} (alive : d.dead i = false) (free : d.pending = none) :
      Acts i .beginImmediate d (.ok ()) ({ d with pending := some (i, d.file) }.touch i .beginImmediate)
  | rollback {d : Disk} (alive : d.dead i = false) : Acts i .rollback d (.ok ()) (d.drop i)
  /-- Also the answer of a commit that went through may be lost. -/
  | commit {d : Disk} {f : File} (r : Except CallFault Unit) (alive : d.dead i = false)
      (mine : d.pending = some (i, f)) :
      Acts i .commit d r ({ d with file := f, pending := none }.touch i .commit)
  | close {d : Disk} (alive : d.dead i = false) : Acts i .close d (.ok ()) (d.drop i)

/-! ### Where nothing goes wrong -/

def busy : CallFault := .sqlite ⟨some 5, false, "database is locked"⟩

/-- A statement is written where the opener may write. -/
def Disk.write (d : Disk) (i : ℕ) (f : File → File) : Option Disk :=
  match d.pending with
  | none => some { d with file := f d.file }
  | some (j, p) => if j = i then some { d with pending := some (i, f p) } else none

/-- What a statement that writes answers where nothing goes wrong. -/
def written {α : Type} (i : ℕ) (e : OpenCall) (f : File → File) (a : α) (d : Disk) :
    Except CallFault α × Disk :=
  match d.write i f with
  | some d' => (.ok a, d'.touch i e)
  | none => (.error busy, d.touch i e)

def answer (i : ℕ) : (e : OpenCall) → Disk → e.Answer × Disk
  | .prepareRoot, d | .connect, d | .pragma _, d => (.ok (), d)
  | .lockFile, d =>
    if d.lock = none then (.ok (), { d with lock := some i })
    else
      (.error (.lock ⟨.storeUnavailable, "timed out waiting for the database bootstrap lock"⟩), d)
  | .unlock, d => (.ok (), d.unlock i)
  | .journalMode, d => (.ok (if (d.view i).wal then "wal" else "delete"), d)
  | .enableWal, d => written i .enableWal File.enableWal "wal" d
  | .hasMeta, d => (.ok (d.view i).metaTable.isSome, d)
  | .readStamp, d =>
    match (d.view i).metaTable with
    | some row => (.ok row, d)
    | none => (.error (.sqlite ⟨some 1, false, "no such table: meta"⟩), d)
  | .beginImmediate, d =>
    match d.pending with
    | none => (.ok (), { d with pending := some (i, d.file) }.touch i .beginImmediate)
    | some _ => (.error busy, d.touch i .beginImmediate)
  | .createMeta, d => written i .createMeta File.createMeta () d
  | .insertStamp value, d => written i (.insertStamp value) (File.insertStamp value) () d
  | .createObject n df, d => written i (.createObject n df) (File.createObject n df) () d
  | .rollback, d => (.ok (), d.drop i)
  | .commit, d =>
    match d.own i with
    | some f => (.ok (), { d with file := f, pending := none }.touch i .commit)
    | none => (.error (.sqlite ⟨some 1, false, "cannot commit - no transaction is active"⟩), d.touch i .commit)
  | .close, d => (.ok (), d.drop i)

variable {i : ℕ} {d d' : Disk}

theorem Disk.own_eq_some {f : File} : d.own i = some f ↔ d.pending = some (i, f) := by
  rw [own]
  rcases d.pending with _ | ⟨j, g⟩
  · simp
  · by_cases same : j = i <;> simp [Option.filter, same]

theorem Disk.touch_still {e : OpenCall} (still : e.writing = false) : d.touch i e = d := by
  simp [touch, still]

theorem Disk.writes_of_write {f : File → File} (into : d.write i f = some d') : Writes i f d d' := by
  obtain ⟨file, pending, lock, dead, wrote⟩ := d
  rw [write] at into
  rcases pending with _ | ⟨j, p⟩
  · cases into
    exact .atOnce rfl
  · by_cases mine : j = i
    · subst mine
      simp only [if_pos, Option.some.injEq] at into
      subst into
      exact .inside rfl
    · simp only [if_neg mine] at into
      cases into

/-- The mode tells whether the journal is one of WAL. -/
theorem mode_tells (wal : Bool) : (if wal then "wal" else "delete").toLower = "wal" ↔ wal = true := by
  cases wal <;> decide +kernel

/-- What the calls answer where nothing goes wrong is one of the things they may answer. -/
theorem answer_acts (e : OpenCall) (alive : d.dead i = false) :
    Acts i e d (answer i e d).1 (answer i e d).2 := by
  have wrote : ∀ {e : OpenCall} {f : File → File} (v : e.Value), e.effect = some f →
      Acts i e d (written i e f v d).1 (written i e f v d).2 := by
    intro e f v about
    rw [written]
    cases into : d.write i f with
    | some d' => exact .writes v alive about (Disk.writes_of_write into)
    | none =>
      refine .fails busy ?_ alive
      cases e <;> trivial
  cases e with
  | prepareRoot => exact .quiet (e := .prepareRoot) () trivial alive
  | connect => exact .quiet (e := .connect) () trivial alive
  | pragma text => exact .quiet (e := .pragma text) () trivial alive
  | unlock => exact .unlock alive
  | rollback => exact .rollback alive
  | close => exact .close alive
  | hasMeta => exact .hasMeta alive
  | enableWal | createMeta | insertStamp | createObject => exact wrote _ rfl
  | lockFile =>
    rw [answer]
    by_cases free : d.lock = none
    · rw [if_pos free]
      exact .lockFile alive free
    · rw [if_neg free]
      have fails := Acts.fails (i := i) (e := .lockFile) (d := d)
        (.lock ⟨.storeUnavailable, "timed out waiting for the database bootstrap lock"⟩) trivial alive
      rwa [Disk.touch_still rfl] at fails
  | journalMode => exact .journalMode alive (mode_tells _)
  | readStamp =>
    rw [answer]
    cases found : (d.view i).metaTable with
    | some row => exact .readStamp alive found
    | none =>
      have fails := Acts.fails (i := i) (e := .readStamp) (d := d)
        (.sqlite ⟨some 1, false, "no such table: meta"⟩) trivial alive
      rwa [Disk.touch_still rfl] at fails
  | beginImmediate =>
    rw [answer]
    cases free : d.pending with
    | none => exact .beginImmediate alive free
    | some held => exact .fails busy trivial alive
  | commit =>
    rw [answer]
    cases mine : d.own i with
    | none => exact .fails _ trivial alive
    | some f => exact .commit (.ok ()) alive (Disk.own_eq_some.mp mine)

end Nelix.Store
