import Nelix.Daemon.ManagerAdmissions

/-!
# After quiescence

Once `begin_quiescence` has returned, the row of the epoch keeps every later start and restart
off the table. `certify_epoch` waits for the table and the obligations to be empty, so no receipt
of the epoch is written after it, where every obligation stands until its session has a receipt.

## Main results

`certified_stays`: what holds after the two calls have returned, in every run in which each id is
started once and the reaper leaves the sessions alone that are still being started;
`receipt_after_certificate`: a run in which it does not.
-/
namespace Nelix.Daemon

open Contracts Core Store

/-! ### What a section does to the table, the obligations and the store -/

namespace Manager

variable {m m' : Manager} {sid : String}

/-- The epoch is there, and takes no sessions. -/
def Shut (m : Manager) : Prop := m.genEpoch ≠ "" ∧ m.closed = true

/-- The store, the epoch and the obligations are as they were. -/
structure Alike (m m' : Manager) : Prop where
  genEpoch : m'.genEpoch = m.genEpoch
  db : m'.db = m.db
  terminalObligations : m'.terminalObligations = m.terminalObligations

theorem Alike.refl (m : Manager) : Alike m m := ⟨rfl, rfl, rfl⟩

theorem alike_checkQuiescent (m : Manager) (fault : Option Raised) :
    Alike m (m.checkQuiescent fault).2 := ⟨rfl, rfl, rfl⟩

theorem Shut.checkQuiescent (shut : m.Shut) (fault : Option Raised) :
    (m.checkQuiescent fault).1 = true := by
  simp [Manager.checkQuiescent, shut.1, shut.2]

theorem alike_takeOver (m : Manager) (sid : String) : Alike m (m.takeOver sid).2 := by
  rw [takeOver]
  split <;> exact ⟨rfl, rfl, rfl⟩

/-- A session is put on the table, or nothing but the flag changes. -/
inductive Installs (m : Manager) (sid : String) : Bool × Manager → Prop
  | refused (m' : Manager) (alike : Alike m m') : Installs m sid (false, m')
  | admitted (m' : Manager) (opens : ¬ m.Shut) (free : sid ∉ m.sessions)
      (genEpoch : m'.genEpoch = m.genEpoch) (db : m'.db = m.db)
      (terminalObligations : m'.terminalObligations = insert sid m.terminalObligations)
      (sessions : m'.sessions = insert sid m.sessions) : Installs m sid (true, m')

theorem installs_install (m : Manager) (sid : String) (reserve : Bool) (tokens : Option Tokens)
    (room : Bool) (fault : Option Raised) :
    Installs m sid (m.install sid reserve tokens room fault) := by
  rw [install]
  split
  · exact .refused m (.refl m)
  · split
    · exact .refused m (.refl m)
    next free =>
      have alike := alike_checkQuiescent m fault
      cases checked : m.checkQuiescent fault with
      | mk refuses m₁ =>
        rw [checked] at alike
        cases refuses with
        | true => exact .refused m₁ alike
        | false =>
          have opens : ¬ m.Shut := by
            intro shut
            have refuses := shut.checkQuiescent fault
            rw [checked] at refuses
            cases refuses
          have sessions : m₁.sessions = m.sessions := by
            have same := congrArg (fun r => r.2.sessions) checked
            exact same.symm
          cases tokens with
          | none =>
            refine .admitted _ opens free alike.genEpoch alike.db ?_ ?_
            · exact congrArg (insert sid) alike.terminalObligations
            · exact congrArg (insert sid) sessions
          | some tokens =>
            refine .admitted _ opens free alike.genEpoch alike.db ?_ ?_
            · exact congrArg (insert sid) alike.terminalObligations
            · exact congrArg (insert sid) sessions

/-! ### Receipts -/

/-- A session that has its row has its receipt. -/
def Receipted (m : Manager) (sid : String) : Prop :=
  (m.db.sessions.find? sid).isSome → (m.db.terminal.find? sid).isSome

theorem timestamp_error {value : Reading} {name : String} {x : Raised}
    (raised : timestamp value name = .error x) : ∃ message, x = .nelix ⟨.invalidRequest, message⟩ := by
  cases value with
  | finite t => cases raised
  | missing | notNumber | notFinite => exact ⟨_, refuse_error.mp raised⟩

theorem checkIdentity_error {start : StartRow} {x : Raised}
    (raised : Db.checkIdentity start = .error x) :
    ∃ message, x = .nelix ⟨.invalidRequest, message⟩ := by
  have assigned : ∀ value, Db.checkAssigned value = .error x →
      ∃ message, x = .nelix ⟨.invalidRequest, message⟩ := by
    intro value raised
    cases value with
    | none => exact ⟨_, refuse_error.mp raised⟩
    | some generation => exact ⟨_, (require_error.mp raised).2⟩
  simp only [Db.checkIdentity, checkOwner, checkOrchestration, bind_error, require_error]
    at raised
  rcases raised with ⟨-, rfl⟩ | ⟨_, -, ⟨-, rfl⟩ | ⟨_, -, ⟨-, rfl⟩ | ⟨_, -, raised | ⟨_, -, raised⟩⟩⟩⟩
  · exact ⟨_, rfl⟩
  · exact ⟨_, rfl⟩
  · exact ⟨_, rfl⟩
  · exact assigned _ raised
  · exact assigned _ raised

/-- Only a session without its rows is unknown. -/
theorem putTerminal_error {db : Db} {result : TerminalResult} {clock : Reading} {x : Raised}
    (raised : db.putTerminal sid result clock = .error x) :
    ∃ code message, x = .nelix ⟨code, message⟩ ∧
      (code = .unknownSession → db.joined sid = none) := by
  -- every other refusal has a code of its own
  have invalid : ∀ {message : String}, x = .nelix ⟨.invalidRequest, message⟩ →
      ∃ code message, x = .nelix ⟨code, message⟩ ∧
        (code = .unknownSession → db.joined sid = none) :=
    fun is => ⟨_, _, is, fun other => by cases other⟩
  simp only [Db.putTerminal, bind_error, demand_error] at raised
  rcases raised with ⟨missing, rfl⟩ | ⟨start, -, raised⟩
  · exact ⟨_, _, rfl, fun _ => missing⟩
  rcases raised with raised | ⟨_, -, raised | ⟨_, -, raised | ⟨_, -, raised⟩⟩⟩
  · exact invalid (timestamp_error raised).choose_spec
  · exact invalid (checkIdentity_error raised).choose_spec
  · exact invalid (timestamp_error raised).choose_spec
  cases stored : db.terminal.find? sid with
  | some existing =>
    simp only [stored, bind_error, require_error] at raised
    rcases raised with ⟨-, rfl⟩ | ⟨_, -, done⟩
    · exact ⟨_, _, rfl, fun other => by cases other⟩
    · cases done
  | none =>
    simp only [stored, bind_error, demand_error] at raised
    rcases raised with ⟨-, rfl⟩ | ⟨_, -, done⟩
    · exact ⟨_, _, rfl, fun other => by cases other⟩
    · cases done

/-- What a receipt that was put leaves: the store answered, or it does not know the session. -/
theorem putReceipt_ok {result : TerminalResult} {clock : Reading} {failure : Option StoreFailure}
    (done : m.putReceipt sid result clock (faultOf failure) = .ok m') :
    failure = none ∧
      ((∃ db, m.db.putTerminal sid result clock = .ok db ∧ m' = { m with db := db }) ∨
        (m.db.joined sid = none ∧ m' = m)) := by
  rw [putReceipt] at done
  cases failure with
  | some failure => cases failure <;> cases done
  | none =>
    refine ⟨rfl, ?_⟩
    simp only [faultOf, Option.map_none, reached] at done
    cases put : m.db.putTerminal sid result clock with
    | ok db =>
      rw [put] at done
      exact .inl ⟨db, rfl, (Except.ok.inj done).symm⟩
    | error raised =>
      rw [put] at done
      obtain ⟨code, message, rfl, unknown⟩ := putTerminal_error put
      by_cases is : code = .unknownSession
      · refine .inr ⟨unknown is, ?_⟩
        subst is
        exact (Except.ok.inj done).symm
      · simp [isUnknownSession, is] at done

theorem Shut.of_epochs (shut : m.Shut) (genEpoch : m'.genEpoch = m.genEpoch)
    (epochs : m'.db.epochs = m.db.epochs) : m'.Shut := by
  have same : m'.closed = m.closed := by
    rw [closed, closed, Db.findEpoch, Db.findEpoch, epochs, genEpoch]
  exact ⟨genEpoch ▸ shut.1, same.trans shut.2⟩

/-- A receipt that was put is there; one that was there already is as it was. -/
structure Put (db db' : Db) (sid : String) : Prop where
  starts : db'.starts = db.starts
  sessions : db'.sessions = db.sessions
  epochs : db'.epochs = db.epochs
  known : (db.sessions.find? sid).isSome
  here : (db'.terminal.find? sid).isSome
  other : ∀ x, x ≠ sid → db'.terminal.find? x = db.terminal.find? x
  again : (db.terminal.find? sid).isSome → db' = db

theorem put_putTerminal {db db' : Db} {result : TerminalResult} {clock : Reading}
    (done : db.putTerminal sid result clock = .ok db') : Put db db' sid := by
  have known : (db.sessions.find? sid).isSome := by
    have put := done
    simp only [Db.putTerminal, bind_ok, demand_ok] at put
    obtain ⟨start, joined, -⟩ := put
    rw [Db.joined] at joined
    cases session : db.sessions.find? sid with
    | none => rw [session] at joined; cases joined
    | some row => rfl
  rcases putTerminal_cases done with ⟨row, endedAt, found, -, -, rfl⟩ |
    ⟨start, endedAt, publishedAt, seq, -, fresh, -, -, publishes⟩
  · exact ⟨rfl, rfl, rfl, known, by rw [found]; rfl, fun _ _ => rfl, fun _ => rfl⟩
  · refine ⟨publishes.starts, publishes.sessions, publishes.epochs, known, ?_, fun x other => ?_,
      fun there => ?_⟩
    · rw [Table.find?_insert publishes.terminal, if_pos (show Keyed.key _ = sid from rfl)]
      rfl
    · rw [Table.find?_insert publishes.terminal,
        if_neg fun same : Keyed.key _ = x => other same.symm]
    · rw [fresh] at there
      cases there

/-- The row of a session is there once it is created, for a start that is there. -/
structure Created (db db' : Db) (sid : String) : Prop where
  starts : db'.starts = db.starts
  terminal : db'.terminal = db.terminal
  epochs : db'.epochs = db.epochs
  begun : (db.findStart sid).isSome
  here : (db'.sessions.find? sid).isSome
  other : ∀ x, x ≠ sid → db'.sessions.find? x = db.sessions.find? x

theorem created_createSession {db db' : Db} {spec : SessionSpec}
    (done : db.createSession sid spec = .ok db') : Created db db' sid := by
  simp only [Db.createSession, bind_ok, require_ok, demand_ok, timestamp_ok, pure, Except.pure,
    Except.ok.injEq, exists_const] at done
  obtain ⟨start, found, -, -, ⟨⟩, -, created, -, sessions, inserted, rfl⟩ := done
  refine ⟨rfl, rfl, rfl, by rw [found]; rfl, ?_, fun x other => ?_⟩
  · rw [Table.find?_insert inserted, if_pos (show Keyed.key _ = sid from rfl)]
    rfl
  · rw [Table.find?_insert inserted, if_neg fun same : Keyed.key _ = x => other same.symm]

/-- What is done for the end of a session: nothing to the store, or a receipt of it is put. -/
structure Puts (m m' : Manager) (sid : String) : Prop where
  genEpoch : m'.genEpoch = m.genEpoch
  terminalObligations : m'.terminalObligations = m.terminalObligations
  db : m'.db = m.db ∨ Put m.db m'.db sid

theorem puts_putReceipt {result : TerminalResult} {clock : Reading} {failure : Option StoreFailure}
    (done : m.putReceipt sid result clock (faultOf failure) = .ok m') : Puts m m' sid := by
  obtain ⟨-, ⟨db, put, rfl⟩ | ⟨-, rfl⟩⟩ := putReceipt_ok done
  · exact ⟨rfl, rfl, .inr (put_putTerminal put)⟩
  · exact ⟨rfl, rfl, .inl rfl⟩

theorem puts_republish {ending : SessionEnd} {endedAt clock : Reading} {unread : Option Raised}
    {failure : Option StoreFailure}
    (done : m.republish sid ending endedAt clock unread (faultOf failure) = .ok m') :
    Puts m m' sid := by
  rw [republish] at done
  split at done
  · cases done
    exact ⟨rfl, rfl, .inl rfl⟩
  · split at done
    · exact puts_putReceipt done
    · cases done

theorem puts_freeSlot (m : Manager) (sid : String) (ending : SessionEnd) (endedAt clock : Reading)
    (unread : Option Raised) (failure : Option StoreFailure) :
    Puts m (m.freeSlot sid ending endedAt clock unread (faultOf failure)).2 sid := by
  have dropped : Alike m (if (m.activeLeaseTokens sid).isSome then m.dropTokens sid else m) := by
    split <;> exact ⟨rfl, rfl, rfl⟩
  rw [freeSlot]
  generalize (if (m.activeLeaseTokens sid).isSome then m.dropTokens sid else m) = m₁ at dropped
  have same : Puts m m₁ sid :=
    ⟨dropped.genEpoch, dropped.terminalObligations, .inl dropped.db⟩
  split
  · cases put : m₁.republish sid ending endedAt clock unread (faultOf failure) with
    | ok m₂ =>
      have puts := puts_republish put
      refine ⟨puts.genEpoch.trans dropped.genEpoch,
        puts.terminalObligations.trans dropped.terminalObligations, ?_⟩
      rw [← dropped.db]
      exact puts.db
    | error raised => exact same
  · exact same

/-! ### Quiescence -/

/-- What a new retirement state of the epoch leaves: it is there, and takes no sessions. -/
theorem shut_setEpochRetirement {db : Db} {state : RetirementState} {certificate : CertificateArg}
    {high : Option ℤ}
    (done : m.db.setEpochRetirement m.genEpoch state certificate high = .ok db)
    (closes : state ≠ .opened) :
    ({ m with db := db, quiescent := true } : Manager).Shut ∧ db.starts = m.db.starts ∧
      db.sessions = m.db.sessions ∧ db.terminal = m.db.terminal := by
  obtain ⟨named, n, cell, epoch, -, -, -, found, rfl⟩ := Db.setEpochRetirement_ok.mp done
  refine ⟨⟨named, ?_⟩, rfl, rfl, rfl⟩
  have moved : (Db.retired epoch state cell n).retirementState = state := by
    cases state <;> rfl
  have key : (Db.retired epoch state cell n).generationEpoch = m.genEpoch := by
    rw [← Db.generationEpoch_of_findEpoch found]
    cases state <;> rfl
  have here : (m.db.setEpochRow (Db.retired epoch state cell n)).findEpoch m.genEpoch =
      some (Db.retired epoch state cell n) :=
    key ▸ Table.find?_update_self (key.symm ▸ found)
  rw [closed, here]
  simp [moved, closes]

theorem beginQuiescence_ok {fault : Option Raised}
    (done : m.beginQuiescence fault = (.ok (), m')) :
    m'.Shut ∧ m'.genEpoch = m.genEpoch ∧ m'.terminalObligations = m.terminalObligations ∧
      m'.db.starts = m.db.starts ∧ m'.db.sessions = m.db.sessions ∧
      m'.db.terminal = m.db.terminal := by
  rw [beginQuiescence] at done
  cases fault with
  | some raised => cases done
  | none =>
    simp only [reached] at done
    split at done
    next db written =>
      cases done
      obtain ⟨shut, starts, sessions, terminal⟩ := shut_setEpochRetirement written (by decide)
      exact ⟨shut, rfl, rfl, starts, sessions, terminal⟩
    next => cases done

theorem beginQuiescence_error {fault : Option Raised} {x : Raised}
    (done : m.beginQuiescence fault = (.error x, m')) : m' = m := by
  rw [beginQuiescence] at done
  split at done
  · cases done
  · cases done
    rfl

theorem certifyEpoch_error {expected certificate : String} {unread unwritten : Option Raised}
    {x : Raised} (done : m.certifyEpoch expected certificate unread unwritten = (.error x, m')) :
    m' = m := by
  rw [certifyEpoch] at done
  repeat' split at done
  all_goals
    cases done
    try rfl

theorem certifyEpoch_ok {expected certificate : String} {unread unwritten : Option Raised}
    {finalHw : ℕ} (done : m.certifyEpoch expected certificate unread unwritten = (.ok finalHw, m')) :
    m'.Shut ∧ m'.genEpoch = m.genEpoch ∧ m'.terminalObligations = m.terminalObligations ∧
      m.terminalObligations = ∅ ∧ m.sessions = ∅ ∧
      finalHw = m.db.getGenerationPersistedHighWater m.genEpoch ∧
      m'.db.starts = m.db.starts ∧ m'.db.sessions = m.db.sessions ∧
      m'.db.terminal = m.db.terminal := by
  rw [certifyEpoch] at done
  split at done
  · cases done
  split at done
  · cases done
  next discharged =>
    split at done
    · cases done
    next empty =>
      split at done
      · cases done
      split at done
      · cases done
      cases unread with
      | some raised => cases done
      | none =>
        cases unwritten with
        | some raised => cases done
        | none =>
          simp only [reached] at done
          split at done
          · cases done
          next db written =>
            cases done
            obtain ⟨shut, starts, sessions, terminal⟩ := shut_setEpochRetirement written (by decide)
            exact ⟨shut, rfl, rfl, not_not.mp discharged, not_not.mp empty, rfl, starts, sessions,
              terminal⟩

/-- The high water is read off the receipts and the starts. -/
theorem highWater_congr {db db' : Db} (starts : db'.starts = db.starts)
    (terminal : db'.terminal = db.terminal) (e : String) :
    db'.getGenerationPersistedHighWater e = db.getGenerationPersistedHighWater e := by
  have found : db'.findStart = db.findStart := by
    funext sid
    rw [Db.findStart, Db.findStart, starts]
  rw [Db.getGenerationPersistedHighWater, Db.getGenerationPersistedHighWater, terminal, found]

end Manager

namespace Managed

/-- Each id is started once, and the reaper leaves alone the sessions that are being started. -/
def Orderly (w : Managed) : ManagedStep → Prop
  | .spawn c _ => ∀ run ∈ w.spawns[c]?, run.stage = .installing →
    run.sessionId ∉ w.admitted ∧ w.manager.db.sessions.find? run.sessionId = none ∧
      w.manager.db.terminal.find? run.sessionId = none
  | .reap sessionId => sessionId ∈ w.launched
  | _ => True

instance (w : Managed) : (step : ManagedStep) → Decidable (w.Orderly step)
  | .spawn c _ => inferInstanceAs (Decidable (∀ run ∈ w.spawns[c]?, run.stage = .installing →
      run.sessionId ∉ w.admitted ∧ w.manager.db.sessions.find? run.sessionId = none ∧
        w.manager.db.terminal.find? run.sessionId = none))
  | .reap sessionId => inferInstanceAs (Decidable (sessionId ∈ w.launched))
  | .start _ | .restart _ _ | .sendTurn _ | .resume _ _ | .monitorEnds _ | .ending _ _ | .idle _
  | .confirm _ | .beginQuiescence _ | .quiescenceStatus _ | .certifyEpoch _ _ _ _ => isTrue trivial

/-- What holds of a session that is on the table and not launched yet. -/
structure Held (w : Managed) (run : Spawn) : Prop where
  admitted : run.sessionId ∈ w.admitted
  obliged : run.sessionId ∈ w.manager.terminalObligations
  unlaunched : run.sessionId ∉ w.launched
  unended : w.manager.db.terminal.find? run.sessionId = none
  taken : run.stage = .withdrawing → w.manager.db.sessions.find? run.sessionId = none

/-- A session that has its row has its receipt or its obligation, and what follows from it for the
calls and the terminal paths under way, and for a certified epoch. -/
structure Sound (w : Managed) : Prop where
  shut : w.quiesced = true → w.manager.Shut
  held : ∀ (c : ℕ) run, w.spawns[c]? = some run → run.installed = true → w.Held run
  single : ∀ (c d : ℕ) run other, w.spawns[c]? = some run → w.spawns[d]? = some other →
    run.installed = true → other.installed = true → run.sessionId = other.sessionId → c = d
  launched : w.launched ⊆ w.admitted
  begun : ∀ sid ∈ w.admitted, (w.manager.db.sessions.find? sid).isSome →
    (w.manager.db.findStart sid).isSome
  paths : ∀ path ∈ w.endings, path.sessionId ∈ w.launched ∧
    ∀ kind, path.stage = .discharging kind → w.manager.Receipted path.sessionId
  covered : ∀ sid ∈ w.admitted, sid ∉ w.manager.terminalObligations → w.manager.Receipted sid
  final : ∀ h ∈ w.certified, w.manager.Shut ∧ w.manager.terminalObligations = ∅ ∧
    w.manager.db.getGenerationPersistedHighWater w.manager.genEpoch = h

variable {w w' : Managed} {c : ℕ} {run run' : Spawn} {m : Manager}

/-- The rows of the sessions, their receipts and their starts stay, and no epoch opens again. -/
theorem Sound.rows (sound : Sound w) (shut : w.manager.Shut → m.Shut)
    (genEpoch : m.genEpoch = w.manager.genEpoch)
    (obligations : m.terminalObligations = w.manager.terminalObligations)
    (starts : m.db.starts = w.manager.db.starts) (sessions : m.db.sessions = w.manager.db.sessions)
    (terminal : m.db.terminal = w.manager.db.terminal) : Sound (w.setManager m) := by
  have receipted : ∀ {sid}, w.manager.Receipted sid → m.Receipted sid := by
    intro sid receipted
    rw [Manager.Receipted, sessions, terminal]
    exact receipted
  refine ⟨fun quiesced => shut (sound.shut quiesced), fun d other there isInstalled => ?_,
    sound.single, sound.launched, fun sid admitted => ?_, fun path member => ?_,
    fun sid admitted discharged => ?_, fun h is => ?_⟩
  · have held := sound.held d other there isInstalled
    refine ⟨held.admitted, obligations.symm ▸ held.obliged, held.unlaunched, ?_, fun withdrawing => ?_⟩
    · exact (congrArg (fun t => t.find? other.sessionId) terminal).trans held.unended
    · exact (congrArg (fun t => t.find? other.sessionId) sessions).trans (held.taken withdrawing)
  · show (m.db.sessions.find? sid).isSome → (m.db.findStart sid).isSome
    rw [Db.findStart, starts, sessions]
    exact sound.begun sid admitted
  · obtain ⟨there, discharging⟩ := sound.paths path member
    exact ⟨there, fun kind stage => receipted (discharging kind stage)⟩
  · exact receipted (sound.covered sid admitted (obligations ▸ discharged))
  · obtain ⟨closed, discharged, high⟩ := sound.final h is
    refine ⟨shut closed, obligations.trans discharged, ?_⟩
    show m.db.getGenerationPersistedHighWater m.genEpoch = h
    rw [Manager.highWater_congr starts terminal, genEpoch]
    exact high

/-- A section that touches neither the store nor the obligations. -/
theorem Sound.alike (sound : Sound w) (alike : Manager.Alike w.manager m) :
    Sound (w.setManager m) := by
  obtain ⟨genEpoch, db, obligations⟩ := alike
  exact sound.rows (fun shut => shut.of_epochs genEpoch (congrArg Db.epochs db)) genEpoch obligations
    (congrArg Db.starts db) (congrArg Db.sessions db) (congrArg Db.terminal db)

/-- A call that goes on puts no other session on the table. -/
theorem Sound.moves (sound : Sound w) (found : w.spawns[c]? = some run)
    (named : run'.sessionId = run.sessionId)
    (held : run'.installed = true → run.installed = true)
    (taken : run'.stage = .withdrawing → w.manager.db.sessions.find? run.sessionId = none) :
    Sound (w.setSpawn c run') := by
  have before : ∀ (d : ℕ) other, (w.setSpawn c run').spawns[d]? = some other →
      other.installed = true →
      ∃ old, w.spawns[d]? = some old ∧ old.installed = true ∧
        old.sessionId = other.sessionId := by
    intro d other there installed
    rw [setSpawn, List.getElem?_set] at there
    split at there
    next same =>
      split at there
      · cases there
        exact ⟨run, same ▸ found, held installed, named.symm⟩
      · cases there
    next => exact ⟨other, there, installed, rfl⟩
  refine ⟨sound.shut, fun d other there installed => ?_, fun c' d' run₁ run₂ at₁ at₂ is₁ is₂ same => ?_,
    sound.launched, sound.begun, sound.paths, sound.covered, sound.final⟩
  · obtain ⟨old, at_d, wasInstalled, sameId⟩ := before d other there installed
    have wasHeld := sound.held d old at_d wasInstalled
    rw [setSpawn, List.getElem?_set] at there
    have taken' : other.stage = .withdrawing →
        w.manager.db.sessions.find? other.sessionId = none := by
      intro stage
      split at there
      · split at there
        · cases there
          rw [named]
          exact taken stage
        · cases there
      · obtain rfl := Option.some.inj (at_d.symm.trans there)
        exact wasHeld.taken stage
    exact ⟨sameId ▸ wasHeld.admitted, sameId ▸ wasHeld.obliged, sameId ▸ wasHeld.unlaunched,
      sameId ▸ wasHeld.unended, taken'⟩
  · obtain ⟨old₁, there₁, in₁, id₁⟩ := before c' run₁ at₁ is₁
    obtain ⟨old₂, there₂, in₂, id₂⟩ := before d' run₂ at₂ is₂
    exact sound.single c' d' old₁ old₂ there₁ there₂ in₁ in₂ (id₁.trans (same.trans id₂.symm))

/-- A terminal path that goes on. -/
theorem Sound.pathMoves {path path' : TerminalPath} (sound : Sound w)
    (found : w.endings[c]? = some path) (named : path'.sessionId = path.sessionId)
    (discharging : ∀ kind, path'.stage = .discharging kind →
      w.manager.Receipted path.sessionId) : Sound (w.setEnding c path') := by
  refine ⟨sound.shut, fun d run at_d installed => ?_, sound.single, sound.launched, sound.begun,
    fun other member => ?_, sound.covered, sound.final⟩
  · have held := sound.held d run at_d installed
    exact ⟨held.admitted, held.obliged, held.unlaunched, held.unended, held.taken⟩
  · rcases List.mem_or_eq_of_mem_set member with old | rfl
    · exact sound.paths other old
    · rw [named]
      exact ⟨(sound.paths path (List.mem_of_getElem? found)).1, discharging⟩

/-- A session that is being started is the only one under its id, and it is not launched. -/
theorem Sound.apart (sound : Sound w) {d : ℕ} {other : Spawn} (found : w.spawns[c]? = some run)
    (installed : run.installed = true) (there : w.spawns[d]? = some other)
    (isInstalled : other.installed = true) (apart : c ≠ d) :
    other.sessionId ≠ run.sessionId :=
  fun same => apart (sound.single c d run other found there installed isInstalled same.symm)

/-- While a session is being started, no epoch is certified. -/
theorem Sound.unfinished (sound : Sound w) (found : w.spawns[c]? = some run)
    (installed : run.installed = true) (h : ℕ) : ¬ h ∈ w.certified := by
  intro is
  have obliged := (sound.held c run found installed).obliged
  rw [(sound.final h is).2.1] at obliged
  exact Finset.notMem_empty _ obliged

/-- A session is put on the table. -/
theorem Sound.admits (sound : Sound w) (found : w.spawns[c]? = some run)
    (fresh : run.sessionId ∉ w.admitted)
    (unknown : w.manager.db.sessions.find? run.sessionId = none)
    (unended : w.manager.db.terminal.find? run.sessionId = none)
    (opens : ¬ w.manager.Shut) (db : m.db = w.manager.db)
    (obligations : m.terminalObligations = insert run.sessionId w.manager.terminalObligations)
    (named : run'.sessionId = run.sessionId) (creating : run'.stage = .creating) :
    Sound ({ w.setManager m with admitted := insert run.sessionId w.admitted }.setSpawn c run') := by
  have others : ∀ (d : ℕ) other, (w.spawns.set c run')[d]? = some other →
      (d = c ∧ other = run') ∨ (d ≠ c ∧ w.spawns[d]? = some other) := by
    intro d other there
    rw [List.getElem?_set] at there
    split at there
    next same =>
      split at there
      · cases there
        exact .inl ⟨same.symm, rfl⟩
      · cases there
    next apart => exact .inr ⟨fun same => apart same.symm, there⟩
  have unlaunched : run.sessionId ∉ w.launched := fun launched => fresh (sound.launched launched)
  refine ⟨fun quiesced => absurd (sound.shut quiesced) opens, fun d other there installed => ?_,
    fun c' d' run₁ run₂ at₁ at₂ is₁ is₂ same => ?_,
    sound.launched.trans (Finset.subset_insert _ _), fun sid admitted => ?_, fun path member => ?_,
    fun sid admitted discharged => ?_, fun h is => absurd (sound.final h is).1 opens⟩
  · rcases others d other there with ⟨-, rfl⟩ | ⟨apart, old⟩
    · refine ⟨?_, ?_, ?_, ?_, fun stage => ?_⟩
      · rw [named]
        exact Finset.mem_insert_self _ _
      · change other.sessionId ∈ m.terminalObligations
        rw [obligations, named]
        exact Finset.mem_insert_self _ _
      · rw [named]
        exact unlaunched
      · change m.db.terminal.find? other.sessionId = none
        rw [db, named]
        exact unended
      · rw [creating] at stage
        cases stage
    · have held := sound.held d other old installed
      refine ⟨Finset.mem_insert_of_mem held.admitted, ?_, held.unlaunched, ?_, fun stage => ?_⟩
      · change other.sessionId ∈ m.terminalObligations
        rw [obligations]
        exact Finset.mem_insert_of_mem held.obliged
      · change m.db.terminal.find? other.sessionId = none
        rw [db]
        exact held.unended
      · change m.db.sessions.find? other.sessionId = none
        rw [db]
        exact held.taken stage
  · -- the ids that are being started were admitted before
    rcases others c' run₁ at₁ with ⟨rfl, rfl⟩ | ⟨apart₁, old₁⟩
    · rcases others d' run₂ at₂ with ⟨rfl, -⟩ | ⟨apart₂, old₂⟩
      · rfl
      · have admitted := (sound.held d' run₂ old₂ is₂).admitted
        rw [← same, named] at admitted
        exact absurd admitted fresh
    · rcases others d' run₂ at₂ with ⟨rfl, rfl⟩ | ⟨apart₂, old₂⟩
      · have admitted := (sound.held c' run₁ old₁ is₁).admitted
        rw [same, named] at admitted
        exact absurd admitted fresh
      · exact sound.single c' d' run₁ run₂ old₁ old₂ is₁ is₂ same
  · change (m.db.sessions.find? sid).isSome → (m.db.findStart sid).isSome
    rw [db]
    rcases Finset.mem_insert.mp admitted with rfl | old
    · rw [unknown]
      intro there
      cases there
    · exact sound.begun sid old
  · refine ⟨(sound.paths path member).1, fun kind stage => ?_⟩
    change m.Receipted path.sessionId
    rw [Manager.Receipted, db]
    exact (sound.paths path member).2 kind stage
  · change sid ∉ m.terminalObligations at discharged
    rw [obligations] at discharged
    change m.Receipted sid
    rw [Manager.Receipted, db]
    rcases Finset.mem_insert.mp admitted with rfl | old
    · exact absurd (Finset.mem_insert_self _ _) discharged
    · exact sound.covered sid old fun obliged => discharged (Finset.mem_insert_of_mem obliged)

/-- The row of a session is created. -/
theorem Sound.creates (sound : Sound w) (found : w.spawns[c]? = some run)
    (stage : run.stage = .creating) {db : Db}
    (created : Manager.Created w.manager.db db run.sessionId) :
    Sound (w.setManager { w.manager with db := db }) := by
  have installed : run.installed = true := by rw [Spawn.installed, stage]
  have held := sound.held c run found installed
  have receipted : ∀ sid, sid ≠ run.sessionId → w.manager.Receipted sid →
      Manager.Receipted { w.manager with db := db } sid := by
    intro sid other receipted
    rw [Manager.Receipted, created.other sid other, created.terminal]
    exact receipted
  refine ⟨fun quiesced => (sound.shut quiesced).of_epochs rfl created.epochs,
    fun d other there isInstalled => ?_, sound.single, sound.launched, fun sid admitted => ?_,
    fun path member => ?_, fun sid admitted discharged => ?_,
    fun h is => absurd is (sound.unfinished found installed h)⟩
  · have old := sound.held d other there isInstalled
    refine ⟨old.admitted, old.obliged, old.unlaunched, ?_, fun withdrawing => ?_⟩
    · exact (congrArg (fun t => t.find? other.sessionId) created.terminal).trans old.unended
    · by_cases same : c = d
      · subst same
        obtain rfl := Option.some.inj (found.symm.trans there)
        rw [stage] at withdrawing
        cases withdrawing
      · have apart := sound.apart found installed there isInstalled same
        exact (created.other _ apart).trans (old.taken withdrawing)
  · have begun : (db.findStart sid).isSome = (w.manager.db.findStart sid).isSome := by
      rw [Db.findStart, Db.findStart, created.starts]
    show (db.sessions.find? sid).isSome → (db.findStart sid).isSome
    rw [begun]
    by_cases same : sid = run.sessionId
    · subst same
      exact fun _ => created.begun
    · rw [created.other sid same]
      exact sound.begun sid admitted
  · obtain ⟨launched, discharging⟩ := sound.paths path member
    refine ⟨launched, fun kind stage => receipted _ ?_ (discharging kind stage)⟩
    exact fun same => held.unlaunched (same ▸ launched)
  · refine receipted sid ?_ (sound.covered sid admitted discharged)
    rintro rfl
    exact discharged held.obliged

/-- Where a call is done with its session, the others are as they were. -/
theorem installed_of_outside {d : ℕ} {other : Spawn} (outside : run'.installed = false)
    (there : (w.setSpawn c run').spawns[d]? = some other) (isInstalled : other.installed = true) :
    d ≠ c ∧ w.spawns[d]? = some other := by
  rw [setSpawn, List.getElem?_set] at there
  split at there
  · split at there
    · cases there
      rw [outside] at isInstalled
      cases isInstalled
    · cases there
  next apart => exact ⟨fun same => apart same.symm, there⟩

/-- The agent of a session is spawned, and its call is done with it. -/
theorem Sound.launches (sound : Sound w) (found : w.spawns[c]? = some run)
    (installed : run.installed = true) (outside : run'.installed = false) :
    Sound ({ w with launched := insert run.sessionId w.launched }.setSpawn c run') := by
  refine ⟨sound.shut, fun d other there isInstalled => ?_, fun c' d' run₁ run₂ at₁ at₂ is₁ is₂ => ?_,
    ?_, sound.begun, fun path member => ?_, sound.covered, sound.final⟩
  · obtain ⟨apart, old⟩ := installed_of_outside outside there isInstalled
    have held := sound.held d other old isInstalled
    refine ⟨held.admitted, held.obliged, fun launched => ?_, held.unended, held.taken⟩
    rcases Finset.mem_insert.mp launched with same | earlier
    · exact sound.apart found installed old isInstalled (Ne.symm apart) same
    · exact held.unlaunched earlier
  · exact sound.single c' d' run₁ run₂ (installed_of_outside outside at₁ is₁).2
      (installed_of_outside outside at₂ is₂).2 is₁ is₂
  · exact Finset.insert_subset (sound.held c run found installed).admitted sound.launched
  · obtain ⟨launched, discharging⟩ := sound.paths path member
    exact ⟨Finset.mem_insert_of_mem launched, discharging⟩

/-- The rows of a session that did not start are taken back. -/
theorem Sound.collects (sound : Sound w) (found : w.spawns[c]? = some run)
    (installed : run.installed = true) :
    Sound (w.setManager (w.manager.deleteRows run.sessionId)) := by
  have held := sound.held c run found installed
  have sessions : ∀ sid, (w.manager.deleteRows run.sessionId).db.sessions.find? sid =
      if sid = run.sessionId then none else w.manager.db.sessions.find? sid :=
    fun sid => Table.find?_erase _ _ _
  have terminal : ∀ sid, (w.manager.deleteRows run.sessionId).db.terminal.find? sid =
      if sid = run.sessionId then none else w.manager.db.terminal.find? sid :=
    fun sid => Table.find?_erase _ _ _
  have receipted : ∀ sid, w.manager.Receipted sid →
      (w.manager.deleteRows run.sessionId).Receipted sid := by
    intro sid receipted
    rw [Manager.Receipted, sessions, terminal]
    by_cases same : sid = run.sessionId
    · simp [same]
    · rw [if_neg same, if_neg same]
      exact receipted
  refine ⟨fun quiesced => (sound.shut quiesced).of_epochs rfl rfl,
    fun d other there isInstalled => ?_, sound.single, sound.launched, fun sid admitted => ?_,
    fun path member => ?_, fun sid admitted discharged => receipted sid ?_,
    fun h is => absurd is (sound.unfinished found installed h)⟩
  · have old := sound.held d other there isInstalled
    refine ⟨old.admitted, old.obliged, old.unlaunched, ?_, fun withdrawing => ?_⟩
    · exact (terminal _).trans (ite_eq_left_iff.mpr fun _ => old.unended)
    · exact (sessions _).trans (ite_eq_left_iff.mpr fun _ => old.taken withdrawing)
  · show ((w.manager.deleteRows run.sessionId).db.sessions.find? sid).isSome → _
    rw [sessions]
    by_cases same : sid = run.sessionId
    · simp [same]
    · rw [if_neg same]
      exact sound.begun sid admitted
  · obtain ⟨launched, discharging⟩ := sound.paths path member
    exact ⟨launched, fun kind stage => receipted _ (discharging kind stage)⟩
  · exact sound.covered sid admitted discharged

/-- A session that did not start is taken off the table. -/
theorem Sound.withdraws (sound : Sound w) (found : w.spawns[c]? = some run)
    (stage : run.stage = .withdrawing) (outside : run'.installed = false) :
    Sound ((w.setManager (w.manager.withdraw run.sessionId)).setSpawn c run') := by
  have installed : run.installed = true := by rw [Spawn.installed, stage]
  have mine := sound.held c run found installed
  refine ⟨fun quiesced => (sound.shut quiesced).of_epochs rfl rfl,
    fun d other there isInstalled => ?_, fun c' d' run₁ run₂ at₁ at₂ is₁ is₂ => ?_,
    sound.launched, sound.begun, sound.paths, fun sid admitted discharged => ?_,
    fun h is => absurd is (sound.unfinished found installed h)⟩
  · obtain ⟨apart, old⟩ := installed_of_outside outside there isInstalled
    have held := sound.held d other old isInstalled
    refine ⟨held.admitted, ?_, held.unlaunched, held.unended, held.taken⟩
    exact Finset.mem_erase.mpr
      ⟨sound.apart found installed old isInstalled (Ne.symm apart), held.obliged⟩
  · exact sound.single c' d' run₁ run₂ (installed_of_outside outside at₁ is₁).2
      (installed_of_outside outside at₂ is₂).2 is₁ is₂
  · by_cases same : sid = run.sessionId
    · subst same
      show (w.manager.db.sessions.find? run.sessionId).isSome → _
      rw [mine.taken stage]
      intro none
      cases none
    · refine sound.covered sid admitted fun obliged => discharged ?_
      exact Finset.mem_erase.mpr ⟨same, obliged⟩

/-! ### The sections of a terminal path -/

/-- A receipt that is put for a launched session. Where the epoch is certified, it was there. -/
theorem Sound.puts (sound : Sound w) {sid : String} (launched : sid ∈ w.launched)
    (puts : Manager.Puts w.manager m sid) :
    Sound (w.setManager m) ∧ ∀ h, w.certified = some h → m.db.terminal = w.manager.db.terminal := by
  rcases puts.db with same | put
  · exact ⟨sound.alike ⟨puts.genEpoch, same, puts.terminalObligations⟩, fun _ _ => by rw [same]⟩
  -- no obligation is left, so the session has its receipt, and the put is a repetition
  have settled : ∀ h, w.certified = some h → m.db = w.manager.db := by
    intro h is
    have receipted := sound.covered sid (sound.launched launched)
      (by rw [(sound.final h is).2.1]; exact Finset.notMem_empty sid)
    exact put.again (receipted put.known)
  refine ⟨?_, fun h is => by rw [settled h is]⟩
  have receipted : ∀ x, w.manager.Receipted x → m.Receipted x := by
    intro x receipted
    rw [Manager.Receipted, put.sessions]
    by_cases same : x = sid
    · subst same
      exact fun _ => put.here
    · rw [put.other x same]
      exact receipted
  refine ⟨fun quiesced => (sound.shut quiesced).of_epochs puts.genEpoch put.epochs,
    fun d other there isInstalled => ?_, sound.single, sound.launched, fun x admitted => ?_,
    fun path member => ?_, fun x admitted discharged => receipted x ?_, fun h is => ?_⟩
  · have held := sound.held d other there isInstalled
    have apart : other.sessionId ≠ sid := fun same => held.unlaunched (same ▸ launched)
    refine ⟨held.admitted, ?_, held.unlaunched, (put.other _ apart).trans held.unended,
      fun withdrawing => ?_⟩
    · exact puts.terminalObligations.symm ▸ held.obliged
    · exact (congrArg (fun t => t.find? other.sessionId) put.sessions).trans (held.taken withdrawing)
  · have begun : (m.db.findStart x).isSome = (w.manager.db.findStart x).isSome := by
      rw [Db.findStart, Db.findStart, put.starts]
    show (m.db.sessions.find? x).isSome → (m.db.findStart x).isSome
    rw [begun, put.sessions]
    exact sound.begun x admitted
  · obtain ⟨there, discharging⟩ := sound.paths path member
    exact ⟨there, fun kind stage => receipted _ (discharging kind stage)⟩
  · exact sound.covered x admitted (puts.terminalObligations ▸ discharged)
  · obtain ⟨closed, discharged, high⟩ := sound.final h is
    refine ⟨closed.of_epochs puts.genEpoch put.epochs,
      puts.terminalObligations.trans discharged, ?_⟩
    show m.db.getGenerationPersistedHighWater m.genEpoch = h
    rw [settled h is, puts.genEpoch]
    exact high

/-- The receipt of a session is put where it can be, so that it has one if it has its row. -/
theorem Sound.receipted_of_put (sound : Sound w) {sid : String} (launched : sid ∈ w.launched)
    {result : TerminalResult} {clock : Reading} {failure : Option StoreFailure}
    (done : w.manager.putReceipt sid result clock (faultOf failure) = .ok m) : m.Receipted sid := by
  obtain ⟨-, ⟨db, put, rfl⟩ | ⟨unknown, rfl⟩⟩ := Manager.putReceipt_ok done
  · exact fun _ => (Manager.put_putTerminal put).here
  · intro there
    have begun := sound.begun sid (sound.launched launched) there
    obtain ⟨row, found⟩ := Option.isSome_iff_exists.mp there
    rw [Db.joined, found] at unknown
    simp only [unknown, Option.isSome_none, Bool.false_eq_true] at begun

/-- The obligation of a session is discharged that has its receipt. -/
theorem Sound.discharges (sound : Sound w) {sid : String} (launched : sid ∈ w.launched)
    (receipted : w.manager.Receipted sid) (kind : String) (fault : Option Raised) :
    Sound (w.setManager (w.manager.discharge sid kind fault)) := by
  refine ⟨fun quiesced => (sound.shut quiesced).of_epochs rfl rfl,
    fun d other there isInstalled => ?_, sound.single, sound.launched, sound.begun, sound.paths,
    fun x admitted discharged => ?_, fun h is => ?_⟩
  · have held := sound.held d other there isInstalled
    have apart : other.sessionId ≠ sid := fun same => held.unlaunched (same ▸ launched)
    exact ⟨held.admitted, Finset.mem_erase.mpr ⟨apart, held.obliged⟩, held.unlaunched,
      held.unended, held.taken⟩
  · by_cases same : x = sid
    · subst same
      exact receipted
    · exact sound.covered x admitted fun obliged => discharged (Finset.mem_erase.mpr ⟨same, obliged⟩)
  · obtain ⟨closed, discharged, high⟩ := sound.final h is
    refine ⟨closed.of_epochs rfl rfl, ?_, high⟩
    show w.manager.terminalObligations.erase sid = ∅
    rw [discharged, Finset.erase_empty]

/-! ### Steps -/

/-- What a step leaves: what is known still holds, a daemon that takes no more takes no more, and
the receipts of a certified epoch stay what they are. -/
structure Onward (w w' : Managed) : Prop where
  sound : Sound w'
  genEpoch : w'.manager.genEpoch = w.manager.genEpoch
  admitted : w.quiesced = true → w'.quiesced = true ∧ w'.admitted = w.admitted
  terminal : ∀ h, w.certified = some h →
    w'.certified = some h ∧ w'.manager.db.terminal = w.manager.db.terminal

theorem Onward.of_same (sound : Sound w') (genEpoch : w'.manager.genEpoch = w.manager.genEpoch)
    (quiesced : w'.quiesced = w.quiesced)
    (admitted : w'.admitted = w.admitted) (certified : w'.certified = w.certified)
    (terminal : w'.manager.db.terminal = w.manager.db.terminal) : Onward w w' :=
  ⟨sound, genEpoch, fun is => ⟨quiesced.trans is, admitted⟩,
    fun _ is => ⟨certified.trans is, terminal⟩⟩

/-- Only the manager's other fields change, and the calls of `send_turn`. -/
structure Still (w w' : Managed) : Prop where
  alike : Manager.Alike w.manager w'.manager
  spawns : w'.spawns = w.spawns
  endings : w'.endings = w.endings
  admitted : w'.admitted = w.admitted
  launched : w'.launched = w.launched
  quiesced : w'.quiesced = w.quiesced
  certified : w'.certified = w.certified

/-- What is known of a daemon does not look at the calls of `send_turn`, nor at what has ended. -/
theorem Sound.of_fields (sound : Sound w) (manager : w'.manager = w.manager)
    (spawns : w'.spawns = w.spawns) (endings : w'.endings = w.endings)
    (admitted : w'.admitted = w.admitted) (launched : w'.launched = w.launched)
    (quiesced : w'.quiesced = w.quiesced) (certified : w'.certified = w.certified) : Sound w' := by
  obtain ⟨manager', spawns', resumes', endings', admitted', launched', ended', quiesced',
    certified', conflicts'⟩ := w'
  simp only at manager spawns endings admitted launched quiesced certified
  subst manager spawns endings admitted launched quiesced certified
  refine ⟨sound.shut, fun d run found installed => ?_, sound.single, sound.launched, sound.begun,
    sound.paths, sound.covered, sound.final⟩
  have held := sound.held d run found installed
  exact ⟨held.admitted, held.obliged, held.unlaunched, held.unended, held.taken⟩

theorem Still.onward (still : Still w w') (sound : Sound w) : Onward w w' := by
  refine .of_same ?_ still.alike.genEpoch still.quiesced still.admitted still.certified
    (congrArg Db.terminal still.alike.db)
  exact (sound.alike still.alike).of_fields rfl still.spawns still.endings still.admitted
    still.launched still.quiesced still.certified

theorem still_advanceResume (w : Managed) (c : ℕ) (call : Resume) (input : ResumeInput) :
    Still w (w.advanceResume c call input) := by
  have plain : ∀ {m : Manager} {call' : Resume}, Manager.Alike w.manager m →
      Still w ((w.setManager m).setResume c call') :=
    fun alike => ⟨alike, rfl, rfl, rfl, rfl, rfl, rfl⟩
  have same : ∀ {call' : Resume}, Still w (w.setResume c call') := plain (.refl _)
  rw [advanceResume]
  split
  · exact plain ⟨rfl, rfl, rfl⟩
  · split
    · exact same
    · exact plain ⟨rfl, rfl, rfl⟩
  · split
    · exact same
    · dsimp only [Manager.checkQuiescent]
      split <;> exact plain ⟨rfl, rfl, rfl⟩
  · exact same
  · split <;> exact same
  · dsimp only
    split <;> exact plain ⟨rfl, rfl, rfl⟩
  · dsimp only
    split <;> exact plain ⟨rfl, rfl, rfl⟩
  · exact plain ⟨rfl, rfl, rfl⟩
  · exact ⟨.refl _, rfl, rfl, rfl, rfl, rfl, rfl⟩

/-- A section of `start` or `restart` that only looks, or keeps the books. -/
theorem Sound.looks (sound : Sound w) (found : w.spawns[c]? = some run)
    (alike : Manager.Alike w.manager m) (named : run'.sessionId = run.sessionId)
    (held : run'.installed = true → run.installed = true)
    (taken : run'.stage = .withdrawing → run.stage = .withdrawing) :
    Onward w ((w.setManager m).setSpawn c run') := by
  refine .of_same ?_ alike.genEpoch rfl rfl rfl (congrArg Db.terminal alike.db)
  refine (sound.alike alike).moves found named held fun withdrawing => ?_
  have still := taken withdrawing
  have installed : run.installed = true := by rw [Spawn.installed, still]
  exact (congrArg (fun db => db.sessions.find? run.sessionId) alike.db).trans
    ((sound.held c run found installed).taken still)

theorem Sound.stays (sound : Sound w) (found : w.spawns[c]? = some run)
    (named : run'.sessionId = run.sessionId)
    (held : run'.installed = true → run.installed = true)
    (taken : run'.stage = .withdrawing → run.stage = .withdrawing) :
    Onward w (w.setSpawn c run') := sound.looks found (.refl w.manager) named held taken

variable (leased : Bool)

theorem onward_spawn (sound : Sound w) (found : w.spawns[c]? = some run) (input : SpawnInput)
    (orderly : w.Orderly (.spawn c input)) : Onward w (w.advanceSpawn leased c run input) := by
  -- where the call has no session on the table, and is not to have one
  have looks : ∀ {m : Manager} {run' : Spawn}, Manager.Alike w.manager m →
      run'.sessionId = run.sessionId → run'.installed = false →
      Onward w ((w.setManager m).setSpawn c run') := by
    intro m run' alike named outside
    refine sound.looks found alike named (fun is => ?_) fun is => ?_
    · rw [outside] at is
      cases is
    · rw [Spawn.installed, is] at outside
      cases outside
  have stays : ∀ {run' : Spawn}, run'.sessionId = run.sessionId → run'.installed = false →
      Onward w (w.setSpawn c run') := looks (.refl w.manager)
  have done' : Onward w w := .of_same sound rfl rfl rfl rfl rfl
  rw [advanceSpawn]
  split
  next =>
    dsimp only [Manager.checkQuiescent]
    split
    · exact looks ⟨rfl, rfl, rfl⟩ rfl rfl
    · split <;> exact looks ⟨rfl, rfl, rfl⟩ rfl rfl
  next =>
    split
    · exact stays rfl rfl
    · exact looks ⟨rfl, rfl, rfl⟩ rfl rfl
  next => split <;> exact stays rfl rfl
  next =>
    split
    · exact stays rfl rfl
    · have alike := Manager.alike_takeOver w.manager (run.replaces.getD "")
      cases leased <;> exact looks alike rfl rfl
  next =>
    split
    · exact stays rfl rfl
    · exact stays rfl rfl
    · split <;> exact stays rfl rfl
    · split <;> exact stays rfl rfl
  next =>
    dsimp only [Manager.checkQuiescent]
    split
    · split <;> exact looks ⟨rfl, rfl, rfl⟩ rfl rfl
    · split <;> exact looks ⟨rfl, rfl, rfl⟩ rfl rfl
  next stage =>
    have installs := Manager.installs_install w.manager run.sessionId run.reserve run.tokens
      input.room (faultOf input.unread)
    generalize w.manager.install run.sessionId run.reserve run.tokens input.room
      (faultOf input.unread) = answer at installs
    cases installs with
    | refused m' alike => exact looks alike rfl rfl
    | admitted m' opens free genEpoch db obligations =>
      obtain ⟨fresh, unknown, unended⟩ := orderly run found stage
      refine ⟨sound.admits found fresh unknown unended opens db obligations rfl rfl, genEpoch,
        fun quiesced => absurd (sound.shut quiesced) opens,
        fun h is => absurd (sound.final h is).1 opens⟩
  next => exact looks ⟨rfl, rfl, rfl⟩ rfl rfl
  next stage =>
    have installed : run.installed = true := by rw [Spawn.installed, stage]
    cases written : reached (faultOf input.unwritten)
      (w.manager.db.createSession run.sessionId input.spec) with
    | error raised => exact sound.stays found rfl (fun _ => installed) (fun is => by cases is)
    | ok db =>
      have created : Manager.Created w.manager.db db run.sessionId := by
        cases failure : input.unwritten with
        | some failure => rw [failure] at written; cases written
        | none =>
          rw [failure] at written
          exact Manager.created_createSession written
      have later : Sound ((w.setManager { w.manager with db := db }).setSpawn c
          { run with stage := .launching }) :=
        (sound.creates found stage created).moves found rfl (fun _ => installed) fun is => by cases is
      exact .of_same later rfl rfl rfl rfl created.terminal
  next stage =>
    have installed : run.installed = true := by rw [Spawn.installed, stage]
    split
    · exact .of_same (sound.launches found installed rfl) rfl rfl rfl rfl rfl
    · exact sound.stays found rfl (fun _ => installed) (fun is => by cases is)
  next stage =>
    have installed : run.installed = true := by rw [Spawn.installed, stage]
    split
    · exact stays rfl rfl
    · -- its obligation is what keeps the epoch from being certified meanwhile
      have taken : (w.manager.deleteRows run.sessionId).db.sessions.find? run.sessionId = none :=
        (Table.find?_erase _ _ _).trans (if_pos rfl)
      have later : Sound ((w.setManager (w.manager.deleteRows run.sessionId)).setSpawn c
          { run with stage := .withdrawing }) :=
        (sound.collects found installed).moves found rfl (fun _ => installed) fun _ => taken
      refine ⟨later, rfl, fun quiesced => ⟨quiesced, rfl⟩, fun h is => ?_⟩
      exact absurd is (sound.unfinished found installed h)
  next stage => exact .of_same (sound.withdraws found stage rfl) rfl rfl rfl rfl rfl
  next => exact looks ⟨rfl, rfl, rfl⟩ rfl rfl
  next => exact done'

theorem onward_ending {path : TerminalPath} (sound : Sound w) (found : w.endings[c]? = some path)
    (input : TerminalInput) : Onward w (w.advanceEnding c path input) := by
  have launched := (sound.paths path (List.mem_of_getElem? found)).1
  -- where the path only goes on
  have moves : ∀ {path' : TerminalPath}, path'.sessionId = path.sessionId →
      (∀ kind, path'.stage ≠ .discharging kind) → Onward w (w.setEnding c path') := by
    intro path' named outside
    exact .of_same (sound.pathMoves found named fun kind is => absurd is (outside kind)) rfl rfl rfl
      rfl rfl
  rw [advanceEnding]
  split
  next => split <;> exact moves rfl fun kind is => by cases is
  next =>
    dsimp only
    split
    next m put =>
      obtain ⟨later, terminal⟩ := sound.puts launched (Manager.puts_putReceipt put)
      have receipted := sound.receipted_of_put launched put
      have on : Sound ((w.setManager m).setEnding c
          { path with stage := .discharging input.terminalKind }) :=
        later.pathMoves found rfl fun _ _ => receipted
      exact ⟨on, (Manager.puts_putReceipt put).genEpoch, fun is => ⟨is, rfl⟩,
        fun h is => ⟨is, terminal h is⟩⟩
    next =>
      have on : Onward w (w.setEnding c { path with stage := .broken }) :=
        moves rfl fun kind is => by cases is
      exact .of_same (on.sound.of_fields rfl rfl rfl rfl rfl rfl rfl) rfl rfl rfl rfl rfl
  next kind stage =>
    have receipted := (sound.paths path (List.mem_of_getElem? found)).2 kind stage
    have later := sound.discharges launched receipted kind (faultOf input.unread)
    have on : Sound ((w.setManager (w.manager.discharge path.sessionId kind
        (faultOf input.unread))).setEnding c { path with stage := .freeing }) :=
      later.pathMoves found rfl fun _ is => by cases is
    exact .of_same on rfl rfl rfl rfl rfl
  next =>
    split
    · exact moves rfl fun kind is => by cases is
    · cases input.again <;> exact moves rfl fun kind is => by cases is
  next =>
    dsimp only
    split
    · have later : Sound (w.setManager (w.manager.removeOrphan path.sessionId)) :=
        sound.alike ⟨rfl, rfl, rfl⟩
      have on : Sound ((w.setManager (w.manager.removeOrphan path.sessionId)).setEnding c
          { path with stage := .done }) := later.pathMoves found rfl fun _ is => by cases is
      exact .of_same (on.of_fields rfl rfl rfl rfl rfl rfl rfl) rfl rfl rfl rfl rfl
    · have puts := Manager.puts_freeSlot w.manager path.sessionId
        ⟨some input.terminalKind, input.screenExcerpt⟩ input.endedAt input.clock
        (faultOf input.unread) input.unput
      obtain ⟨later, terminal⟩ := sound.puts launched puts
      have on : Sound ((w.setManager (w.manager.freeSlot path.sessionId
          ⟨some input.terminalKind, input.screenExcerpt⟩ input.endedAt input.clock
          (faultOf input.unread) (faultOf input.unput)).2).setEnding c
          { path with stage := .done }) := later.pathMoves found rfl fun _ is => by cases is
      exact ⟨on.of_fields rfl rfl rfl rfl rfl rfl rfl, puts.genEpoch, fun is => ⟨is, rfl⟩,
        fun h is => ⟨is, terminal h is⟩⟩
  next => exact .of_same sound rfl rfl rfl rfl rfl

/-- A call enters that has no session on the table yet. -/
theorem Sound.enters (sound : Sound w) (outside : run.installed = false) :
    Sound { w with spawns := w.spawns ++ [run] } := by
  have before : ∀ (d : ℕ) other, (w.spawns ++ [run])[d]? = some other →
      other.installed = true → w.spawns[d]? = some other := by
    intro d other there isInstalled
    rw [List.getElem?_append] at there
    split at there
    · exact there
    · rw [List.getElem?_singleton] at there
      split at there
      · cases there
        rw [outside] at isInstalled
        cases isInstalled
      · cases there
  refine ⟨sound.shut, fun d other there isInstalled => ?_,
    fun c' d' run₁ run₂ at₁ at₂ is₁ is₂ => sound.single c' d' run₁ run₂ (before c' run₁ at₁ is₁)
      (before d' run₂ at₂ is₂) is₁ is₂, sound.launched, sound.begun, sound.paths, sound.covered,
    sound.final⟩
  have held := sound.held d other (before d other there isInstalled) isInstalled
  exact ⟨held.admitted, held.obliged, held.unlaunched, held.unended, held.taken⟩

/-- The terminal path of a launched session begins. -/
theorem Sound.ends (sound : Sound w) {path : TerminalPath} (launched : path.sessionId ∈ w.launched)
    (stage : path.stage = .checking) : Sound { w with endings := w.endings ++ [path] } := by
  refine ⟨sound.shut, fun d other there isInstalled => ?_, sound.single, sound.launched, sound.begun,
    fun old member => ?_, sound.covered, sound.final⟩
  · have held := sound.held d other there isInstalled
    exact ⟨held.admitted, held.obliged, held.unlaunched, held.unended, held.taken⟩
  · rcases List.mem_append.mp member with before | new
    · exact sound.paths old before
    · obtain rfl := List.mem_singleton.mp new
      refine ⟨launched, fun kind is => ?_⟩
      rw [stage] at is
      cases is

/-- `begin_quiescence` has returned. -/
theorem Sound.closes (sound : Sound w) (shut : w.manager.Shut) : Sound { w with quiesced := true } :=
  ⟨fun _ => shut, fun c run found installed =>
      let held := sound.held c run found installed
      ⟨held.admitted, held.obliged, held.unlaunched, held.unended, held.taken⟩,
    sound.single, sound.launched, sound.begun, sound.paths, sound.covered, sound.final⟩

/-- `certify_epoch` has returned. -/
theorem Sound.certifies (sound : Sound w) (shut : w.manager.Shut)
    (discharged : w.manager.terminalObligations = ∅) {h : ℕ}
    (high : w.manager.db.getGenerationPersistedHighWater w.manager.genEpoch = h) :
    Sound { w with certified := some h } := by
  refine ⟨sound.shut, fun c run found installed => ?_, sound.single, sound.launched, sound.begun,
    sound.paths, sound.covered, fun h' is => ?_⟩
  · have held := sound.held c run found installed
    exact ⟨held.admitted, held.obliged, held.unlaunched, held.unended, held.taken⟩
  · obtain rfl := Option.some.inj is
    exact ⟨shut, discharged, high⟩

theorem onward_step (sound : Sound w) (step : ManagedStep) (orderly : w.Orderly step) :
    Onward w ((machine leased).step w step).1 := by
  have same : Onward w w := .of_same sound rfl rfl rfl rfl rfl
  cases step with
  | start sessionId =>
    exact .of_same (sound.enters (by cases leased <;> rfl)) rfl rfl rfl rfl rfl
  | restart sessionId newSessionId => exact .of_same (sound.enters rfl) rfl rfl rfl rfl rfl
  | sendTurn sessionId => exact Still.onward ⟨.refl _, rfl, rfl, rfl, rfl, rfl, rfl⟩ sound
  | resume c input =>
    cases found : w.resumes[c]? with
    | none => simpa only [machine, found] using same
    | some call =>
      simpa only [machine, found] using (still_advanceResume w c call input).onward sound
  | spawn c input =>
    cases found : w.spawns[c]? with
    | none => simpa only [machine, found] using same
    | some run => simpa only [machine, found] using onward_spawn leased sound found input orderly
  | monitorEnds sessionId =>
    simp only [machine]
    split
    next monitored =>
      have launched : sessionId ∈ w.launched := by
        simp only [Managed.monitored, Bool.and_eq_true, decide_eq_true_eq] at monitored
        exact monitored.1
      exact .of_same (sound.ends launched rfl) rfl rfl rfl rfl rfl
    next => exact same
  | reap sessionId =>
    simp only [machine]
    split
    · exact .of_same (sound.ends orderly rfl) rfl rfl rfl rfl rfl
    · exact same
  | ending c input =>
    cases found : w.endings[c]? with
    | none => simpa only [machine, found] using same
    | some path => simpa only [machine, found] using onward_ending sound found input
  | idle sessionId => exact Still.onward ⟨⟨rfl, rfl, rfl⟩, rfl, rfl, rfl, rfl, rfl, rfl⟩ sound
  | confirm seq =>
    have written : ∀ db, w.manager.db.setGenerationConfirmedHighWater w.manager.genEpoch seq = .ok db →
        db.starts = w.manager.db.starts ∧ db.sessions = w.manager.db.sessions ∧
          db.terminal = w.manager.db.terminal ∧ db.epochs = w.manager.db.epochs := by
      intro db done
      simp only [Db.setGenerationConfirmedHighWater, requireText, bind_ok, require_ok, pure,
        Except.pure, Except.ok.injEq, exists_const] at done
      obtain ⟨-, -, rfl⟩ := done
      exact ⟨rfl, rfl, rfl, rfl⟩
    simp only [machine]
    cases confirmed : w.manager.db.setGenerationConfirmedHighWater w.manager.genEpoch seq with
    | error raised => exact Still.onward ⟨⟨rfl, rfl, rfl⟩, rfl, rfl, rfl, rfl, rfl, rfl⟩ sound
    | ok db =>
      obtain ⟨starts, sessions, terminal, epochs⟩ := written db confirmed
      have later : Sound (w.setManager { w.manager with db := db }) :=
        sound.rows (fun shut => shut.of_epochs rfl epochs) rfl rfl starts sessions terminal
      exact .of_same later rfl rfl rfl rfl terminal
  | beginQuiescence failure =>
    simp only [machine]
    rcases done : w.manager.beginQuiescence (faultOf failure) with ⟨outcome, m⟩
    cases outcome with
    | error raised =>
      obtain rfl := Manager.beginQuiescence_error done
      exact same
    | ok _ =>
      obtain ⟨shut, genEpoch, obligations, starts, sessions, terminal⟩ :=
        Manager.beginQuiescence_ok done
      have later := sound.rows (fun _ => shut) genEpoch obligations starts sessions terminal
      refine ⟨later.closes shut, genEpoch, fun _ => ⟨rfl, rfl⟩, fun _ is => ⟨is, terminal⟩⟩
  | quiescenceStatus failures =>
    exact Still.onward ⟨⟨rfl, rfl, rfl⟩, rfl, rfl, rfl, rfl, rfl, rfl⟩ sound
  | certifyEpoch expected certificate unread unwritten =>
    simp only [machine]
    rcases done : w.manager.certifyEpoch expected certificate (faultOf unread) (faultOf unwritten)
      with ⟨outcome, m⟩
    cases outcome with
    | error raised =>
      obtain rfl := Manager.certifyEpoch_error done
      exact same
    | ok finalHw =>
      obtain ⟨shut, genEpoch, obligations, discharged, -, high, starts, sessions, terminal⟩ :=
        Manager.certifyEpoch_ok done
      have later := sound.rows (fun _ => shut) genEpoch obligations starts sessions terminal
      have again : m.db.getGenerationPersistedHighWater m.genEpoch = finalHw := by
        rw [Manager.highWater_congr starts terminal, genEpoch, high]
      refine ⟨later.certifies shut (obligations.trans discharged) again, genEpoch,
        fun is => ⟨is, rfl⟩, fun h is => ⟨?_, terminal⟩⟩
      -- the number that is written again is the one that was there
      exact congrArg some (high.trans (sound.final h is).2.2)

/-! ### Runs -/

theorem sound_opened (genEpoch : String) (db : Db) : Sound (opened genEpoch db) where
  shut is := by cases is
  held c run found := by cases found
  single c d run other found := by cases found
  launched := Finset.empty_subset _
  begun sid admitted := absurd admitted (Finset.notMem_empty sid)
  paths path member := by cases member
  covered sid admitted := absurd admitted (Finset.notMem_empty sid)
  final h is := by cases is

theorem Onward.refl (sound : Sound w) : Onward w w := .of_same sound rfl rfl rfl rfl rfl

theorem Onward.trans {w'' : Managed} (first : Onward w w') (second : Onward w' w'') :
    Onward w w'' where
  sound := second.sound
  genEpoch := second.genEpoch.trans first.genEpoch
  admitted is := by
    obtain ⟨still, same⟩ := first.admitted is
    exact ⟨(second.admitted still).1, (second.admitted still).2.trans same⟩
  terminal h is := by
    obtain ⟨still, same⟩ := first.terminal h is
    exact ⟨(second.terminal h still).1, (second.terminal h still).2.trans same⟩

theorem onward_after (sound : Sound w) (steps : List ManagedStep)
    (orderly : (machine leased).Along Orderly w steps) :
    Onward w ((machine leased).after w steps) := by
  induction steps generalizing w with
  | nil => exact .refl sound
  | cons step rest ih =>
    have first := onward_step leased sound step orderly.1
    exact first.trans (ih first.sound orderly.2)

/-- In every orderly run: once `begin_quiescence` has returned, no session is put on the table any
more; and once `certify_epoch` has returned a number, every session of the daemon that has its row
has its receipt, no receipt is written any more, and the number stays the epoch's highest. -/
theorem certified_stays (genEpoch : String) (db : Db) (steps later : List ManagedStep)
    (orderly : (machine leased).Along Orderly (opened genEpoch db) (steps ++ later)) :
    let w := (machine leased).after (opened genEpoch db) steps
    let w' := (machine leased).after (opened genEpoch db) (steps ++ later)
    (w.quiesced = true → w'.admitted = w.admitted) ∧
    ∀ h, w.certified = some h →
      (∀ sid ∈ w'.admitted, (w'.manager.db.sessions.find? sid).isSome →
        (w'.manager.db.terminal.find? sid).isSome) ∧
      w'.manager.db.terminal = w.manager.db.terminal ∧
      w'.manager.db.getGenerationPersistedHighWater genEpoch = h := by
  intro w w'
  obtain ⟨before, after⟩ := ((machine leased).along_append _ _ steps later).mp orderly
  have start := onward_after leased (sound_opened genEpoch db) steps before
  have rest : Onward w w' := by
    have rest := onward_after leased start.sound later after
    rwa [← Machine.after_append] at rest
  have epoch : w'.manager.genEpoch = genEpoch := rest.genEpoch.trans start.genEpoch
  refine ⟨fun quiesced => (rest.admitted quiesced).2, fun h is => ?_⟩
  obtain ⟨still, terminal⟩ := rest.terminal h is
  obtain ⟨-, discharged, high⟩ := rest.sound.final h still
  refine ⟨fun sid admitted => rest.sound.covered sid admitted ?_, terminal, epoch ▸ high⟩
  rw [discharged]
  exact Finset.notMem_empty sid

/-- A store in which an epoch serves, and a session has been promised to it. -/
def promisedStore : Db :=
  Store.machine.after servingStore
    [.reserve sampleRequest sampleId (.finite 1),
      .assignGeneration sampleId.value sampleGeneration firstEpoch]

/-- The session starts and ends, and the epoch is certified. -/
def certifying : List ManagedStep :=
  [.start sampleId.value, .spawn 0 {}, .spawn 0 {}, .spawn 0 {}, .spawn 0 {}, .spawn 0 {},
    .monitorEnds sampleId.value, .ending 0 {}, .ending 0 {}, .ending 0 {}, .ending 0 {},
    .beginQuiescence none, .certifyEpoch firstEpoch "certificate" none none]

/-- Another start, and a reaper that comes late. -/
def latecomers : List ManagedStep :=
  [.start "s2", .spawn 1 {}, .spawn 1 {}, .reap sampleId.value, .ending 1 {}, .ending 1 {}]

theorem certified_stays_sample :
    ((machine false).after (opened firstEpoch promisedStore)
      (certifying ++ latecomers)).manager.db.getGenerationPersistedHighWater firstEpoch = 1 := by
  have certified : ((machine false).after (opened firstEpoch promisedStore) certifying).certified =
      some 1 := by decide +kernel
  exact ((certified_stays false firstEpoch promisedStore certifying latecomers
    (by decide +kernel)).2 1 certified).2.2

/-- The reaper takes a session that is on the table without its row, discharges it, and releases its
leases. Meanwhile the start goes on, and the session ends: its monitor finds the epoch not certified
yet. Then the reaper takes the session off the table, and nothing stands in the way of
`certify_epoch`. -/
def overtaking : List ManagedStep :=
  [.start sampleId.value, .spawn 0 {}, .spawn 0 {}, .spawn 0 {},
    .spawn 0 { lease := .granted ⟨some "active", some "live"⟩ }, .spawn 0 {}, .spawn 0 {},
    .reap sampleId.value, .ending 0 {}, .ending 0 {}, .ending 0 {},
    .spawn 0 {}, .spawn 0 {}, .spawn 0 {}, .monitorEnds sampleId.value, .ending 1 {},
    .ending 0 {}, .beginQuiescence none, .certifyEpoch firstEpoch "certificate" none none]

/-- A receipt is persisted behind the certificate, and the epoch's highest number is another one. -/
theorem receipt_after_certificate :
    let w := (machine true).after (opened firstEpoch promisedStore) overtaking
    let w' := (machine true).after (opened firstEpoch promisedStore) (overtaking ++ [.ending 1 {}])
    w.certified = some 0 ∧ (w.manager.db.terminal.find? sampleId.value).isSome = false ∧
      (w'.manager.db.terminal.find? sampleId.value).isSome = true ∧
      w'.manager.db.getGenerationPersistedHighWater firstEpoch = 1 := by
  decide +kernel

end Managed

end Nelix.Daemon
