import Nelix.Router.OperatorCertificates

/-!
# The operator's calls, the daemons and the store

Any number of `retire` calls over one store, with the daemons' two retirement writes and everybody
else's writes between any two of their effects. A call that has returned stays on record, with
nothing left to do.

## Main results

`certified_for_good`: in every orderly run, what is certified stays certified, with its certificate
and its final number.
-/
namespace Nelix.Router

open Contracts Core Store Prog Routine

/-- A call of `retire`: whether it has listed the epochs, and what it has still to do. -/
structure Flight where
  generationId : String
  listed : Bool := false
  todo : Routine RetireReply

/-- The call has listed the epochs, and what it has still to do may write the epoch's retirement
columns. -/
def Flight.mayWrite (f : Flight) (e : String) : Prop :=
  f.listed = true ∧ ¬ f.todo.Only (Omits e)

structure System where
  scene : Scene
  calls : List Flight

/-- What `SessionManager.begin_quiescence` writes. -/
def beginQuiescence (generationEpoch : String) : Call :=
  .setEpochRetirement generationEpoch .quiescing .none none

/-- What `SessionManager.certify_epoch` writes; the number was read before. -/
def certifyEpoch (generationEpoch certificate : String) (finalHw : ℕ) : Call :=
  .setEpochRetirement generationEpoch .certified (.text certificate) (some (finalHw : ℤ))

/-- The deed writes retirement columns. -/
def Deed.retires : Deed → Bool
  | .store (.setEpochRetirement ..) => true
  | _ => false

inductive Happening
  | retire (generationId : String)
  | own (call : ℕ) (act : Act)
  | quiesce (generationEpoch : String)
  | certify (generationEpoch certificate : String) (finalHw : ℕ)
  | elsewhere (deed : Deed)

inductive System.Step (at_ : Surroundings) : System → Happening → System → Prop
  | retire {s : System} (g : String) : Step at_ s (.retire g)
      { s with calls := s.calls ++ [{ generationId := g, todo := retire at_ g }] }
  | own {s : System} {i : ℕ} {f : Flight} {a : Act} {next : a.Answer → Routine RetireReply}
      {r : a.Answer} {w' : Scene} (here : s.calls[i]? = some f) (todo : f.todo = .perform a next)
      (acts : operates a s.scene r w') : Step at_ s (.own i a)
        { scene := w'
          calls := s.calls.set i { f with listed := f.listed || a.lists, todo := next r } }
  | quiesce {s : System} (e : String) : Step at_ s (.quiesce e)
      { s with scene := s.scene.after (.store (beginQuiescence e)) }
  | certify {s : System} (e certificate : String) (finalHw : ℕ) :
      Step at_ s (.certify e certificate finalHw)
        { s with scene := s.scene.after (.store (certifyEpoch e certificate finalHw)) }
  | elsewhere {s : System} {deed : Deed} (apart : deed.retires = false) :
      Step at_ s (.elsewhere deed) { s with scene := s.scene.after deed }

/-- No call but the one that certifies the epoch may still write its retirement columns. -/
def System.expected (s : System) (maker : Option ℕ) (e : String) : Prop :=
  ∀ i f, s.calls[i]? = some f → maker ≠ some i → ¬ f.mayWrite e

/-- The certificate and the number are those that a certified row has. -/
def Scene.certifiedAs (w : Scene) (e certificate : String) (finalHw : ℕ) : Prop :=
  ∀ row ∈ w.db.epochs.rows, row.generationEpoch = e → row.retirementState = .certified →
    row.certificate = .text certificate ∧ row.finalHighWater = some finalHw

instance (w : Scene) (e certificate : String) (n : ℕ) : Decidable (w.certifiedAs e certificate n) := by
  unfold Scene.certifiedAs; infer_instance

/-- A daemon begins its quiescence while its epoch is not certified; it certifies again only what it
has certified; and an epoch is certified behind no call's back. -/
def System.orderly (s : System) : Happening → Prop
  | .quiesce e => ¬ s.scene.certified e
  | .certify e certificate finalHw => s.scene.certifiedAs e certificate finalHw ∧
      (¬ s.scene.certified e → s.expected none e)
  | .own i a => ∀ e, Certifies e a → s.expected (some i) e
  | _ => True

/-- Runs whose steps are all orderly. -/
def System.Runs (at_ : Surroundings) : System → System → Prop :=
  Relation.ReflTransGen fun s s' => ∃ h, System.Step at_ s h s' ∧ s.orderly h

/-- Every certified row is there with the same certificate and the same final number. -/
def CertificatesKept (w w' : Scene) : Prop :=
  ∀ row ∈ w.db.epochs.rows, row.retirementState = .certified →
    ∃ row' ∈ w'.db.epochs.rows, row'.generationEpoch = row.generationEpoch ∧
      row'.retirementState = .certified ∧ row'.certificate = row.certificate ∧
      row'.finalHighWater = row.finalHighWater

instance (w w' : Scene) : Decidable (CertificatesKept w w') := by
  unfold CertificatesKept; infer_instance

variable {w w' w'' : Scene} {s s' : System} {at_ : Surroundings} {e : String}

theorem CertificatesKept.refl : CertificatesKept w w :=
  fun row member certified => ⟨row, member, rfl, certified, rfl, rfl⟩

theorem CertificatesKept.trans (first : CertificatesKept w w') (second : CertificatesKept w' w'') :
    CertificatesKept w w'' := by
  intro row member certified
  obtain ⟨row', member', named, certified', certificate, final⟩ := first row member certified
  obtain ⟨row'', member'', named', certified'', certificate', final'⟩ :=
    second row' member' certified'
  exact ⟨row'', member'', named'.trans named, certified'', certificate'.trans certificate,
    final'.trans final⟩

/-- A call keeps the certificates when the retirement columns it writes are of an epoch that is not
certified, or are what the row has. -/
theorem kept_after_call {call : Call}
    (spares : ∀ row ∈ w.db.epochs.rows, row.retirementState = .certified → ∀ state certificate final,
      call = .setEpochRetirement row.generationEpoch state certificate final →
        ∃ text, ∃ n : ℕ, state = .certified ∧ certificate = .text text ∧ final = some (n : ℤ) ∧
          row.certificate = .text text ∧ row.finalHighWater = some n) :
    CertificatesKept w (w.after (.store call)) := by
  intro row member certified
  simp only [Scene.after, settled]
  cases done : call.apply w.db with
  | error raised => exact ⟨row, member, rfl, certified, rfl, rfl⟩
  | ok db' =>
    rcases Call.epoch_stays done member with stays | ⟨row', moved, move⟩
    · exact ⟨row, stays, rfl, certified, rfl, rfl⟩
    · refine ⟨row', moved, move.key.1, ?_⟩
      cases move with
      | promoted => exact ⟨certified, rfl, rfl⟩
      | process => exact ⟨certified, rfl, rfl⟩
      | reconciled => exact ⟨certified, rfl, rfl⟩
      | retirement state certificate final cell high here bound checked =>
        obtain ⟨text, n, rfl, rfl, rfl, same, number⟩ := spares row member certified _ _ _ here
        -- What is bound is the text and the number that the row has.
        cases bound
        simp only [Db.checkHighWater, bind_ok, require_ok, pure, Except.pure, Except.ok.injEq] at checked
        obtain ⟨-, -, rfl⟩ := checked
        exact ⟨rfl, same.symm, by simp [Db.retired, number]⟩

/-! ### A call among others -/

/-- A call that has listed the epochs may write no retirement columns of a certified epoch, and none
of an epoch's behind its own certificate for it; one that has not is ahead of its listing. -/
structure Flight.Sound (f : Flight) (w : Scene) : Prop where
  ahead : f.listed = false → Ahead f.todo
  uncertified : ∀ e, f.mayWrite e → ¬ w.certified e
  last : f.listed = true → ∀ e, f.todo.Last (Certifies e) (Omits e)

/-- A call does not mind what others certify that it may not write. -/
theorem Flight.Sound.later {f : Flight} (sound : f.Sound w)
    (others : ∀ e, w'.certified e → w.certified e ∨ ¬ f.mayWrite e) : f.Sound w' := by
  refine ⟨sound.ahead, fun e writes now => ?_, sound.last⟩
  rcases others e now with before | spared
  · exact sound.uncertified e writes before
  · exact spared writes

/-- What a call performs writes no retirement column of a certified epoch. -/
theorem Flight.Sound.omits {f : Flight} {a : Act} {next : a.Answer → Routine RetireReply}
    (sound : f.Sound w) (todo : f.todo = .perform a next) (certified : w.certified e) :
    Omits e a := by
  cases listed : f.listed with
  | false =>
    have ahead := sound.ahead listed
    rw [todo] at ahead
    cases ahead with
    | reads here rest => exact here.2 e
    | lists fails abides => exact nofun
  | true =>
    by_contra writes
    refine sound.uncertified e ⟨listed, fun only => ?_⟩ certified
    rw [todo] at only
    exact writes only.1

/-- The listing: what the call may write from here on was shown uncertified. -/
theorem Flight.Sound.listing {f : Flight} {g : String}
    {next : Except Raised (List EpochRecord) → Routine RetireReply}
    {r : Except Raised (List EpochRecord)}
    (fails : ∀ x, (next (.error x)).Only fun _ => False)
    (abides : ∀ epochs, (epochs.map EpochRecord.generationEpoch).Nodup →
      Abides epochs (next (.ok epochs)))
    (acts : operates ⟨.reading, .ask (.listEpochs g)⟩ w r w') :
    Flight.Sound { f with listed := true, todo := next r } w' := by
  obtain ⟨rfl, answered⟩ := operates_ask acts
  cases r with
  | error x =>
    have nothing : ∀ e, (next (.error x)).Only (Omits e) :=
      fun e => (fails x).mono fun _ => False.elim
    exact ⟨nofun, fun e writes => absurd (nothing e) writes.2, fun _ e => (nothing e).last⟩
  | ok epochs =>
    have listed : w'.db.listEpochs g = .ok epochs := answered epochs rfl
    have abides := abides epochs (listing_distinct listed)
    refine ⟨nofun, fun e writes => ?_, fun _ => abides.last⟩
    obtain ⟨ep, member, rfl, uncertified⟩ := (abides.confined e).resolve_left writes.2
    exact uncertified_of_listed listed member uncertified

/-- A call goes on as it should from what its effect left. -/
theorem Flight.Sound.next {f : Flight} {a : Act} {next : a.Answer → Routine RetireReply}
    {r : a.Answer} (sound : f.Sound w) (todo : f.todo = .perform a next)
    (acts : operates a w r w') :
    Flight.Sound { f with listed := f.listed || a.lists, todo := next r } w' := by
  cases listed : f.listed with
  | false =>
    have ahead := sound.ahead listed
    rw [todo] at ahead
    cases ahead with
    | reads here rest =>
      rw [here.1]
      exact ⟨fun _ => rest r, nofun, nofun⟩
    | lists fails abides => exact Flight.Sound.listing fails abides acts
  | true =>
    have last := sound.last listed
    rw [todo] at last
    refine ⟨nofun, fun e writes now => ?_, fun _ e => (last e).2 r⟩
    -- what is left may write the epoch, so the effect was not its certificate
    rcases certified_before acts now with before | certifies
    · refine sound.uncertified e ⟨listed, fun only => writes.2 ?_⟩ before
      rw [todo] at only
      exact only.2 r
    · exact writes.2 ((last e).1 certifies r)

/-! ### Every call -/

def System.Sound (s : System) : Prop :=
  ∀ (i : ℕ) (f : Flight), s.calls[i]? = some f → f.Sound s.scene

theorem certified_before_deed {deed : Deed} (now : (w.after deed).certified e) :
    w.certified e ∨ ∃ certificate final,
      deed = .store (.setEpochRetirement e .certified certificate final) := by
  cases deed with
  | store call =>
    have acts : operates ⟨.retiring, .write call⟩ w ((call.apply w.db).map fun _ => ())
        (w.after (.store call)) := .inl ⟨rfl, rfl⟩
    rcases certified_before acts now with before | shown
    · exact .inl before
    · cases call with
      | setEpochRetirement e' state certificate final =>
        cases state <;> simp [certifies] at shown
        exact .inr ⟨certificate, final, by rw [shown]⟩
      | _ => cases shown
  | spawn => exact .inl now
  | exit => exact .inl now

/-- Calls go on through a deed that certifies no epoch behind their backs. -/
theorem System.Sound.elsewhere {deed : Deed} (sound : s.Sound)
    (expected : ∀ e, (s.scene.after deed).certified e → s.scene.certified e ∨ s.expected none e) :
    System.Sound { s with scene := s.scene.after deed } := by
  intro i f here
  have stranger : (none : Option ℕ) ≠ some i := nofun
  exact (sound i f here).later fun e now => (expected e now).imp_right
    fun expected => expected i f here stranger

/-- What one orderly step keeps. -/
theorem System.Step.keeps {h : Happening} (step : System.Step at_ s h s')
    (orderly : s.orderly h) (sound : s.Sound) : s'.Sound ∧ CertificatesKept s.scene s'.scene := by
  cases step with
  | retire g =>
    refine ⟨fun i f here => ?_, .refl⟩
    rcases lt_trichotomy i s.calls.length with old | new | beyond
    · rw [List.getElem?_append_left old] at here
      exact sound i f here
    · subst new
      simp only [List.getElem?_concat_length, Option.some.injEq] at here
      subst here
      exact ⟨fun _ => Ahead.retire, nofun, nofun⟩
    · rw [List.getElem?_eq_none (by simp; omega)] at here
      cases here
  | own here todo acts =>
    rename_i i f a next r w'
    have flight := sound i f here
    refine ⟨fun j f' here' => ?_, ?_⟩
    · rw [List.getElem?_set] at here'
      split at here'
      · -- The call itself goes on from what its effect left.
        split at here'
        · cases here'
          exact flight.next todo acts
        · cases here'
      · -- To every other call it was a move of the others.
        rename_i apart
        have other : (some i : Option ℕ) ≠ some j := fun same => apart (Option.some.inj same)
        exact (sound j f' here').later fun e now => (certified_before acts now).imp_right
          fun certifies => orderly e certifies j f' here' other
    · -- Its program omits what would change the row of a certified epoch.
      rcases operates_db acts with ⟨call, effect, rfl⟩ | ⟨kept, -⟩
      · refine kept_after_call fun row member certified state certificate final writes => ?_
        have omits := flight.omits todo ⟨row, member, rfl, certified⟩
        exact absurd (effect.trans (congrArg Effect.write writes)) (omits state certificate final)
      · exact fun row member certified => ⟨row, kept ▸ member, rfl, certified, rfl, rfl⟩
  | quiesce e =>
    refine ⟨sound.elsewhere fun e' now => ?_, kept_after_call ?_⟩
    · rcases certified_before_deed now with before | ⟨_, _, same⟩
      · exact .inl before
      · cases same
    · intro row member certified state certificate final writes
      cases writes
      exact absurd ⟨row, member, rfl, certified⟩ orderly
  | certify e certificate finalHw =>
    obtain ⟨same, expected⟩ := orderly
    refine ⟨sound.elsewhere fun e' now => ?_, kept_after_call ?_⟩
    · rcases certified_before_deed now with before | ⟨_, _, writes⟩
      · exact .inl before
      · cases writes
        by_cases before : s.scene.certified e
        · exact .inl before
        · exact .inr (expected before)
    · -- The same certificate and number are written over themselves.
      intro row member certified state text final writes
      cases writes
      obtain ⟨certificate, number⟩ := same row member rfl certified
      exact ⟨_, finalHw, rfl, rfl, rfl, certificate, number⟩
  | elsewhere apart =>
    rename_i deed
    refine ⟨sound.elsewhere fun e now => ?_, ?_⟩
    · rcases certified_before_deed now with before | ⟨_, _, same⟩
      · exact .inl before
      · subst same
        cases apart
    · cases deed with
      | store call =>
        refine kept_after_call fun row member certified state certificate final writes => ?_
        subst writes
        cases apart
      | spawn => exact .refl
      | exit => exact .refl

theorem System.Runs.keeps (runs : System.Runs at_ s s') (sound : s.Sound) :
    s'.Sound ∧ CertificatesKept s.scene s'.scene := by
  induction runs with
  | refl => exact ⟨sound, .refl⟩
  | tail _ last ih =>
    obtain ⟨h, step, orderly⟩ := last
    obtain ⟨sound', kept⟩ := ih
    obtain ⟨sound'', kept'⟩ := step.keeps orderly sound'
    exact ⟨sound'', kept.trans kept'⟩

/-- In every orderly run that starts with no call, an epoch that is certified stays so, and its
certificate and its final number never change. -/
theorem certified_for_good (at_ : Surroundings) (start s s' : System) (idle : start.calls = [])
    (before : System.Runs at_ start s) (after : System.Runs at_ s s') :
    CertificatesKept s.scene s'.scene := by
  have sound : start.Sound := fun i f here => by simp [idle] at here
  exact (after.keeps (before.keeps sound).1).2

/-- A serving epoch, and no call under way. -/
def servingEpoch : System where
  scene :=
    { db := Store.machine.after {}
        [.createGeneration sampleGeneration none .active none (.finite 1),
          .insertEpoch firstEpoch sampleGeneration none (.finite 1),
          .casEpochServing sampleGeneration firstEpoch none (some "incarnation")]
      alive := fun e => e = firstEpoch }
  calls := []

/-- The epoch once its daemon has certified it. -/
def certifiedEpoch : System :=
  { servingEpoch with
    scene := servingEpoch.scene.after (.store (certifyEpoch firstEpoch "c" 0)) }

/-- The daemon certifies, the registry finds it dead, and the certificate is still there. -/
theorem certified_for_good_reconciled :
    certifiedEpoch.scene.certified firstEpoch ∧ CertificatesKept certifiedEpoch.scene
      (certifiedEpoch.scene.after (.store (.reconcileEpochDead sampleGeneration firstEpoch))) :=
  ⟨by decide +kernel, certified_for_good oneProcess servingEpoch certifiedEpoch
    { certifiedEpoch with scene :=
        certifiedEpoch.scene.after (.store (.reconcileEpochDead sampleGeneration firstEpoch)) } rfl
    (.single ⟨_, .certify firstEpoch "c" 0, by decide +kernel, fun _ _ _ here => by cases here⟩)
    (.single ⟨_, .elsewhere rfl, trivial⟩)⟩

/-- A quiescence that begins after the certification takes it back. -/
theorem certificate_taken_back :
    ∃ s s', System.Step oneProcess servingEpoch (.certify firstEpoch "c" 0) s ∧
      System.Step oneProcess s (.quiesce firstEpoch) s' ∧
      s.scene.certified firstEpoch ∧ ¬ s'.scene.certified firstEpoch :=
  ⟨_, _, .certify firstEpoch "c" 0, .quiesce firstEpoch, by decide +kernel, by decide +kernel⟩

end Nelix.Router
