import Nelix.Daemon.SessionIdentities
import Nelix.Daemon.SessionSteady

/-!
# Whose options a modal is answered with

A modal that a hook announced has no options until the monitor parses the screen, and `respond`
fills them in from the options the monitor cached last. The cache and the decision are matched by
the generation, a counter that a publish moves and the screen knows nothing of. Beside the threads
a run keeps what the screen really showed: every modal that the agent opens has a number of its
own, `parsed` is the modal on the frame that the cache was parsed from, and `modals` names the
modal that each generation was published for.
-/
namespace Nelix.Daemon

open Core

namespace Session

/-- The generation of the modal decision that is pending. -/
def pendingGeneration (s : Session) : Option ℕ :=
  s.currentAsk.bind fun ask => if isChoice ask.promptKind then ask.modalEpoch else none

/-- Whether the current decision has no options yet. -/
def awaitsOptions (s : Session) : Bool := s.currentAsk.any fun ask => ask.options.isEmpty

end Session

/-- Whether a frame shows a modal whose options the monitor can parse. -/
def Observation.showsModal (obs : Observation) : Bool :=
  obs.promptKind.isChoice && !obs.options.isEmpty

structure Screened where
  threads : Threads
  parsed : Option ℕ := none
  modals : List ℕ := []

namespace Screened

variable (cfg : BeliefConfig)

/-- The announcement whose publish opens a generation in this step. -/
def opening (w : Screened) : Step → Option Announcement
  | .chore .. =>
    match w.threads.todo with
    | .build a _ :: _ => if w.threads.session.opensGeneration a then some a else none
    | _ => none
  | _ => none

/-- What the cache was parsed from once the step is taken, where the frame shows the modal `m`. -/
def parses (w : Screened) (m : ℕ) : Step → Option ℕ
  | .begin (.cache obs) =>
    if w.threads.begins (.cache obs) then if obs.showsModal then some m else none else w.parsed
  | _ => w.parsed

/-- A step of a thread, and the modal it is about: the one on the frame that is cached, or the one
that is announced. -/
def machine : Machine Screened (Step × ℕ) Empty where
  step w i :=
    ({ threads := ((Threads.machine cfg).step w.threads i.1).1
       parsed := w.parses i.2 i.1
       modals := if (w.opening i.1).isSome then w.modals ++ [i.2] else w.modals }, [])

def started (id : SessionId) (events : EventQueue) : Screened where
  threads := .started id events

/-- Whatever step of a call changes the options of a decision: they are the cached ones, and the
cache was parsed from the modal that the decision's generation, and no other, was published
for. -/
def HydratesOwn (w : Screened) : Prop :=
  ∀ (c : ℕ) (expired written : Bool) (now : Time) (id : DecisionId),
    (w.threads.advance cfg c expired written now).session.optionsOf id ≠
      w.threads.session.optionsOf id →
    ∃ g m, w.threads.session.generation id = some g ∧ w.parsed = some m ∧
      (∀ g', w.modals[g']? = some m ↔ g' = g) ∧
      (w.threads.advance cfg c expired written now).session.optionsOf id =
        w.threads.session.lastModalOptions

/-- Whether the step caches the options of a modal. -/
def caches (w : Screened) : Step → Bool
  | .begin (.cache obs) => w.threads.begins (.cache obs) && obs.showsModal
  | _ => false

/-- A frame that is cached while a modal decision without options is pending shows its modal. A
modal is announced once, and where it comes without options and the cache waits for an
announcement, the cache was parsed from the modal that is announced. -/
def InStep (w : Screened) (i : Step × ℕ) : Prop :=
  (w.caches i.1 = true → w.threads.session.awaitsOptions = true →
    ∀ g ∈ w.threads.session.pendingGeneration, w.modals[g]? = some i.2) ∧
  ∀ a ∈ w.opening i.1, i.2 ∉ w.modals ∧
    (a.options = [] → w.threads.session.lastModalEpoch = some w.threads.session.modalEpoch →
      w.parsed = some i.2)

instance (w : Screened) (i : Step × ℕ) : Decidable (InStep w i) :=
  inferInstanceAs (Decidable (_ ∧ _))

/-- The generations are counted, each for one decision, and a decision that still has no options
finds those of its own modal in the cache, if any are there for it. -/
structure Tagged (w : Screened) : Prop where
  minted : w.threads.Minted
  counted : w.modals.length = w.threads.session.modalEpoch
  distinct : w.modals.Nodup
  filed : ∀ id g, w.threads.session.generation id = some g → g < w.threads.session.modalEpoch
  single : ∀ id id' g, w.threads.session.generation id = some g →
    w.threads.session.generation id' = some g → id = id'
  built : ∀ b owner, .commit b owner ∈ w.threads.todo → b.isReemit = false →
    ∀ ask, b.ask = some ask → ∀ g, ask.modalEpoch = some g →
      g < w.threads.session.modalEpoch ∧ (∀ id, w.threads.session.generation id ≠ some g) ∧
      (ask.options = [] → w.threads.session.lastModalEpoch = some g → w.modals[g]? = w.parsed)
  known : ∀ g, w.threads.session.lastModalEpoch = some g →
    g ≤ w.threads.session.modalEpoch ∧ w.parsed ≠ none
  tag : ∀ id g, w.threads.session.generation id = some g →
    w.threads.session.optionsOf id = some [] → w.threads.session.lastModalEpoch = some g →
    w.modals[g]? = w.parsed

variable {w : Screened}

theorem showsModal_iff (obs : Observation) :
    obs.showsModal = true ↔ obs.promptKind.isChoice = true ∧ obs.options ≠ [] := by
  simp [Observation.showsModal]

theorem pendingGeneration_filed {s : Session} {g : ℕ} (pending : s.pendingGeneration = some g) :
    ∃ id, s.generation id = some g ∧ (s.optionsOf id = some [] → s.awaitsOptions = true) := by
  rw [Session.pendingGeneration, Option.bind_eq_some_iff] at pending
  obtain ⟨ask, current, taken⟩ := pending
  have isCurrent := current
  rw [Session.currentAsk, Option.bind_eq_some_iff] at current
  obtain ⟨id, -, found⟩ := current
  refine ⟨id, ?_, fun empty => ?_⟩
  swap
  · rw [Session.optionsOf, found, Option.map_some, Option.some.injEq] at empty
    rw [Session.awaitsOptions, isCurrent, Option.any_some, empty]
    rfl
  rw [Session.generation, Session.stamp, found]
  split at taken
  · exact taken
  · cases taken

/-- What is tagged stays so where no generation is opened and nothing is cached. -/
theorem Tagged.still (tagged : Tagged w) {t : Threads} (minted : t.Minted)
    (stamp : ∀ id, t.session.stamp id = w.threads.session.stamp id)
    (bare : ∀ id, t.session.optionsOf id = some [] → w.threads.session.optionsOf id = some [])
    (modalEpoch : t.session.modalEpoch = w.threads.session.modalEpoch)
    (cachedEpoch : t.session.lastModalEpoch = w.threads.session.lastModalEpoch)
    (commits : ∀ b owner, .commit b owner ∈ t.todo → .commit b owner ∈ w.threads.todo) :
    Tagged { w with threads := t } := by
  have generation : ∀ id, t.session.generation id = w.threads.session.generation id := fun id => by
    rw [Session.generation, stamp, Session.generation]
  refine ⟨minted, tagged.counted.trans modalEpoch.symm, tagged.distinct, ?_, ?_, ?_, ?_, ?_⟩
  · intro id g
    rw [generation, modalEpoch]
    exact tagged.filed id g
  · intro id id' g
    rw [generation, generation]
    exact tagged.single id id' g
  · intro b owner member
    simp only [generation, modalEpoch, cachedEpoch]
    exact tagged.built b owner (commits b owner member)
  · intro g
    rw [modalEpoch, cachedEpoch]
    exact tagged.known g
  · intro id g
    rw [generation, cachedEpoch]
    exact fun taken empty => tagged.tag id g taken (bare id empty)

/-- A frame of the pending modal is cached under its generation, and any other under the next. -/
theorem Tagged.cache (tagged : Tagged w) (obs : Observation) {m : ℕ} {t : Threads}
    (minted : t.Minted) (session : t.session = w.threads.session.cacheLastModalOptions obs)
    (idle : ∀ b owner, .commit b owner ∉ t.todo)
    (own : obs.showsModal = true → w.threads.session.awaitsOptions = true →
      ∀ g, w.threads.session.pendingGeneration = some g → w.modals[g]? = some m) :
    Tagged { w with threads := t, parsed := if obs.showsModal then some m else none } := by
  have fields : t.session.modalEpoch = w.threads.session.modalEpoch ∧
      t.session.asks = w.threads.session.asks ∧
      t.session.lastModalEpoch = if obs.showsModal then
        some (w.threads.session.pendingGeneration.getD w.threads.session.modalEpoch) else none := by
    rw [session, Session.cacheLastModalOptions]
    by_cases shows : obs.showsModal = true
    · rw [if_pos ((showsModal_iff obs).mp shows), if_pos shows]
      exact ⟨rfl, rfl, rfl⟩
    · rw [if_neg (mt (showsModal_iff obs).mpr shows), if_neg shows]
      exact ⟨rfl, rfl, rfl⟩
  obtain ⟨modalEpoch, asks, cachedEpoch⟩ := fields
  have generation : ∀ id, t.session.generation id = w.threads.session.generation id := fun id => by
    rw [Session.generation, Session.stamp, asks, Session.generation, Session.stamp]
  refine ⟨minted, tagged.counted.trans modalEpoch.symm, tagged.distinct, ?_, ?_,
    fun b owner member => absurd member (idle b owner), fun g isTag => ?_,
    fun id g taken empty isTag => ?_⟩
  · intro id g
    rw [generation, modalEpoch]
    exact tagged.filed id g
  · intro id id' g
    rw [generation, generation]
    exact tagged.single id id' g
  · rw [cachedEpoch] at isTag
    rw [modalEpoch]
    by_cases shows : obs.showsModal = true
    · simp only [if_pos shows, Option.some.injEq] at isTag ⊢
      subst isTag
      cases pending : w.threads.session.pendingGeneration with
      | none => exact ⟨le_rfl, by rintro ⟨⟩⟩
      | some g =>
        obtain ⟨id, filed, -⟩ := pendingGeneration_filed pending
        exact ⟨(tagged.filed id g filed).le, by rintro ⟨⟩⟩
    · rw [if_neg shows] at isTag
      cases isTag
  · rw [generation] at taken
    rw [Session.optionsOf, asks] at empty
    rw [cachedEpoch] at isTag
    by_cases shows : obs.showsModal = true
    · simp only [if_pos shows, Option.some.injEq] at isTag ⊢
      cases pending : w.threads.session.pendingGeneration with
      | none =>
        -- the next generation is no decision's yet
        rw [pending, Option.getD_none] at isTag
        exact absurd (tagged.filed id g taken) (by rw [isTag]; exact Nat.lt_irrefl _)
      | some h =>
        rw [pending, Option.getD_some] at isTag
        subst isTag
        obtain ⟨current, filed, waits⟩ := pendingGeneration_filed pending
        obtain rfl := tagged.single id current h taken filed
        exact own shows (waits empty) h pending
    · rw [if_neg shows] at isTag
      cases isTag

/-- The generation that a publish opens is the modal's that was cached for it, if any was. -/
theorem Tagged.build (tagged : Tagged w) (a : Announcement) (view : View) {m : ℕ} {t : Threads}
    (minted : t.Minted) (session : t.session = (w.threads.session.build a view).1)
    (commits : ∀ b owner, .commit b owner ∈ t.todo → b = (w.threads.session.build a view).2)
    (first : w.threads.session.opensGeneration a = true → m ∉ w.modals ∧
      (a.options = [] →
        w.threads.session.lastModalEpoch = some w.threads.session.modalEpoch →
          w.parsed = some m)) :
    Tagged { w with
      threads := t
      modals := if w.threads.session.opensGeneration a then w.modals ++ [m] else w.modals } := by
  have builds := Session.build_buildsOn (s := w.threads.session) a view
  rw [← session] at builds
  have generation : ∀ id, t.session.generation id = w.threads.session.generation id := fun id => by
    rw [Session.generation, Session.stamp, builds.asks, Session.generation, Session.stamp]
  have grows : w.threads.session.modalEpoch ≤ t.session.modalEpoch := by
    rw [builds.modalEpoch]
    split
    · exact Nat.le_succ _
    · exact le_rfl
  have older : ∀ g < w.threads.session.modalEpoch,
      (if w.threads.session.opensGeneration a then w.modals ++ [m] else w.modals)[g]? =
        w.modals[g]? := by
    intro g early
    split
    · exact List.getElem?_append_left (by rw [tagged.counted]; exact early)
    · rfl
  refine ⟨minted, ?_, ?_, ?_, ?_, fun b owner member isFirst ask is g taken => ?_, ?_, ?_⟩
  · rw [builds.modalEpoch]
    split
    · rw [List.length_append, tagged.counted]
      rfl
    · exact tagged.counted
  · split
    next opens =>
      refine List.nodup_append.mpr ⟨tagged.distinct, List.nodup_singleton m, ?_⟩
      rintro x old y new rfl
      rw [List.mem_singleton] at new
      exact (first opens).1 (new ▸ old)
    next => exact tagged.distinct
  · intro id g taken
    rw [generation] at taken
    exact lt_of_lt_of_le (tagged.filed id g taken) grows
  · intro id id' g
    rw [generation, generation]
    exact tagged.single id id' g
  · obtain rfl := commits b owner member
    obtain ⟨opens, rfl, options⟩ := builds.generation isFirst ask is g taken
    refine ⟨?_, fun id filed => ?_, fun empty isTag => ?_⟩
    · rw [builds.modalEpoch, if_pos opens]
      exact Nat.lt_succ_self _
    · rw [generation] at filed
      exact absurd (tagged.filed id _ filed) (Nat.lt_irrefl _)
    · -- the cached frame was waiting for this announcement
      rw [builds.cachedEpoch] at isTag
      have parsed := (first opens).2 (options.symm.trans empty) isTag
      rw [if_pos opens, ← tagged.counted, List.getElem?_concat_length, parsed]
  · intro g isTag
    rw [builds.cachedEpoch] at isTag
    exact ⟨(tagged.known g isTag).1.trans grows, (tagged.known g isTag).2⟩
  · intro id g taken empty isTag
    rw [generation] at taken
    rw [Session.optionsOf, builds.asks] at empty
    rw [builds.cachedEpoch] at isTag
    rw [older g (tagged.filed id g taken)]
    exact tagged.tag id g taken empty isTag

/-- A decision that is installed brings its generation along. -/
theorem Tagged.commit (tagged : Tagged w) (b : Built) (owner : Option String) {t : Threads}
    (minted : t.Minted) (session : t.session = w.threads.session.commit b owner)
    (member : .commit b owner ∈ w.threads.todo) (idle : ∀ b owner, .commit b owner ∉ t.todo) :
    Tagged { w with threads := t } := by
  have effect := Session.commit_commitsOn (s := w.threads.session) b owner
  rw [← session] at effect
  have generation : ∀ id g, t.session.generation id = some g →
      w.threads.session.generation id = some g ∨ g < w.threads.session.modalEpoch ∧
        (∀ id, w.threads.session.generation id ≠ some g) ∧
        ∃ ask, b.ask = some ask ∧ id = ask.decisionId := by
    intro id g taken
    rcases effect.generation id with ⟨same, -⟩ | ⟨isFirst, ask, is, own, epoch, -⟩
    · exact .inl (same ▸ taken)
    · obtain ⟨early, fresh, -⟩ := tagged.built b owner member isFirst ask is g (epoch ▸ taken)
      exact .inr ⟨early, fresh, ask, is, own⟩
  refine ⟨minted, tagged.counted.trans effect.modalEpoch.symm, tagged.distinct, ?_, ?_,
    fun b owner member => absurd member (idle b owner), ?_, ?_⟩
  · intro id g taken
    rw [effect.modalEpoch]
    rcases generation id g taken with old | ⟨early, -⟩
    · exact tagged.filed id g old
    · exact early
  · intro id id' g taken taken'
    rcases generation id g taken with old | ⟨-, fresh, ask, is, own⟩
    · rcases generation id' g taken' with old' | ⟨-, fresh, -⟩
      · exact tagged.single id id' g old old'
      · exact absurd old (fresh id)
    · rcases generation id' g taken' with old' | ⟨-, -, ask', is', own'⟩
      · exact absurd old' (fresh id')
      · obtain rfl := Option.some.inj (is.symm.trans is')
        exact own.trans own'.symm
  · intro g
    rw [effect.cachedEpoch, effect.modalEpoch]
    exact tagged.known g
  · intro id g taken empty isTag
    rw [effect.cachedEpoch] at isTag
    rcases effect.generation id with ⟨same, bare⟩ | ⟨isFirst, ask, is, -, epoch, options⟩
    · exact tagged.tag id g (same ▸ taken) (bare empty) isTag
    · obtain ⟨-, -, own⟩ := tagged.built b owner member isFirst ask is g (epoch ▸ taken)
      exact own (Option.some.inj (options.symm.trans empty)) isTag

theorem tagged_step {i : Step × ℕ} (tagged : Tagged w) (inStep : InStep w i) :
    Tagged ((machine cfg).step w i).1 := by
  obtain ⟨step, m⟩ := i
  have slots := Threads.step_section cfg (t := w.threads) step
  have minted := Threads.minted_step cfg tagged.minted step
  have commits : ∀ b owner, .commit b owner ∈ ((Threads.machine cfg).step w.threads step).1.todo →
      .commit b owner ∈ w.threads.todo ∨ w.threads.acts step = true ∧
        ∃ a view rest, w.threads.todo = .build a view :: rest ∧
          b = (w.threads.session.build a view).2 :=
    fun b owner member => Threads.commit_mem_step cfg step member
  have popped : ∀ b owner rest, w.threads.todo = .commit b owner :: rest → ∀ written now,
      ((Threads.machine cfg).step w.threads (.chore written now)).1.todo = rest := by
    intro b owner rest todo written now
    simp only [Threads.machine, Threads.runChore, todo]
    rfl
  simp only [machine]
  generalize is : (Threads.machine cfg).step w.threads step = r at slots commits minted
  generalize session : r.1.session = s at slots
  cases slots with
  | steady _ _ passive steady =>
    have head : w.opening step = none ∧ w.parses m step = w.parsed := by
      cases step with
      | «begin» op =>
        cases op with
        | cache obs => exact ⟨rfl, by rw [parses, if_neg (by simpa [Threads.acts] using passive)]⟩
        | _ => exact ⟨rfl, rfl⟩
      | chore written now =>
        refine ⟨?_, rfl⟩
        simp only [opening]
        split
        next todo =>
          rw [Threads.acts, todo] at passive
          cases passive
        next => rfl
      | _ => exact ⟨rfl, rfl⟩
    rw [head.1, head.2]
    subst session
    refine tagged.still minted steady.stamp steady.bare steady.modalEpoch steady.cachedEpoch
      fun b owner member => ?_
    refine (commits b owner member).resolve_right ?_
    rintro ⟨active, -⟩
    rw [passive] at active
    cases active
  | caches obs begins =>
    have free : w.threads.todo = [] := by
      simp only [Threads.begins, Bool.and_eq_true] at begins
      exact List.isEmpty_iff.mp begins.1.1
    have parsed : w.parses m (.begin (.cache obs)) = if obs.showsModal then some m else none :=
      if_pos begins
    rw [parsed]
    refine tagged.cache obs minted session (fun b owner member => ?_) fun shows waits g pending => ?_
    · rw [free] at commits
      rcases commits b owner member with old | ⟨-, a, view, rest, todo, -⟩
      · cases old
      · cases todo
    · exact inStep.1 (by rw [caches, begins, shows]; rfl) waits g pending
  | builds a view rest written now todo =>
    have single := tagged.minted.single
    rw [todo, List.countP_cons_of_pos (by rfl)] at single
    have alone : rest.countP Chore.publishes = 0 := by omega
    have opening : w.opening (.chore written now) =
        if w.threads.session.opensGeneration a then some a else none := by
      rw [Screened.opening, todo]
    have counts : (w.opening (.chore written now)).isSome =
        w.threads.session.opensGeneration a := by
      rw [opening]
      split
      next opens => rw [opens]; rfl
      next closed => rw [Bool.eq_false_iff.mpr closed]; rfl
    rw [counts]
    refine tagged.build a view minted session (fun b owner member => ?_) fun opens => ?_
    · rcases commits b owner member with old | ⟨-, a', view', rest', todo', built⟩
      · rw [todo] at old
        exact absurd rfl (List.countP_eq_zero.mp alone _
          ((List.mem_cons.mp old).resolve_left (by rintro ⟨⟩)))
      · injection todo.symm.trans todo' with head
        injection head with sameA sameView
        rw [built, sameA, sameView]
    · exact inStep.2 a (by rw [opening, if_pos opens]; rfl)
  | commits b owner rest written now todo =>
    have opening : w.opening (.chore written now) = none := by rw [Screened.opening, todo]
    have single := tagged.minted.single
    rw [todo, List.countP_cons_of_pos (by rfl)] at single
    have alone : rest.countP Chore.publishes = 0 := by omega
    rw [opening]
    refine tagged.commit b owner minted session (by rw [todo]; exact List.mem_cons_self)
      fun b' owner' member => ?_
    rw [← is, popped b owner rest todo] at member
    exact absurd rfl (List.countP_eq_zero.mp alone _ member)
  | freezes b rest written now todo =>
    have opening : w.opening (.chore written now) = none := by rw [Screened.opening, todo]
    rw [opening]
    have frozen : r.1.session.modalEpoch = w.threads.session.modalEpoch ∧
        r.1.session.lastModalEpoch = w.threads.session.lastModalEpoch ∧
        r.1.session.asks = w.threads.session.asks := by
      rw [session, Session.freezeIdle]
      split <;> exact ⟨rfl, rfl, rfl⟩
    refine tagged.still minted (fun id => ?_) (fun id => ?_) frozen.1 frozen.2.1
      fun b' owner' member => ?_
    · rw [Session.stamp, frozen.2.2, Session.stamp]
    · rw [Session.optionsOf, frozen.2.2, Session.optionsOf]
      exact fun is => is
    · refine (commits b' owner' member).resolve_right ?_
      rintro ⟨-, a, view, rest', todo', -⟩
      rw [todo] at todo'
      cases todo'

theorem tagged_started (id : SessionId) (events : EventQueue) : Tagged (started id events) where
  minted := Threads.minted_started id events
  counted := rfl
  distinct := List.nodup_nil
  filed _ _ taken := by cases taken
  single _ _ _ taken := by cases taken
  built _ _ member := by cases member
  known _ isTag := by cases isTag
  tag _ _ taken := by cases taken

/-- The options of a decision that a call hydrates are the cached ones, under its generation. -/
theorem hydrate_options {s : Session} {id other : DecisionId}
    (changed : (s.hydrateRespondOptions other).optionsOf id ≠ s.optionsOf id) :
    ∃ g, s.generation id = some g ∧ s.lastModalEpoch = some g ∧ s.optionsOf id = some [] ∧
      (s.hydrateRespondOptions other).optionsOf id = s.lastModalOptions := by
  simp only [Session.hydrateRespondOptions] at changed ⊢
  cases found : s.asks.lookup other with
  | none =>
    simp only [found] at changed
    exact absurd rfl changed
  | some ask =>
    cases cached : s.lastModalOptions with
    | none =>
      simp only [found, cached] at changed
      exact absurd rfl changed
    | some options =>
      simp only [found, cached] at changed ⊢
      by_cases fits : isChoice ask.promptKind = true ∧ ask.options = [] ∧ options ≠ [] ∧
          s.lastModalEpoch ≠ none ∧ s.lastModalEpoch = ask.modalEpoch
      · rw [if_pos fits] at changed ⊢
        obtain ⟨-, empty, -, isTagged, same⟩ := fits
        simp only [Session.updateAsk, found] at changed ⊢
        by_cases own : id = other
        · subst own
          obtain ⟨g, tag⟩ := Option.ne_none_iff_exists'.mp isTagged
          refine ⟨g, ?_, tag, by rw [Session.optionsOf, found, Option.map_some, empty], ?_⟩
          · rw [Session.generation, Session.stamp, found, ← tag, same]
            rfl
          · rw [Session.optionsOf, AList.lookup_insert, Session.fillOptions, if_pos empty]
            rfl
        · rw [Session.optionsOf, AList.lookup_insert_ne own] at changed
          exact absurd rfl changed
      · rw [if_neg fits] at changed
        exact absurd rfl changed

theorem Tagged.hydratesOwn (tagged : Tagged w) : HydratesOwn cfg w := by
  intro c expired written now id changed
  rcases Threads.advance_slots cfg (t := w.threads) c expired written now with
    ⟨other, hydrated⟩ | ⟨-, same⟩
  · rw [hydrated] at changed ⊢
    obtain ⟨g, generation, tag, empty, options⟩ := hydrate_options changed
    obtain ⟨m, parsed⟩ := Option.ne_none_iff_exists'.mp (tagged.known g tag).2
    have there := tagged.tag id g generation empty tag
    rw [parsed] at there
    refine ⟨g, m, generation, parsed, fun g' => ⟨fun other => ?_, ?_⟩, options⟩
    · obtain ⟨inside, is⟩ := List.getElem?_eq_some_iff.mp there
      obtain ⟨inside', is'⟩ := List.getElem?_eq_some_iff.mp other
      exact (tagged.distinct.getElem_inj_iff.mp (is'.trans is.symm))
    · rintro rfl
      exact there
  · rw [Session.optionsOf, same] at changed
    exact absurd rfl changed

/-- In every run whose frames and announcements are in step, whatever the order in which frames
are cached, hooks publish and answers come: a modal is answered with the options of its own
frame. -/
theorem hydrated_from_own (id : SessionId) (events : EventQueue) (run : List (Step × ℕ))
    (inStep : (machine cfg).Along InStep (started id events) run) :
    HydratesOwn cfg ((machine cfg).after (started id events) run) :=
  ((machine cfg).invariant_along Tagged (fun _ _ tagged inStep => tagged_step cfg tagged inStep)
    (tagged_started id events) inStep).hydratesOwn cfg

/-- A permission prompt that a hook announces, without options. -/
def permissionAsked (epoch : ℕ) : Announcement :=
  { kind := .waitingForUser, requiresResponse := some true
    decisionKey := some (.engine (.hookPause epoch)), promptKind := some .permissionChoice }

/-- The frame of the first prompt. -/
def firstPrompt : MonitorOp :=
  .cache { promptKind := .permissionChoice, options := [⟨"1", "Allow the read"⟩] }

/-- The first prompt is announced, and the monitor caches its frame. -/
def promptShown : List (Step × ℕ) :=
  [(.begin (.deliver "task" true 0), 0), (.begin (.announce (permissionAsked 0) {}), 0),
    (.chore true 0, 0), (.chore true 0, 0), (.chore true 0, 0), (.begin firstPrompt, 0),
    (.call "1" true (some (.dec "s" 0)), 0), (.advance 0 false true 0, 0)]

/-- It is answered, the next frame still shows it, and the second prompt is announced before any
other frame. The answer to that one names an option too. -/
def promptLingers : List (Step × ℕ) :=
  promptShown ++ List.replicate 7 (.advance 0 false true 1, 0) ++
    [(.begin firstPrompt, 0), (.begin (.announce (permissionAsked 1) {}), 1),
      (.chore true 2, 1), (.chore true 2, 1), (.chore true 2, 1),
      (.call "1" true (some (.dec "s" 1)), 1), (.advance 1 false true 2, 1)]

theorem hydrated_promptShown :
    HydratesOwn {} ((machine {}).after (started "s" {}) promptShown) ∧
      (((machine {}).after (started "s" {}) promptShown).threads.advance {} 0 false true
        1).session.optionsOf (.dec "s" 0) = some [⟨"1", "Allow the read"⟩] :=
  ⟨hydrated_from_own {} "s" {} promptShown (by decide +kernel), by decide +kernel⟩

theorem promptLingers_hydrates :
    ¬ HydratesOwn {} ((machine {}).after (started "s" {}) promptLingers) ∧
      ((machine {}).after (started "s" {}) (promptLingers ++
        List.replicate 7 (.advance 1 false true 3, 1))).threads.writes =
          [⟨0, .dec "s" 0, true⟩, ⟨1, .dec "s" 1, true⟩] := by
  refine ⟨fun own => ?_, by decide +kernel⟩
  obtain ⟨g, m, generation, parsed, is, -⟩ := own 1 false true 2 (.dec "s" 1) (by decide +kernel)
  have second : ((machine {}).after (started "s" {}) promptLingers).threads.session.generation
      (.dec "s" 1) = some 1 := by decide +kernel
  have first : ((machine {}).after (started "s" {}) promptLingers).parsed = some 0 := by
    decide +kernel
  have modals : ((machine {}).after (started "s" {}) promptLingers).modals = [0, 1] := by
    decide +kernel
  obtain rfl : g = 1 := Option.some.inj (generation.symm.trans second)
  obtain rfl : m = 0 := Option.some.inj (parsed.symm.trans first)
  have there := (is 0).mp (by rw [modals]; rfl)
  cases there

end Screened

end Nelix.Daemon
