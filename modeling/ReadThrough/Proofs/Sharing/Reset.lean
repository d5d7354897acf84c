import ReadThrough.Proofs.Freshness.FailedDeletions
import ReadThrough.Proofs.Sharing.Confinement

/-! # Resets

A reset zeroes the counters in its first turn, and then sweeps all that is held under the id of the cache. The sweep
may be refused, and the counters stay at zero then.

* `World.Performs` relates a world to the one that a list of actions leads to, and `World.EachTurn` speaks of the turns
  that one activity takes on the way;
* `Activity.MovesReset` are the turns of a reset, and `RequestStage.IsClosed` the properties of its stage that they
  keep;
* `World.reset_zeroes_then_sweeps` is the theorem, for any actions of others in between, and
  `World.failed_reset_zeroed_counters` a reset that fails and has zeroed the counters.
-/

namespace ReadThrough
set_option autoImplicit false

variable {ρ σ : Type}

/-! ## Turns on the way -/

/-- Whose turn an action is. -/
def Action.mover? : Action ρ σ → Option ActivityId
  | .move turn => some turn.activity
  | _ => none

namespace World

section

variable [Medium σ] {w w' v : World ρ σ} {action : Action ρ σ} {actions before after : List (Action ρ σ)}

/-- These actions can be carried out one after another, and lead to the second world. -/
def Performs (w : World ρ σ) (actions : List (Action ρ σ)) (w' : World ρ σ) : Prop :=
  ∃ log, w.perform? Unrestricted actions = some (w', log)

theorem performs_nil_iff : w.Performs [] w' ↔ w = w' := by
  simp [Performs, perform?]

theorem performs_cons_iff :
    w.Performs (action :: actions) w' ↔ ∃ next, w.act? action = some next ∧ next.Performs actions w' := by
  simp only [Performs, perform?_cons_iff]
  constructor
  · rintro ⟨_, -, next, later, acts, run, -⟩
    exact ⟨next, acts, later, run⟩
  · rintro ⟨next, acts, later, run⟩
    exact ⟨_, trivial, next, later, acts, run, rfl⟩

theorem performs_append_iff :
    w.Performs (before ++ after) w' ↔ ∃ v, w.Performs before v ∧ v.Performs after w' := by
  induction before generalizing w with
  | nil => simp [performs_nil_iff]
  | cons action rest ih =>
    simp only [List.cons_append, performs_cons_iff, ih]
    constructor
    · rintro ⟨next, acts, v, first, second⟩
      exact ⟨v, ⟨next, acts, first⟩, second⟩
    · rintro ⟨v, ⟨next, acts, first⟩, second⟩
      exact ⟨next, acts, v, first, second⟩

theorem Performs.unique (run : w.Performs actions w') (run' : w.Performs actions v) : w' = v := by
  obtain ⟨log, run⟩ := run
  obtain ⟨log', run'⟩ := run'
  exact (Prod.mk.inj (Option.some.inj (run.symm.trans run'))).1

/-- The world after a turn leads to wherever the actions lead. -/
theorem Performs.rest {u : World ρ σ} (run : w.Performs (before ++ action :: after) w') (first : w.Performs before u)
    (acts : u.act? action = some v) : v.Performs after w' := by
  obtain ⟨u', first', rest⟩ := performs_append_iff.mp run
  obtain rfl := first.unique first'
  obtain ⟨v', acts', last⟩ := performs_cons_iff.mp rest
  obtain rfl := Option.some.inj (acts.symm.trans acts')
  exact last

/-- Each turn that the activity takes, while these actions are carried out, leads from a world to one that is related
to it in this way. -/
def EachTurn (mover : ActivityId) (w : World ρ σ) (actions : List (Action ρ σ))
    (Turn : World ρ σ → World ρ σ → Prop) : Prop :=
  ∀ before action after u v, actions = before ++ action :: after → action.mover? = some mover →
    w.Performs before u → u.act? action = some v → Turn u v

theorem EachTurn.later {mover : ActivityId} {Turn : World ρ σ → World ρ σ → Prop}
    (turns : w.EachTurn mover (before ++ after) Turn) (first : w.Performs before v) : v.EachTurn mover after Turn := by
  rintro passed action rest u u' rfl mine run acts
  exact turns (before ++ passed) action rest u u' (List.append_assoc ..).symm mine
    (performs_append_iff.mpr ⟨v, first, run⟩) acts

/-- What each turn does is done in the end, if nobody else takes one. -/
theorem EachTurn.chain {mover : ActivityId} {Turn : World ρ σ → World ρ σ → Prop} (refl : ∀ u, Turn u u)
    (trans : ∀ {a b c}, Turn a b → Turn b c → Turn a c)
    (alone : ∀ action ∈ actions, action.mover? = some mover)
    (turns : w.EachTurn mover actions Turn) (run : w.Performs actions w') : Turn w w' := by
  induction actions generalizing w with
  | nil => exact performs_nil_iff.mp run ▸ refl w
  | cons action rest ih =>
    obtain ⟨next, acts, later⟩ := performs_cons_iff.mp run
    obtain ⟨mine, others⟩ := List.forall_mem_cons.mp alone
    have hfirst : Turn w next := turns [] action rest w next rfl mine (performs_nil_iff.mpr rfl) acts
    have hsingle : w.Performs [action] next := performs_cons_iff.mpr ⟨next, acts, performs_nil_iff.mpr rfl⟩
    have hturns : w.EachTurn mover ([action] ++ rest) Turn := turns
    exact trans hfirst (ih others (hturns.later hsingle) later)

end

end World

/-! ## Turns of a reset -/

/-- What a turn of a reset makes of the cache, the store and the stage: it begins, the store takes a step of its sweep,
it takes in the reply, or it is broken off. -/
inductive Activity.MovesReset [Medium σ] (now : Nat) (c : Cache) (store : σ) :
    RequestStage .done → Cache → σ → RequestStage .done → Prop
  | start : MovesReset now c store .ready { c with counters := {} } store (.waiting (.asked (.sweep c.space.id)))
  | sweep {operation taken} (unanswered : ∀ reply, operation ≠ .answered reply)
      (steps : Medium.step? now store operation = some taken) :
    MovesReset now c store (.waiting operation) c taken.store (.waiting taken.operation)
  | finish {reply} : MovesReset now c store (.waiting (.answered reply)) c store (.ended reply)
  | abort {stage} (unended : ∀ reply, stage ≠ .ended reply) : MovesReset now c store stage c store .aborted

section

variable [Medium σ] {now : Nat} {c : Cache} {store : σ} {stage : RequestStage .done} {move : Move ρ}
  {step : ActivityStep ρ σ}

theorem Activity.move?_reset (taken : (Activity.request .reset stage).move? now c store move = some step) :
    step.spawned = [] ∧ ∃ stage', step.activity = .request .reset stage' ∧
      MovesReset now c store stage step.cache step.store stage' := by
  cases move with
  | go =>
    cases stage with
    | ready =>
      obtain rfl := Option.some.inj taken
      exact ⟨rfl, _, rfl, .start⟩
    | waiting operation =>
      cases operation with
      | answered reply =>
        obtain rfl := Option.some.inj taken
        exact ⟨rfl, _, rfl, .finish⟩
      | asked | held | sweeping =>
        obtain ⟨moved, steps, rfl⟩ := Option.map_eq_some_iff.mp taken
        exact ⟨rfl, _, rfl, .sweep (fun reply h => by cases h) steps⟩
    | ended | aborted => cases taken
  | goJob => cases taken
  | deliver => cases taken
  | abort =>
    cases stage with
    | ready | waiting =>
      obtain rfl := Option.some.inj taken
      exact ⟨rfl, _, rfl, .abort fun reply h => by cases h⟩
    | ended | aborted => cases taken

namespace World

/-- The activity is a reset at this stage. -/
def Resets (w : World ρ σ) (i : ActivityId) (stage : RequestStage .done) : Prop :=
  w.node.activities[i]? = some (.request .reset stage)

variable {w w' : World ρ σ} {i : ActivityId} {action : Action ρ σ} {actions : List (Action ρ σ)}

/-- A turn of the reset takes place at one time and leaves the other activities as they are. -/
structure ResetTurn (i : ActivityId) (stage stage' : RequestStage .done) (w w' : World ρ σ) : Prop where
  now : w'.now = w.now
  others : ∀ j, j ≠ i → w'.node.activities[j]? = w.node.activities[j]?
  reached : w'.Resets i stage'
  moves : Activity.MovesReset w.now w.node.cache w.store stage w'.node.cache w'.store stage'

theorem Resets.turn (is : w.Resets i stage) (mine : action.mover? = some i) (acts : w.act? action = some w') :
    ∃ stage', ResetTurn i stage stage' w w' := by
  cases action with
  | move move =>
    obtain rfl : move.activity = i := Option.some.inj mine
    obtain ⟨activity, step, found, taken, rfl⟩ := act?_move_iff.mp acts
    obtain rfl := Option.some.inj (is.symm.trans found)
    obtain ⟨hspawned, stage', hactivity, hmoves⟩ := Activity.move?_reset taken
    refine ⟨stage', rfl, fun j differs => ?_, ?_, hmoves⟩
    · simp [after, hspawned, List.getElem?_set_ne (Ne.symm differs)]
    · rw [Resets, after_activities_mover found, hactivity]
  | _ => cases mine

/-- A reset stays where it is in the turns of others. -/
theorem Resets.keeps (is : w.Resets i stage) (other : action.mover? ≠ some i) (acts : w.act? action = some w') :
    w'.Resets i stage := by
  cases action with
  | move move =>
    obtain ⟨activity, step, found, taken, rfl⟩ := act?_move_iff.mp acts
    exact after_activities_other step (fun h => other (congrArg some h.symm)) is
  | read | change | request =>
    obtain rfl := Option.some.inj acts
    exact enter_activities_of_some _ is
  | forget | wait | disturb =>
    obtain rfl := Option.some.inj acts
    exact is

end World

/-- The turns of a reset keep this property of its stage. -/
def RequestStage.IsClosed (σ : Type) [Medium σ] (P : RequestStage .done → Prop) : Prop :=
  ∀ {now : Nat} {c c' : Cache} {store store' : σ} {stage stage' : RequestStage .done}, P stage →
    Activity.MovesReset now c store stage c' store' stage' → P stage'

theorem World.Resets.performs {P : RequestStage .done → Prop} {w w' : World ρ σ} {i : ActivityId}
    {actions : List (Action ρ σ)} (closed : RequestStage.IsClosed σ P) (is : w.Resets i stage) (holds : P stage)
    (run : w.Performs actions w') : ∃ stage', w'.Resets i stage' ∧ P stage' := by
  induction actions generalizing w stage with
  | nil => exact performs_nil_iff.mp run ▸ ⟨stage, is, holds⟩
  | cons action rest ih =>
    obtain ⟨next, acts, later⟩ := performs_cons_iff.mp run
    by_cases mine : action.mover? = some i
    · obtain ⟨stage', hturn⟩ := is.turn mine acts
      exact ih hturn.reached (closed holds hturn.moves) later
    · exact ih (is.keeps mine acts) holds later

end

/-! ## Stages that are kept -/

namespace RequestStage

/-- The reset has sent its sweep off, or was broken off. -/
inductive CarriesOut (call : Call .done) : RequestStage .done → Prop
  | waiting {operation} (carries : operation.CarriesOut call) : CarriesOut call (.waiting operation)
  | ended {reply} : CarriesOut call (.ended reply)
  | aborted : CarriesOut call .aborted

/-- The sweep was answered in this way. -/
inductive Settled (reply : Reply .done) : RequestStage .done → Prop
  | waiting : Settled reply (.waiting (.answered reply))
  | ended : Settled reply (.ended reply)
  | aborted : Settled reply .aborted

/-- The sweep has begun to act, and will not be refused any more. -/
inductive Acts : RequestStage .done → Prop
  | waiting {operation} (acting : operation.IsActing) : Acts (.waiting operation)
  | ended : Acts (.ended (.ok ()))
  | aborted : Acts .aborted

variable [Medium σ] {call : Call .done} {reply : Reply .done}

theorem Settled.isClosed : IsClosed σ (Settled reply) := by
  intro now c c' store store' stage stage' settled moves
  cases moves with
  | start => cases settled
  | sweep unanswered =>
    cases settled
    exact absurd rfl (unanswered reply)
  | finish =>
    cases settled
    exact .ended
  | abort => exact .aborted

theorem isClosed_aborted : IsClosed σ (· = .aborted) := by
  rintro now c c' store store' stage stage' rfl moves
  cases moves with
  | abort => rfl

variable [LawfulMedium σ] [DecisiveMedium σ]

theorem CarriesOut.isClosed [ExactMedium σ] (deletion : call.IsDeletion) : IsClosed σ (CarriesOut call) := by
  intro now c c' store store' stage stage' carries moves
  cases moves with
  | start => cases carries
  | sweep unanswered steps =>
    cases carries with
    | waiting carries => exact .waiting (carries.goesOn deletion unanswered steps)
  | finish => exact .ended
  | abort => exact .aborted

theorem Acts.isClosed : IsClosed σ Acts := by
  intro now c c' store store' stage stage' acts moves
  cases moves with
  | start => cases acts
  | @sweep operation taken unanswered steps =>
    cases acts with
    | waiting acting =>
      have hdeletion : operation.IsDeletion := by
        cases operation with
        | asked | held => exact acting.elim
        | sweeping => trivial
        | answered reply => exact absurd rfl (unanswered reply)
      cases DecisiveMedium.deletionStep steps hdeletion with
      | waits asks => exact absurd acting asks.not_isActing
      | refused asks => exact absurd acting asks.not_isActing
      | acts acting => exact .waiting acting
  | @finish reply =>
    cases acts with
    | waiting acting =>
      cases reply with
      | ok => exact .ended
      | error => exact acting.elim
  | abort => exact .aborted

end RequestStage

/-! ## Entries in the turns of a reset -/

namespace Activity.MovesReset

variable [Medium σ] [LawfulMedium σ] {now : Nat} {c c' : Cache} {store store' : σ}
  {stage stage' : RequestStage .done} {call : Call .done} {key value : String}

omit [LawfulMedium σ] in
theorem of_ready (h : MovesReset now c store .ready c' store' stage') :
    (c' = { c with counters := {} } ∧ store' = store ∧ stage' = .waiting (.asked (.sweep c.space.id))) ∨
      stage' = .aborted := by
  cases h with
  | start => exact .inl ⟨rfl, rfl, rfl⟩
  | abort => exact .inr rfl

omit [LawfulMedium σ] in
theorem cache_eq (h : MovesReset now c store stage c' store' stage') (carries : stage.CarriesOut call) : c' = c := by
  cases h with
  | start => cases carries
  | sweep | finish | abort => rfl

/-- Nothing is stored. -/
theorem of_holds (h : MovesReset now c store stage c' store' stage') (carries : stage.CarriesOut call)
    (deletion : call.IsDeletion) (held : LawfulMedium.Holds store' now key value) :
    LawfulMedium.Holds store now key value := by
  cases h with
  | start | finish | abort => exact held
  | sweep unanswered steps =>
    cases carries with
    | waiting carries =>
      have hdeletion := carries.isDeletion deletion unanswered
      exact (LawfulMedium.of_holds steps held).resolve_right
        (Operation.not_stores_of_isDeletion hdeletion key value)

/-- What the sweep does not cover is kept. -/
theorem spares [ExactMedium σ] (h : MovesReset now c store stage c' store' stage') (carries : stage.CarriesOut call)
    (deletion : call.IsDeletion) (spared : ¬ call.Deletes key) (held : LawfulMedium.Holds store now key value) :
    LawfulMedium.Holds store' now key value := by
  cases h with
  | start | finish | abort => exact held
  | sweep unanswered steps =>
    cases carries with
    | waiting carries =>
      have hdeletion := carries.isDeletion deletion unanswered
      exact ExactMedium.spares steps hdeletion held fun deletes => spared (carries.deletes deletes)

/-- A sweep that has not acted after a turn has done nothing in it. -/
theorem holds_iff_of_idle [DecisiveMedium σ] (h : MovesReset now c store stage c' store' stage')
    (carries : stage.CarriesOut call) (deletion : call.IsDeletion) (idle : ¬ stage'.Acts) (key value : String) :
    LawfulMedium.Holds store' now key value ↔ LawfulMedium.Holds store now key value := by
  cases h with
  | start | finish | abort => exact Iff.rfl
  | sweep unanswered steps =>
    cases carries with
    | waiting carries =>
      have hdeletion := carries.isDeletion deletion unanswered
      cases DecisiveMedium.deletionStep steps hdeletion with
      | waits _ _ same => exact same key value
      | refused _ _ same => exact same key value
      | acts acting => exact absurd (.waiting acting) idle

/-- What the sweep was to delete is gone after a turn, or still to be deleted, or the sweep has failed. -/
theorem deletes [ExactMedium σ] [DecisiveMedium σ] [CandidMedium σ] {operation : Operation .done}
    (h : MovesReset now c store (.waiting operation) c' store' stage') (carries : operation.CarriesOut call)
    (deletion : call.IsDeletion) (deletes : operation.Deletes key) :
    (∃ operation', stage' = .waiting operation' ∧ operation'.CarriesOut call ∧
      ∀ value, LawfulMedium.Holds store' now key value → operation'.Deletes key) ∨
    ∃ fault, stage'.Settled (.error fault) := by
  cases h with
  | @sweep _ taken unanswered steps =>
    have hcarries := carries.goesOn deletion unanswered steps
    by_cases unfailed : taken.operation.IsDeletion
    · exact .inl ⟨_, rfl, hcarries, fun value held => CandidMedium.deletes steps unfailed deletes held⟩
    · right
      generalize taken.operation = operation' at hcarries unfailed
      cases hcarries with
      | waiting asks =>
        rcases asks with rfl | rfl
        · exact absurd deletion unfailed
        · exact absurd deletion unfailed
      | sweeping => exact absurd trivial unfailed
      | succeeded => exact absurd ⟨(), rfl⟩ unfailed
      | refused failure => exact ⟨_, .waiting⟩
  | finish => exact deletes.elim
  | abort => exact .inr ⟨.brokeDown, .aborted⟩

end Activity.MovesReset

namespace World

section

variable [Medium σ] [LawfulMedium σ] {space : KeyLayout} {w w' u v : World ρ σ} {i : ActivityId}
  {stage stage' : RequestStage .done} {operation : Operation .done} {actions : List (Action ρ σ)}

/-- The cache stays as it is, nothing is stored, and what is not held under the id is kept. -/
structure KeepsOthers (space : KeyLayout) (w w' : World ρ σ) : Prop where
  cache : w'.node.cache = w.node.cache
  held : ∀ key value, w'.Holds key value → w.Holds key value
  others : ∀ key value, ¬ space.Owns key → w.Holds key value → w'.Holds key value

theorem KeepsOthers.refl (space : KeyLayout) (w : World ρ σ) : KeepsOthers space w w :=
  ⟨rfl, fun _ _ => id, fun _ _ _ => id⟩

theorem KeepsOthers.trans (first : KeepsOthers space w u) (second : KeepsOthers space u w') :
    KeepsOthers space w w' where
  cache := second.cache.trans first.cache
  held key value h := first.held key value (second.held key value h)
  others key value spared h := second.others key value spared (first.others key value spared h)

theorem ResetTurn.holds_iff (turn : ResetTurn i stage stage' u v) (key value : String) :
    v.Holds key value ↔ LawfulMedium.Holds v.store u.now key value := by
  rw [Holds, turn.now]

theorem ResetTurn.keepsOthers [ExactMedium σ] (turn : ResetTurn i stage stage' u v)
    (carries : stage.CarriesOut (.sweep space.id)) : KeepsOthers space u v where
  cache := turn.moves.cache_eq carries
  held key value h := turn.moves.of_holds carries trivial ((turn.holds_iff key value).mp h)
  others key value spared h := (turn.holds_iff key value).mpr (turn.moves.spares carries trivial spared h)

variable [ExactMedium σ] [DecisiveMedium σ]

/-- While a sweep that will succeed is carried out, each key that it covers is without an entry at some time. -/
theorem exists_absent [CandidMedium σ] {key : String} (is : u.Resets i (.waiting operation))
    (carries : operation.CarriesOut (.sweep space.id))
    (pending : ∀ value, u.Holds key value → operation.Deletes key) (run : u.Performs actions w')
    (returned : w'.Resets i (.ended (.ok ()))) :
    ∃ past rest v, actions = past ++ rest ∧ u.Performs past v ∧ ∀ value, ¬ v.Holds key value := by
  induction actions generalizing u operation with
  | nil =>
    obtain rfl := performs_nil_iff.mp run
    cases is.symm.trans returned
  | cons action rest ih =>
    by_cases absent : ∀ value, ¬ u.Holds key value
    · exact ⟨[], action :: rest, u, rfl, performs_nil_iff.mpr rfl, absent⟩
    obtain ⟨value, held⟩ := not_forall_not.mp absent
    have hdeletes := pending value held
    obtain ⟨next, acts, later⟩ := performs_cons_iff.mp run
    have hlater : (∃ past rest' v, rest = past ++ rest' ∧ next.Performs past v ∧ ∀ value, ¬ v.Holds key value) →
        ∃ past rest' v, action :: rest = past ++ rest' ∧ u.Performs past v ∧ ∀ value, ¬ v.Holds key value := by
      rintro ⟨past, rest', v, split, first, gone⟩
      exact ⟨action :: past, rest', v, congrArg (action :: ·) split, performs_cons_iff.mpr ⟨next, acts, first⟩, gone⟩
    apply hlater
    by_cases mine : action.mover? = some i
    · obtain ⟨stage', hturn⟩ := is.turn mine acts
      rcases hturn.moves.deletes carries trivial hdeletes with ⟨operation', rfl, carries', pending'⟩ | ⟨fault, failed⟩
      · exact ih hturn.reached carries' (fun value held => pending' value ((hturn.holds_iff key value).mp held)) later
      · obtain ⟨last, hlast, settled⟩ := hturn.reached.performs RequestStage.Settled.isClosed failed later
        cases returned.symm.trans hlast
        cases settled
    · exact ih (is.keeps mine acts) carries (fun _ _ => hdeletes) later

/-! ## Resets that return -/

/-- The first turn of a reset zeroes the counters, and leaves all else as it is. -/
structure ZeroesCounters (i : ActivityId) (w w' : World ρ σ) : Prop where
  cache : w'.node.cache = { w.node.cache with counters := {} }
  store : w'.store = w.store
  now : w'.now = w.now
  others : ∀ j, j ≠ i → w'.node.activities[j]? = w.node.activities[j]?

def SameEntries (w w' : World ρ σ) : Prop := ∀ key value, w'.Holds key value ↔ w.Holds key value

/-- From any time at which the sweep has not been taken up, each key under the id is without an entry at some later
time. -/
def Empties (i : ActivityId) (w : World ρ σ) (actions : List (Action ρ σ)) : Prop :=
  ∀ waiting sweeping u operation, actions = waiting ++ sweeping → w.Performs waiting u →
    u.Resets i (.waiting operation) → operation.Asks (.sweep w.node.cache.space.id) →
    ∀ key, w.node.cache.space.Owns key →
      ∃ past rest v, sweeping = past ++ rest ∧ u.Performs past v ∧ ∀ value, ¬ v.Holds key value

/-- What a reset has done since its first turn, when it returns. The world is the one after that turn, and these are
the actions since then. -/
structure SweepsOwn (i : ActivityId) (w : World ρ σ) (actions : List (Action ρ σ)) (w' : World ρ σ)
    (reply : Reply .done) : Prop where
  /-- It touches neither the counters nor an entry under another id, and stores nothing. -/
  turns : w.EachTurn i actions (KeepsOthers w.node.cache.space)
  foreign : ∀ other : KeyLayout, ColonFree other.id → ColonFree w.node.cache.space.id →
    other.id ≠ w.node.cache.space.id → ∀ key, other.Owns key → ¬ w.node.cache.space.Owns key
  swept : reply = .ok () → w.Empties i actions
  refused : ∀ fault, reply = .error fault → w.EachTurn i actions SameEntries
  /-- With nothing else going on, only the entries under the id are gone, or none is. -/
  alone : (∀ action ∈ actions, action.mover? = some i) → w'.node.cache = w.node.cache ∧
    (reply = .ok () → ∀ key value, w'.Holds key value ↔ w.Holds key value ∧ ¬ w.node.cache.space.Owns key) ∧
    ∀ fault, reply = .error fault → SameEntries w w'

end

section

variable [Medium σ] [LawfulMedium σ] [ExactMedium σ] [DecisiveMedium σ] [CandidMedium σ] {w w' : World ρ σ}
  {i : ActivityId} {actions : List (Action ρ σ)} {reply : Reply .done}

omit [LawfulMedium σ] [ExactMedium σ] [DecisiveMedium σ] [CandidMedium σ] in
/-- A reset that returns has taken a first turn. -/
theorem exists_first_turn (called : w.Resets i .ready) (run : w.Performs actions w')
    (returned : w'.Resets i (.ended reply)) :
    ∃ before turn after u v, actions = before ++ turn :: after ∧ turn.mover? = some i ∧
      (∀ action ∈ before, action.mover? ≠ some i) ∧ w.Performs before u ∧ u.act? turn = some v ∧
      v.Performs after w' ∧ ZeroesCounters i u v ∧
      v.Resets i (.waiting (.asked (.sweep v.node.cache.space.id))) := by
  induction actions generalizing w with
  | nil =>
    obtain rfl := performs_nil_iff.mp run
    cases called.symm.trans returned
  | cons action rest ih =>
    obtain ⟨next, acts, later⟩ := performs_cons_iff.mp run
    by_cases mine : action.mover? = some i
    · obtain ⟨stage, hturn⟩ := called.turn mine acts
      have hreached := hturn.reached
      rcases hturn.moves.of_ready with ⟨hcache, hstore, rfl⟩ | rfl
      · refine ⟨[], action, rest, w, next, rfl, mine, List.forall_mem_nil _, performs_nil_iff.mpr rfl, acts, later,
          ⟨hcache, hstore, hturn.now, hturn.others⟩, ?_⟩
        rw [hcache]
        exact hreached
      · obtain ⟨last, hlast, rfl⟩ := hreached.performs RequestStage.isClosed_aborted rfl later
        cases returned.symm.trans hlast
    · obtain ⟨before, turn, after, u, v, rfl, turned, others, first, found⟩ := ih (called.keeps mine acts) later
      exact ⟨action :: before, turn, after, u, v, rfl, turned, List.forall_mem_cons.mpr ⟨mine, others⟩,
        performs_cons_iff.mpr ⟨next, acts, first⟩, found⟩

theorem empties_of_ended (run : w.Performs actions w') (returned : w'.Resets i (.ended (.ok ()))) :
    w.Empties i actions := by
  rintro waiting sweeping u operation rfl first is asks key owns
  obtain ⟨u', first', later⟩ := performs_append_iff.mp run
  obtain rfl := first.unique first'
  exact exists_absent is (.waiting asks) (fun _ _ => (asks.deletes_iff key).mpr owns) later returned

section

variable (asked : w.Resets i (.waiting (.asked (.sweep w.node.cache.space.id))))

include asked

omit [CandidMedium σ] in
theorem carriesOut_of_asked {before : List (Action ρ σ)} {u : World ρ σ} (run : w.Performs before u) :
    ∃ stage, u.Resets i stage ∧ stage.CarriesOut (.sweep w.node.cache.space.id) :=
  have deletion : (Call.sweep w.node.cache.space.id).IsDeletion := trivial
  asked.performs (RequestStage.CarriesOut.isClosed deletion) (.waiting (.waiting (.inl rfl))) run

omit [CandidMedium σ] in
theorem keepsOthers_of_asked : w.EachTurn i actions (KeepsOthers w.node.cache.space) := by
  intro before action after u v split mine first acts
  obtain ⟨stage, is, carries⟩ := carriesOut_of_asked asked first
  obtain ⟨stage', hturn⟩ := is.turn mine acts
  exact hturn.keepsOthers carries

omit [CandidMedium σ] in
theorem sameEntries_of_asked {fault : Fault} (run : w.Performs actions w')
    (returned : w'.Resets i (.ended (.error fault))) : w.EachTurn i actions SameEntries := by
  rintro before action after u v rfl mine first acts key value
  obtain ⟨stage, is, carries⟩ := carriesOut_of_asked asked first
  obtain ⟨stage', hturn⟩ := is.turn mine acts
  -- a sweep that had begun to act would not fail any more
  have hidle : ¬ stage'.Acts := by
    intro acting
    obtain ⟨last, hlast, hacts⟩ := hturn.reached.performs RequestStage.Acts.isClosed acting (run.rest first acts)
    cases returned.symm.trans hlast
    cases hacts
  rw [hturn.holds_iff]
  exact hturn.moves.holds_iff_of_idle carries trivial hidle key value

/-- An entry under the id would still be there at the time at which its key was without one. -/
theorem not_owns_of_asked {key value : String} (alone : ∀ action ∈ actions, action.mover? = some i)
    (run : w.Performs actions w') (returned : w'.Resets i (.ended (.ok ()))) (held : w'.Holds key value) :
    ¬ w.node.cache.space.Owns key := by
  intro owns
  obtain ⟨past, rest, v, rfl, first, absent⟩ :=
    empties_of_ended run returned [] actions w _ rfl (performs_nil_iff.mpr rfl) asked (.inl rfl) key owns
  obtain ⟨v', first', later⟩ := performs_append_iff.mp run
  obtain rfl := first.unique first'
  have hturns : v.EachTurn i rest (KeepsOthers w.node.cache.space) := (keepsOthers_of_asked asked).later first
  have alone' : ∀ action ∈ rest, action.mover? = some i := fun action mem =>
    alone action (List.mem_append_right past mem)
  have hkept : KeepsOthers w.node.cache.space v w' :=
    hturns.chain (KeepsOthers.refl _) KeepsOthers.trans alone' later
  exact absent value (hkept.held key value held)

theorem sweepsOwn_of_asked (run : w.Performs actions w') (returned : w'.Resets i (.ended reply)) :
    SweepsOwn i w actions w' reply where
  turns := keepsOthers_of_asked asked
  foreign other free free' differ key owns := KeyLayout.not_owns_of_owns free free' differ owns
  swept := by
    rintro rfl
    exact empties_of_ended run returned
  refused := by
    rintro fault rfl
    exact sameEntries_of_asked asked run returned
  alone := by
    intro alone
    have hkept : KeepsOthers w.node.cache.space w w' :=
      (keepsOthers_of_asked asked).chain (KeepsOthers.refl _) KeepsOthers.trans alone run
    refine ⟨hkept.cache, ?_, ?_⟩
    · rintro rfl key value
      constructor
      · intro held
        exact ⟨hkept.held key value held, not_owns_of_asked asked alone run returned held⟩
      · rintro ⟨held, spared⟩
        exact hkept.others key value spared held
    · rintro fault rfl
      exact (sameEntries_of_asked asked run returned).chain (fun _ _ _ => Iff.rfl)
        (fun first second key value => (second key value).trans (first key value)) alone run

end

/-- **A reset zeroes the counters, and then sweeps**, whatever others do before, between and after its turns. In its
first turn both counters become zero and nothing else happens, so they are zeroed whether the sweep succeeds or fails.
Later the reset only takes away entries under its own id: each of them at some time, if it succeeds, and none, if it
fails. -/
theorem reset_zeroes_then_sweeps (called : w.Resets i .ready) (run : w.Performs actions w')
    (returned : w'.Resets i (.ended reply)) :
    ∃ before turn after u v, actions = before ++ turn :: after ∧ turn.mover? = some i ∧
      (∀ action ∈ before, action.mover? ≠ some i) ∧ w.Performs before u ∧ u.act? turn = some v ∧
      v.Performs after w' ∧ ZeroesCounters i u v ∧ SweepsOwn i v after w' reply := by
  obtain ⟨before, turn, after, u, v, split, mine, others, first, acts, later, zeroes, asked⟩ :=
    exists_first_turn called run returned
  exact ⟨before, turn, after, u, v, split, mine, others, first, acts, later, zeroes,
    sweepsOwn_of_asked asked later returned⟩

end

/-! ## A reset among reads, and one that fails -/

/-- A read waits for the data source, something is stored under another id, and a reset is called. -/
def amidRead : List (Action Row RecordingStore) :=
  [.read usersRead Row.integers, .move (.go 0), .move (.go 0), .move (.go 0), .request .reset]

def neighboured : World Row RecordingStore :=
  { atRest with store := { entries := (∅ : Std.TreeMap String String).insert "b:p:users:7" "7" } }

/-- The counters are zeroed, the read stores its rows, and the sweep takes them away. -/
def resetAmidRead : List (Action Row RecordingStore) :=
  [.move (.go 1), .move (.deliver 0 (.answered (some (.one (.integer 5))))), .move (.goJob 0 0), .move (.go 1),
    .move (.go 1)]

theorem reset_swept_amid_read :
    ∃ (w w' : World Row RecordingStore) (log : List (Event Row)),
      neighboured.IsNew ∧ Runs Unrestricted neighboured log w ∧ w.node.cache.counters = ⟨0, 1⟩ ∧
      w.Resets 1 .ready ∧ w.Performs resetAmidRead w' ∧ w'.Resets 1 (.ended (.ok ())) ∧
      w'.node.cache.counters = {} ∧ w'.Holds "b:p:users:7" "7" ∧ (∀ value, ¬ w'.Holds "a:s:users:select" value) ∧
      ∃ before turn after u v, resetAmidRead = before ++ turn :: after ∧ turn.mover? = some 1 ∧
        (∀ action ∈ before, action.mover? ≠ some 1) ∧ w.Performs before u ∧ u.act? turn = some v ∧
        v.Performs after w' ∧ ZeroesCounters 1 u v ∧ SweepsOwn 1 v after w' (.ok ()) := by
  have hrun : ((neighboured.perform? Unrestricted amidRead).bind fun first =>
      (first.1.perform? Unrestricted resetAmidRead).map fun second =>
        ((first.1.node.cache.counters, first.1.node.activities[1]?), second.1.node.cache.counters,
          second.1.node.activities[1]?, second.1.store.entries["b:p:users:7"]?,
          second.1.store.entries["a:s:users:select"]?)) =
      some ((⟨0, 1⟩, some (.request .reset .ready)), {}, some (.request .reset (.ended (.ok ()))), some "7",
        none) := by cbv
  obtain ⟨⟨w, log⟩, hfirst, hrest⟩ := Option.bind_eq_some_iff.mp hrun
  obtain ⟨⟨w', log'⟩, hsecond, hfacts⟩ := Option.map_eq_some_iff.mp hrest
  simp only [Prod.mk.injEq] at hfacts
  obtain ⟨⟨hcounted, called⟩, hzeroed, returned, hneighbour, hswept⟩ := hfacts
  have performed : w.Performs resetAmidRead w' := ⟨log', hsecond⟩
  refine ⟨w, w', log, ⟨⟨{}, "a", rfl⟩, rfl⟩, .of_perform? hfirst, hcounted, called, performed, returned, hzeroed,
    hneighbour, fun value held => ?_, reset_zeroes_then_sweeps called performed returned⟩
  cases hswept.symm.trans held

/-- A store that refuses its next sweep. -/
def refusing : World Row RecordingStore :=
  { atRest with store := { failures := (∅ : Std.TreeMap String Nat).insert "delete_prefix" 1 } }

/-- A read is counted as a miss and stores a row, and a reset is called. -/
def readThenReset : List (Action Row RecordingStore) :=
  [.read usersRead Row.integers, .move (.go 0), .move (.go 0), .move (.go 0),
    .move (.deliver 0 (.answered (some (.one (.integer 5))))), .move (.goJob 0 0), .move (.goJob 0 0),
    .move (.goJob 0 1), .move (.goJob 0 1), .move (.go 0), .request .reset]

/-- The sweep is refused, the reset fails, and all entries are still there. The counters are not as they were. -/
theorem failed_reset_zeroed_counters :
    ∃ (w w' : World Row RecordingStore) (log : List (Event Row)),
      refusing.IsNew ∧ Runs Unrestricted refusing log w ∧ w.Resets 1 .ready ∧
      w.Performs [.move (.go 1), .move (.go 1), .move (.go 1)] w' ∧
      w'.Resets 1 (.ended (.error (.failed (.backend (.refused "delete_prefix"))))) ∧
      w'.store.entries.toList = w.store.entries.toList ∧ w.Holds "a:s:users:select" "1|[5]" ∧
      w.node.cache.counters = ⟨0, 1⟩ ∧ w'.node.cache.counters = ⟨0, 0⟩ := by
  have hrun : ((refusing.perform? Unrestricted readThenReset).bind fun first =>
      (first.1.perform? Unrestricted [.move (.go 1), .move (.go 1), .move (.go 1)]).map fun second =>
        ((first.1.node.cache.counters, first.1.node.activities[1]?, first.1.store.entries.toList,
            first.1.store.entries["a:s:users:select"]?), second.1.node.cache.counters,
          second.1.node.activities[1]?, second.1.store.entries.toList)) =
      some ((⟨0, 1⟩, some (.request .reset .ready), [("a:p:users:5", "5"), ("a:s:users:select", "1|[5]")],
          some "1|[5]"), ⟨0, 0⟩,
        some (.request .reset (.ended (.error (.failed (.backend (.refused "delete_prefix")))))),
        [("a:p:users:5", "5"), ("a:s:users:select", "1|[5]")]) := by cbv
  obtain ⟨⟨w, log⟩, hfirst, hrest⟩ := Option.bind_eq_some_iff.mp hrun
  obtain ⟨⟨w', log'⟩, hsecond, hfacts⟩ := Option.map_eq_some_iff.mp hrest
  simp only [Prod.mk.injEq] at hfacts
  obtain ⟨⟨hcounted, called, hbefore, hheld⟩, hzeroed, returned, hafter⟩ := hfacts
  exact ⟨w, w', log, ⟨⟨{}, "a", rfl⟩, rfl⟩, .of_perform? hfirst, called, ⟨log', hsecond⟩, returned,
    hafter.trans hbefore.symm, hheld, hcounted, hzeroed⟩

end World

end ReadThrough
