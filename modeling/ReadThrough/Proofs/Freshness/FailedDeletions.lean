import ReadThrough.Proofs.Freshness.Reach
import ReadThrough.Proofs.Store.Refusals
import ReadThrough.Proofs.Waiting

/-! # Invalidations on a store that refuses deletions

A deletion that fails does not stop the others. Each job of an invalidation issues all its deletions in order,
whatever becomes of them, and an entry is there afterwards if it was there before and all deletions that cover
it have failed.

* an `Issue` is a deletion that was answered, and `World.issues` are those of a list of actions;
* `JobRun.HasAnswered`: how far a job has come with its calls;
* `Purged` says what the deletions answered so far, and those that have begun to act, leave of the store;
* `Purging` is the invariant of the invalidation, `Purging.finishes` says that it can always come to its end,
  and `failed_deletions_stop_no_others` is the theorem.
-/

namespace ReadThrough
set_option autoImplicit false

variable {ρ σ : Type}

/-! ## Issues -/

/-- The calls that a job makes, in order. -/
def Job.calls (job : Job) : List (Call .done) := job.steps.map (·.1)

/-- A deletion that was answered to a job of an invalidation, and whether it failed. -/
structure Issue where
  job : Nat
  call : Call .done
  failed : Bool

/-- The deletions of one job, in the order in which they were answered. -/
def callsOf (issues : List Issue) (job : Nat) : List (Call .done) :=
  (issues.filter fun issue => issue.job = job).map (·.call)

namespace JobRun

/-- The call in progress: it stands before those to come. -/
def call? : JobRun → Option (Call .done)
  | .working job _ _ rest => job.calls.reverse[rest.length]?
  | .finished | .brokeDown => none

/-- The call in progress, if it is answered, and whether it failed. -/
def answer? : JobRun → Option (Call .done × Bool)
  | .working job (.answered reply) onFailure rest =>
    (JobRun.working job (.answered reply) onFailure rest).call?.map fun call => (call, !reply.isOk)
  | _ => none

end JobRun

namespace World

/-- The deletion whose answer a job takes in by an action. -/
def issue? (w : World ρ σ) : Action ρ σ → Option Issue
  | .move (.goJob mover index) => do
    let activity ← w.node.activities[mover]?
    let run ← activity.jobs[index]?
    let answer ← run.answer?
    return ⟨index, answer.1, answer.2⟩
  | _ => none

/-- The deletions answered in a list of actions, in order. -/
def issues [Medium σ] (w : World ρ σ) : List (Action ρ σ) → List Issue
  | [] => []
  | action :: rest =>
    (w.issue? action).toList ++
      match w.act? action with
      | some next => next.issues rest
      | none => []

end World

theorem callsOf_concat (issues : List Issue) (issue : Issue) (job : Nat) :
    callsOf (issues ++ [issue]) job =
      if issue.job = job then callsOf issues job ++ [issue.call] else callsOf issues job := by
  by_cases h : issue.job = job <;> simp [callsOf, List.filter_append, h]

/-! ## How far a job has come -/

/-- The operation carries a deletion out, or it was refused; it did not break down. -/
inductive Operation.CarriesOut (call : Call .done) : Operation .done → Prop
  | waiting {operation} (asks : operation.Asks call) : CarriesOut call operation
  | sweeping {rest} (covered : ∀ key ∈ rest, call.Deletes key) : CarriesOut call (.sweeping rest)
  | succeeded : CarriesOut call (.answered (.ok ()))
  | refused (failure : Failure) : CarriesOut call (.answered (.error (.failed failure)))

theorem Operation.Asks.unique {k : ReplyKind} {operation : Operation k} {call call' : Call k}
    (h : operation.Asks call) (h' : operation.Asks call') : call = call' := by
  rcases h with rfl | rfl
  · rcases h' with h' | h'
    · exact Operation.asked.inj h'
    · cases h'
  · rcases h' with h' | h'
    · cases h'
    · exact Operation.held.inj h'

theorem Operation.Asks.deletes_iff {k : ReplyKind} {operation : Operation k} {call : Call k}
    (h : operation.Asks call) (key : String) : operation.Deletes key ↔ call.Deletes key := by
  rcases h with rfl | rfl <;> rfl

theorem Operation.Asks.not_isActing {k : ReplyKind} {operation : Operation k} {call : Call k}
    (h : operation.Asks call) : ¬ operation.IsActing := by
  rcases h with rfl | rfl <;> exact id

namespace Operation.CarriesOut

variable {call : Call .done} {operation : Operation .done}

theorem deletes (h : operation.CarriesOut call) {key : String} (deletes : operation.Deletes key) :
    call.Deletes key := by
  cases h with
  | waiting asks => exact (asks.deletes_iff key).mp deletes
  | sweeping covered => exact covered key deletes
  | succeeded | refused => exact deletes.elim

theorem isDeletion (h : operation.CarriesOut call) (deletion : call.IsDeletion)
    (unanswered : ∀ reply, operation ≠ .answered reply) : operation.IsDeletion := by
  cases h with
  | waiting asks => rcases asks with rfl | rfl <;> exact deletion
  | sweeping => trivial
  | succeeded => exact absurd rfl (unanswered _)
  | refused => exact absurd rfl (unanswered _)

/-- What is not answered and has not begun to act waits. -/
theorem asks_or_acting (h : operation.CarriesOut call) (unanswered : ∀ reply, operation ≠ .answered reply) :
    operation.Asks call ∨ operation.IsActing := by
  cases h with
  | waiting asks => exact .inl asks
  | sweeping => exact .inr trivial
  | succeeded => exact absurd rfl (unanswered _)
  | refused => exact absurd rfl (unanswered _)

variable [Medium σ] [LawfulMedium σ] [ExactMedium σ] [DecisiveMedium σ] {now : Nat} {store : σ}
  {step : StoreStep σ .done}

theorem goesOn (h : operation.CarriesOut call) (deletion : call.IsDeletion)
    (unanswered : ∀ reply, operation ≠ .answered reply)
    (taken : Medium.step? now store operation = some step) : step.operation.CarriesOut call := by
  have hdeletion := h.isDeletion deletion unanswered
  have hasks : ∀ {other}, operation.Asks other → call = other := by
    intro other asks
    rcases h.asks_or_acting unanswered with hown | hacting
    · exact hown.unique asks
    · exact absurd hacting asks.not_isActing
  cases DecisiveMedium.deletionStep taken hdeletion with
  | waits asks later => exact .waiting (hasks asks ▸ later)
  | refused asks failed => exact failed ▸ .refused _
  | acts acting =>
    have hcovered : ∀ key, step.operation.Deletes key → call.Deletes key :=
      fun key deletes => h.deletes (ExactMedium.of_deletes taken hdeletion deletes)
    cases hoperation : step.operation with
    | asked | held =>
      rw [hoperation] at acting
      exact acting.elim
    | sweeping rest =>
      rw [hoperation] at hcovered
      exact .sweeping hcovered
    | answered reply =>
      cases reply with
      | ok => exact .succeeded
      | error =>
        rw [hoperation] at acting
        exact acting.elim

end Operation.CarriesOut

namespace JobRun

/-- A job has come so far: these of its calls are answered, in order. -/
inductive HasAnswered (job : Job) : List (Call .done) → JobRun → Prop
  | working {answered call operation onFailure rest}
      (calls : job.calls = answered ++ call :: rest.map (·.1)) (carries : operation.CarriesOut call) :
    HasAnswered job answered (.working job operation onFailure rest)
  | finished : HasAnswered job job.calls .finished

variable {job : Job} {answered : List (Call .done)} {call : Call .done}

theorem hasAnswered_next {rest : List (Call .done × Notice)}
    (calls : job.calls = answered ++ rest.map (·.1)) : (next job rest).HasAnswered job answered := by
  cases rest with
  | nil =>
    have hall : job.calls = answered := by simpa using calls
    exact hall ▸ .finished
  | cons first rest => exact .working calls (.waiting (.inl rfl))

theorem hasAnswered_start (job : Job) : (start job).HasAnswered job [] := hasAnswered_next rfl

theorem call?_of_calls {operation : Operation .done} {onFailure : Notice}
    {rest : List (Call .done × Notice)} (calls : job.calls = answered ++ call :: rest.map (·.1)) :
    (working job operation onFailure rest).call? = some call := by
  have hlength : rest.length = (rest.map (·.1)).reverse.length := by simp
  simp only [call?, calls, List.reverse_append, List.reverse_cons, List.append_assoc]
  rw [hlength, List.getElem?_append_right (Nat.le_refl _)]
  simp

theorem HasAnswered.isPrefix {run : JobRun} (h : run.HasAnswered job answered) : answered <+: job.calls := by
  cases h with
  | working calls =>
    rw [calls]
    exact List.prefix_append _ _
  | finished => exact List.prefix_refl _

/-- A step of a job at work: it takes in the reply, or the store takes a step on its call. -/
theorem working_step [Medium σ] {now : Nat} {store : σ} {operation : Operation .done} {onFailure : Notice}
    {rest : List (Call .done × Notice)} {step : JobStep σ}
    (taken : (working job operation onFailure rest).step? now store = some step) :
    (∃ reply, operation = .answered reply ∧ step = receive store job onFailure rest reply) ∨
      ((∀ reply, operation ≠ .answered reply) ∧ ∃ moved, Medium.step? now store operation = some moved ∧
        step.store = moved.store ∧ step.run = .working job moved.operation onFailure rest) := by
  cases operation with
  | answered reply => exact .inl ⟨reply, rfl, (Option.some.inj taken).symm⟩
  | asked | held | sweeping =>
    obtain ⟨moved, hmoved, rfl⟩ := Option.map_eq_some_iff.mp taken
    exact .inr ⟨fun _ => by simp, moved, hmoved, rfl, rfl⟩

/-- The call in progress has begun to act, and is going to delete this key, or has done so. -/
def Claims (run : JobRun) (key : String) : Prop :=
  match run with
  | .working job operation onFailure rest => operation.IsActing ∧
    ∃ call, (JobRun.working job operation onFailure rest).call? = some call ∧ call.Deletes key
  | .finished | .brokeDown => False

/-- The call in progress is still going to delete this key. -/
def HasLeft (run : JobRun) (key : String) : Prop :=
  match run with
  | .working _ operation _ _ => operation.Deletes key
  | .finished | .brokeDown => False

theorem not_claims_next (job : Job) (rest : List (Call .done × Notice)) (key : String) :
    ¬ (next job rest).Claims key := by
  cases rest with
  | nil => exact id
  | cons => exact fun h => h.1

end JobRun

/-! ## What is left of the store -/

/-- What is held is what was held before, but for what successful deletions cover, and deletions that have
begun to act; the latter may still leave some of it. -/
structure Purged [Medium σ] [LawfulMedium σ] (Before : String → String → Prop) (now : Nat) (store : σ)
    (issues : List Issue) (runs : List JobRun) : Prop where
  old : ∀ key value, LawfulMedium.Holds store now key value → Before key value
  kept : ∀ key value, Before key value → (∀ issue ∈ issues, issue.call.Deletes key → issue.failed) →
    (∀ run ∈ runs, ¬ run.Claims key) → LawfulMedium.Holds store now key value
  gone : ∀ key value, LawfulMedium.Holds store now key value →
    ∀ issue ∈ issues, issue.call.Deletes key → issue.failed
  going : ∀ key value, LawfulMedium.Holds store now key value →
    ∀ run ∈ runs, run.Claims key → run.HasLeft key

namespace Purged

variable [Medium σ] [LawfulMedium σ] {Before : String → String → Prop} {now : Nat} {store : σ}
  {issues : List Issue} {runs : List JobRun} {index : Nat} {job : Job} {call : Call .done}
  {answered : List (Call .done)} {operation : Operation .done} {onFailure : Notice}
  {rest : List (Call .done × Notice)}

theorem of_start (now : Nat) (store : σ) (jobs : List Job) :
    Purged (LawfulMedium.Holds store now) now store [] (jobs.map JobRun.start) where
  old _ _ held := held
  kept _ _ held _ _ := held
  gone _ _ _ issue mem := by cases mem
  going key value held run mem claims := by
    obtain ⟨job, -, rfl⟩ := List.mem_map.mp mem
    exact absurd claims (JobRun.not_claims_next job job.steps key)

/-- When all jobs have ended, an entry is left if it was there before and all deletions that cover it have
failed. -/
theorem ended (h : Purged Before now store issues runs) (idle : ∀ run ∈ runs, ∀ key, ¬ run.Claims key)
    (key value : String) : LawfulMedium.Holds store now key value ↔
      Before key value ∧ ∀ issue ∈ issues, issue.call.Deletes key → issue.failed := by
  constructor
  · intro held
    exact ⟨h.old key value held, h.gone key value held⟩
  · rintro ⟨before, failed⟩
    exact h.kept key value before failed fun run mem => idle run mem key

/-- If no job claims a key after one of them has moved on, none did before, unless this one gave it up. -/
theorem unclaimed_of_set {run later : JobRun} {key : String} (found : runs[index]? = some run)
    (imp : run.Claims key → later.Claims key) (unclaimed : ∀ other ∈ runs.set index later, ¬ other.Claims key) :
    ∀ other ∈ runs, ¬ other.Claims key := by
  intro other mem
  obtain ⟨place, hplace⟩ := List.getElem?_of_mem mem
  by_cases hsame : index = place
  · subst hsame
    obtain rfl := Option.some.inj (found.symm.trans hplace)
    have hlt : index < runs.length := (List.getElem?_eq_some_iff.mp found).1
    exact fun hclaims => unclaimed later (List.mem_set hlt later) (imp hclaims)
  · refine unclaimed other (List.mem_of_getElem? (i := place) ?_)
    rw [List.getElem?_set_ne hsame, hplace]

/-- The job takes in the reply, and goes on to its next call, if there is one. -/
theorem receive {reply : Reply .done} (h : Purged Before now store issues runs)
    (found : runs[index]? = some (.working job (.answered reply) onFailure rest))
    (calls : job.calls = answered ++ call :: rest.map (·.1)) :
    Purged Before now store (issues ++ [⟨index, call, !reply.isOk⟩])
      (runs.set index (JobRun.next job rest)) := by
  have hcall : (JobRun.working job (.answered reply) onFailure rest).call? = some call :=
    JobRun.call?_of_calls calls
  have hmem := List.mem_of_getElem? found
  -- a call that has succeeded claims all that it covers, and one that has failed nothing
  have hclaims : ∀ key, (JobRun.working job (.answered reply) onFailure rest).Claims key ↔
      reply.isOk ∧ call.Deletes key := by
    intro key
    simp only [JobRun.Claims, hcall, Option.some.injEq, exists_eq_left']
    cases reply <;> simp [Operation.IsActing, Except.isOk, Except.toBool]
  refine ⟨h.old, ?_, ?_, ?_⟩
  · intro key value before failed unclaimed
    obtain ⟨hfailed, hnew⟩ := List.forall_mem_append.mp failed
    refine h.kept key value before hfailed (unclaimed_of_set found ?_ unclaimed)
    intro claims
    obtain ⟨hok, hdeletes⟩ := (hclaims key).mp claims
    have hfailure := hnew _ (List.mem_singleton_self _) hdeletes
    simp [hok] at hfailure
  · intro key value held
    refine List.forall_mem_append.mpr ⟨h.gone key value held, fun issue mem deletes => ?_⟩
    obtain rfl := List.mem_singleton.mp mem
    cases hok : reply.isOk with
    | false => rfl
    | true => exact (h.going key value held _ hmem ((hclaims key).mpr ⟨hok, deletes⟩)).elim
  · intro key value held run mem claims
    rcases List.mem_or_eq_of_mem_set mem with hold | rfl
    · exact h.going key value held run hold claims
    · exact absurd claims (JobRun.not_claims_next job rest key)

/-- The store takes a step on the call of a job. -/
theorem step [ExactMedium σ] [CandidMedium σ] [DecisiveMedium σ] {moved : StoreStep σ .done}
    (h : Purged Before now store issues runs)
    (found : runs[index]? = some (.working job operation onFailure rest))
    (calls : job.calls = answered ++ call :: rest.map (·.1)) (carries : operation.CarriesOut call)
    (deletion : call.IsDeletion) (unanswered : ∀ reply, operation ≠ .answered reply)
    (taken : Medium.step? now store operation = some moved) :
    Purged Before now moved.store issues
      (runs.set index (.working job moved.operation onFailure rest)) := by
  have hcalls : ∀ operation, (JobRun.working job operation onFailure rest).call? = some call :=
    fun _ => JobRun.call?_of_calls calls
  have hclaims : ∀ key (operation : Operation .done),
      (JobRun.working job operation onFailure rest).Claims key ↔ operation.IsActing ∧ call.Deletes key := by
    intro key operation
    simp only [JobRun.Claims, hcalls, Option.some.injEq, exists_eq_left']
  have hmem := List.mem_of_getElem? found
  have hdeletion := carries.isDeletion deletion unanswered
  have hold : ∀ key value, LawfulMedium.Holds moved.store now key value →
      LawfulMedium.Holds store now key value := by
    intro key value held
    rcases LawfulMedium.of_holds taken held with hheld | hstores
    · exact hheld
    · exact absurd hstores (Operation.not_stores_of_isDeletion hdeletion key value)
  refine ⟨fun key value held => h.old key value (hold key value held), ?_,
    fun key value held => h.gone key value (hold key value held), ?_⟩
  · intro key value before failed unclaimed
    cases DecisiveMedium.deletionStep taken hdeletion with
    | waits asks later same =>
      refine (same key value).mpr (h.kept key value before failed (unclaimed_of_set found ?_ unclaimed))
      exact fun claims => absurd ((hclaims key _).mp claims).1 asks.not_isActing
    | refused asks answer same =>
      refine (same key value).mpr (h.kept key value before failed (unclaimed_of_set found ?_ unclaimed))
      exact fun claims => absurd ((hclaims key _).mp claims).1 asks.not_isActing
    | acts acting =>
      have hspared : ¬ call.Deletes key := by
        intro deletes
        have hlt : index < runs.length := (List.getElem?_eq_some_iff.mp found).1
        exact unclaimed _ (List.mem_set hlt _) ((hclaims key _).mpr ⟨acting, deletes⟩)
      have hheld : LawfulMedium.Holds store now key value := by
        refine h.kept key value before failed (unclaimed_of_set found ?_ unclaimed)
        exact fun claims => absurd ((hclaims key _).mp claims).2 hspared
      exact ExactMedium.spares taken hdeletion hheld fun deletes => hspared (carries.deletes deletes)
  · intro key value held run mem claims
    have hheld := hold key value held
    rcases List.mem_or_eq_of_mem_set mem with hother | rfl
    · exact h.going key value hheld run hother claims
    · obtain ⟨hacting, hdeletes⟩ := (hclaims key _).mp claims
      have hleft : operation.Deletes key := by
        rcases carries.asks_or_acting unanswered with hasks | hbefore
        · exact (hasks.deletes_iff key).mpr hdeletes
        · exact h.going key value hheld _ hmem ((hclaims key _).mpr ⟨hbefore, hdeletes⟩)
      have hunfailed : moved.operation.IsDeletion := by
        cases hoperation : moved.operation with
        | asked | held =>
          rw [hoperation] at hacting
          exact hacting.elim
        | sweeping => trivial
        | answered reply =>
          rw [hoperation] at hacting
          cases reply with
          | ok value => exact ⟨value, rfl⟩
          | error => exact hacting.elim
      exact CandidMedium.deletes taken hunfailed hleft held

end Purged

/-! ## The invalidation by itself -/

/-- The jobs of an invalidation; a change without effect has none. -/
def Cache.purgeJobs (c : Cache) (change : Change) : List Job :=
  if c.isInvalidatedBy change then c.invalidationJobs change else []

theorem Cache.purgeJobs_deletes_iff {c : Cache} {change : Change} {key : String} :
    (∃ job ∈ c.purgeJobs change, (JobRun.start job).Deletes key) ↔
      c.isInvalidatedBy change ∧ c.ReachesKey change key := by
  rw [← Cache.deletes_iff_reaches, purgeJobs]
  split <;> simp_all

theorem Cache.isDeletion_of_purgeJobs {c : Cache} {change : Change} {job : Job} {call : Call .done}
    (mem : job ∈ c.purgeJobs change) (called : call ∈ job.calls) : call.IsDeletion := by
  unfold purgeJobs at mem
  split at mem
  · obtain ⟨step, hstep, rfl⟩ := List.mem_map.mp called
    exact JobRun.next_isDeletion.mp (Cache.invalidationJobs_isDeletion mem) step hstep
  · cases mem

/-- If it is waited for, an invalidation waits for its jobs, and ends at once if it has none. -/
theorem Invalidation.start_stage_of_waits {c : Cache} (change : Change)
    (waits : c.config.detachesUpkeep = false) :
    (Invalidation.start c change).stage =
      if (c.purgeJobs change).isEmpty then .ended
      else .deleting ((c.purgeJobs change).map JobRun.start) := by
  cases heffective : c.isInvalidatedBy change with
  | true =>
    rw [Invalidation.start_stage heffective waits, Cache.purgeJobs, if_pos heffective]
  | false => simp [Invalidation.start, Cache.purgeJobs, heffective]

namespace World

/-- Only this activity moves, and it is not broken off. -/
def Unbroken (mover : ActivityId) (_ : World ρ σ) : Action ρ σ → Prop
  | .move (.abort _) => False
  | .move move => move.activity = mover
  | _ => False

instance (mover : ActivityId) (w : World ρ σ) : (action : Action ρ σ) → Decidable (w.Unbroken mover action)
  | .move (.go other) => inferInstanceAs (Decidable (other = mover))
  | .move (.goJob other _) => inferInstanceAs (Decidable (other = mover))
  | .move (.deliver other _) => inferInstanceAs (Decidable (other = mover))
  | .move (.abort _) => .isFalse id
  | .read _ _ | .change _ | .request _ | .forget _ | .wait _ | .disturb _ => .isFalse id

variable [Medium σ] {w w' : World ρ σ} {writer : ActivityId} {change : Change} {action : Action ρ σ}

/-- What an invalidation may do by itself, if it is not broken off, and the deletion whose answer it takes in
then. -/
inductive MovesUnbroken (writer : ActivityId) (change : Change) (w : World ρ σ) :
    InvalidationStage → Option Issue → World ρ σ → Prop
  | start : MovesUnbroken writer change w .ready none
      (w.after writer (Activity.ofInvalidationTurn change w.store (Invalidation.start w.node.cache change)))
  | job {runs index run taken} (found : runs[index]? = some run) (steps : run.step? w.now w.store = some taken) :
    MovesUnbroken writer change w (.deleting runs) (run.answer?.map fun answer => ⟨index, answer.1, answer.2⟩)
      (w.after writer { cache := w.node.cache
                        store := taken.store
                        activity := .change change (.deleting (runs.set index taken.run))
                        notices := taken.notices })
  | finish {runs} (ended : ∀ run ∈ runs, run.isFinished ∨ run.isBroken) :
    MovesUnbroken writer change w (.deleting runs) none
      (w.after writer (Activity.ofInvalidationTurn change w.store { cache := w.node.cache, stage := .ended }))

theorem movesUnbroken_of_act? {stage : InvalidationStage} (unbroken : w.Unbroken writer action)
    (acts : w.act? action = some w') (is : w.node.activities[writer]? = some (.change change stage)) :
    MovesUnbroken writer change w stage (w.issue? action) w' := by
  cases action with
  | move move =>
    obtain ⟨activity, step, found, taken, rfl⟩ := act?_move_iff.mp acts
    cases move with
    | abort => exact unbroken.elim
    | deliver other outcome =>
      obtain rfl : other = writer := unbroken
      obtain rfl := Option.some.inj (found.symm.trans is)
      cases taken
    | go other =>
      obtain rfl : other = writer := unbroken
      obtain rfl := Option.some.inj (found.symm.trans is)
      cases stage with
      | ready =>
        obtain rfl := Option.some.inj taken
        exact .start
      | deleting runs =>
        simp only [Activity.move?, Activity.go?, Activity.goInvalidation?] at taken
        split at taken
        · rename_i hended
          obtain rfl := Option.some.inj taken
          exact .finish (by simpa using hended)
        · cases taken
      | ended | aborted => cases taken
    | goJob other index =>
      obtain rfl : other = writer := unbroken
      obtain rfl := Option.some.inj (found.symm.trans is)
      simp only [Activity.move?, Activity.goJob?, Option.bind_eq_bind, Option.bind_eq_some_iff] at taken
      obtain ⟨run, hrun, moved, hmoved, ⟨⟩⟩ := taken
      cases stage with
      | deleting runs =>
        have hfound : runs[index]? = some run := hrun
        have hissue : w.issue? (.move (.goJob other index)) =
            run.answer?.map fun answer => ⟨index, answer.1, answer.2⟩ := by
          simp only [issue?, is, Option.bind_eq_bind, Option.bind_some, Activity.jobs, hfound]
          cases run.answer? <;> rfl
        rw [hissue]
        exact .job hfound hmoved
      | ready | ended | aborted => cases hrun
  | _ => exact unbroken.elim

section

variable [LawfulMedium σ] {start : World ρ σ} {issues : List Issue}

/-- How far an invalidation has come that is waited for, and alone, since this world. -/
inductive Purging (start : World ρ σ) (writer : ActivityId) (change : Change) :
    List Issue → World ρ σ → Prop
  | ready : Purging start writer change [] start
  | deleting {issues later runs} (is : later.node.activities[writer]? = some (.change change (.deleting runs)))
      (length : runs.length = (start.node.cache.purgeJobs change).length)
      (within : ∀ issue ∈ issues, issue.job < (start.node.cache.purgeJobs change).length)
      (jobs : ∀ (index : Nat) (job : Job) (run : JobRun), (start.node.cache.purgeJobs change)[index]? = some job →
        runs[index]? = some run → run.HasAnswered job (callsOf issues index))
      (purged : Purged start.Holds later.now later.store issues runs) : Purging start writer change issues later
  | ended {issues later} (is : later.node.activities[writer]? = some (.change change .ended))
      (within : ∀ issue ∈ issues, issue.job < (start.node.cache.purgeJobs change).length)
      (jobs : ∀ (index : Nat) (job : Job), (start.node.cache.purgeJobs change)[index]? = some job →
        callsOf issues index = job.calls)
      (left : ∀ key value, later.Holds key value ↔
        start.Holds key value ∧ ∀ issue ∈ issues, issue.call.Deletes key → issue.failed) :
    Purging start writer change issues later

theorem Purging.of_start (waits : start.node.cache.config.detachesUpkeep = false)
    (called : start.node.activities[writer]? = some (.change change .ready)) :
    Purging start writer change [] (start.after writer (Activity.ofInvalidationTurn change start.store
      (Invalidation.start start.node.cache change))) := by
  have hmover : (start.after writer (Activity.ofInvalidationTurn change start.store
      (Invalidation.start start.node.cache change))).node.activities[writer]? =
      some (.change change (Invalidation.start start.node.cache change).stage) :=
    after_activities_mover called _
  have hpurged : Purged start.Holds start.now start.store []
      ((start.node.cache.purgeJobs change).map JobRun.start) := Purged.of_start _ _ _
  rw [Invalidation.start_stage_of_waits change waits] at hmover
  split at hmover
  · rename_i hnone
    have hjobs := List.isEmpty_iff.mp hnone
    refine .ended hmover (by simp) (fun index job found => ?_) (fun key value => ?_)
    · rw [hjobs] at found
      cases found
    · rw [hjobs] at hpurged
      exact hpurged.ended (fun run mem => by cases mem) key value
  · refine .deleting hmover (by simp) (by simp) (fun index job run found hrun => ?_) hpurged
    rw [List.getElem?_map, found] at hrun
    obtain rfl := Option.some.inj hrun
    exact JobRun.hasAnswered_start job

/-- The state of the jobs, when one of them has moved on and had another call answered, or none. -/
theorem jobs_of_set {jobs : List Job} {runs : List JobRun} {index : Nat} {job : Job} {later : JobRun}
    {issues' : List Issue}
    (before : ∀ (place : Nat) (other : Job) (run : JobRun), jobs[place]? = some other →
      runs[place]? = some run → run.HasAnswered other (callsOf issues place))
    (is : jobs[index]? = some job) (now : later.HasAnswered job (callsOf issues' index))
    (others : ∀ place, place ≠ index → callsOf issues' place = callsOf issues place)
    (place : Nat) (other : Job) (run : JobRun) (found : jobs[place]? = some other)
    (at? : (runs.set index later)[place]? = some run) : run.HasAnswered other (callsOf issues' place) := by
  by_cases hsame : place = index
  · subst hsame
    obtain rfl := Option.some.inj (is.symm.trans found)
    obtain rfl : later = run := by
      rw [List.getElem?_set_self'] at at?
      cases hrun : runs[place]? with
      | none =>
        rw [hrun] at at?
        cases at?
      | some old =>
        rw [hrun] at at?
        exact Option.some.inj at?
    exact now
  · rw [List.getElem?_set_ne (Ne.symm hsame)] at at?
    rw [others place hsame]
    exact before place other run found at?

variable [ExactMedium σ] [CandidMedium σ] [DecisiveMedium σ]

/-- A job takes a step: its call goes on, or it takes in the reply. -/
theorem Purging.of_job {runs : List JobRun} {index : Nat} {run : JobRun} {taken : JobStep σ}
    (is : w.node.activities[writer]? = some (.change change (.deleting runs)))
    (length : runs.length = (start.node.cache.purgeJobs change).length)
    (within : ∀ issue ∈ issues, issue.job < (start.node.cache.purgeJobs change).length)
    (jobs : ∀ (index : Nat) (job : Job) (run : JobRun), (start.node.cache.purgeJobs change)[index]? = some job →
      runs[index]? = some run → run.HasAnswered job (callsOf issues index))
    (purged : Purged start.Holds w.now w.store issues runs) (found : runs[index]? = some run)
    (steps : run.step? w.now w.store = some taken) :
    Purging start writer change
      (issues ++ (run.answer?.map fun answer => ⟨index, answer.1, answer.2⟩).toList)
      (w.after writer { cache := w.node.cache
                        store := taken.store
                        activity := .change change (.deleting (runs.set index taken.run))
                        notices := taken.notices }) := by
  have hlt : index < runs.length := (List.getElem?_eq_some_iff.mp found).1
  obtain ⟨job, hjob⟩ : ∃ job, (start.node.cache.purgeJobs change)[index]? = some job := by
    rw [length] at hlt
    exact ⟨_, List.getElem?_eq_getElem hlt⟩
  have hdeletions : ∀ call ∈ job.calls, call.IsDeletion :=
    fun call => Cache.isDeletion_of_purgeJobs (List.mem_of_getElem? hjob)
  have hrun := jobs index job run hjob found
  generalize hanswered : callsOf issues index = answered at hrun
  cases hrun with
  | finished => cases steps
  | @working _ call operation onFailure rest calls carries =>
    have hcall : call ∈ job.calls := by simp [calls]
    rcases JobRun.working_step steps with ⟨reply, rfl, rfl⟩ | ⟨hunanswered, moved, hmoved, hstore, hnext⟩
    · have hanswer : (JobRun.working job (.answered reply) onFailure rest).answer? =
          some (call, !reply.isOk) := by
        rw [JobRun.answer?, JobRun.call?_of_calls calls]
        rfl
      have hstep : (JobRun.receive w.store job onFailure rest reply).run = JobRun.next job rest ∧
          (JobRun.receive w.store job onFailure rest reply).store = w.store := by
        cases carries with
        | waiting asks => rcases asks with asks | asks <;> cases asks
        | succeeded | refused => exact ⟨rfl, rfl⟩
      simp only [hanswer, hstep, Option.map_some, Option.toList_some]
      refine .deleting (after_activities_mover is _) (by simpa using length)
        (List.forall_mem_append.mpr ⟨within, by simpa using length ▸ hlt⟩) ?_ (purged.receive found calls)
      refine jobs_of_set jobs hjob ?_ fun place hplace => ?_
      · rw [callsOf_concat, if_pos rfl, hanswered]
        exact JobRun.hasAnswered_next (by simpa using calls)
      · rw [callsOf_concat, if_neg (Ne.symm hplace)]
    · have hanswer : (JobRun.working job operation onFailure rest).answer? = none := by
        cases operation with
        | answered reply => exact absurd rfl (hunanswered reply)
        | asked | held | sweeping => rfl
      have hcarries := carries.goesOn (hdeletions call hcall) hunanswered hmoved
      simp only [hanswer, hstore, hnext, Option.map_none, Option.toList_none, List.append_nil]
      refine .deleting (after_activities_mover is _) (by simpa using length) within ?_
        (purged.step found calls carries (hdeletions call hcall) hunanswered hmoved)
      refine jobs_of_set jobs hjob ?_ fun _ _ => rfl
      exact hanswered ▸ .working calls hcarries

omit [ExactMedium σ] [CandidMedium σ] [DecisiveMedium σ] in
theorem Purging.of_finish {runs : List JobRun}
    (is : w.node.activities[writer]? = some (.change change (.deleting runs)))
    (length : runs.length = (start.node.cache.purgeJobs change).length)
    (within : ∀ issue ∈ issues, issue.job < (start.node.cache.purgeJobs change).length)
    (jobs : ∀ (index : Nat) (job : Job) (run : JobRun), (start.node.cache.purgeJobs change)[index]? = some job →
      runs[index]? = some run → run.HasAnswered job (callsOf issues index))
    (purged : Purged start.Holds w.now w.store issues runs)
    (finished : ∀ run ∈ runs, run.isFinished ∨ run.isBroken) :
    Purging start writer change issues (w.after writer
      (Activity.ofInvalidationTurn change w.store { cache := w.node.cache, stage := .ended })) := by
  have hidle : ∀ run ∈ runs, ∀ key, ¬ run.Claims key := by
    intro run mem key
    have hended := finished run mem
    cases run with
    | working => simp [JobRun.isFinished, JobRun.isBroken] at hended
    | finished | brokeDown => exact id
  refine .ended (after_activities_mover is _) within (fun index job found => ?_) (purged.ended hidle)
  have hlt : index < runs.length := by
    rw [length]
    exact (List.getElem?_eq_some_iff.mp found).1
  have hrun := jobs index job runs[index] found (List.getElem?_eq_getElem hlt)
  have hended := finished runs[index] (List.getElem_mem hlt)
  generalize hanswered : callsOf issues index = answered at hrun
  generalize runs[index] = run at hrun hended
  cases hrun with
  | working => simp [JobRun.isFinished, JobRun.isBroken] at hended
  | finished => rfl

theorem Purging.step (h : Purging start writer change issues w)
    (called : start.node.activities[writer]? = some (.change change .ready))
    (waits : start.node.cache.config.detachesUpkeep = false) (unbroken : w.Unbroken writer action)
    (acts : w.act? action = some w') :
    Purging start writer change (issues ++ (w.issue? action).toList) w' := by
  cases h with
  | ready =>
    have hmoves := movesUnbroken_of_act? unbroken acts called
    generalize w.issue? action = issue at hmoves ⊢
    cases hmoves with
    | start => exact .of_start waits called
  | deleting is length within jobs purged =>
    have hmoves := movesUnbroken_of_act? unbroken acts is
    generalize w.issue? action = issue at hmoves ⊢
    cases hmoves with
    | job found steps => exact .of_job is length within jobs purged found steps
    | finish finished =>
      rw [Option.toList_none, List.append_nil]
      exact .of_finish is length within jobs purged finished
  | ended is => cases movesUnbroken_of_act? unbroken acts is

theorem Purging.run {actions : List (Action ρ σ)} {log : List (Event ρ)}
    (h : Purging start writer change issues w)
    (called : start.node.activities[writer]? = some (.change change .ready))
    (waits : start.node.cache.config.detachesUpkeep = false)
    (performed : w.perform? (Unbroken writer) actions = some (w', log)) :
    Purging start writer change (issues ++ w.issues actions) w' := by
  induction actions generalizing w issues log with
  | nil =>
    obtain ⟨rfl, -⟩ := Prod.mk.inj (Option.some.inj performed)
    simpa [World.issues] using h
  | cons action rest ih =>
    obtain ⟨hunbroken, next, later, hacts, hrest, -⟩ := World.perform?_cons_iff.mp performed
    have hnext := ih (h.step called waits hunbroken hacts) hrest
    simpa [World.issues, hacts] using hnext

omit [ExactMedium σ] [CandidMedium σ] [DecisiveMedium σ] in
/-- Each job has issued its first deletions, in order. -/
theorem Purging.callsOf_isPrefix (h : Purging start writer change issues w) {index : Nat} {job : Job}
    (found : (start.node.cache.purgeJobs change)[index]? = some job) : callsOf issues index <+: job.calls := by
  cases h with
  | ready => exact List.nil_prefix
  | deleting is length within jobs =>
    have hlt : index < _ := length ▸ (List.getElem?_eq_some_iff.mp found).1
    exact (jobs index job _ found (List.getElem?_eq_getElem hlt)).isPrefix
  | ended is within jobs => exact jobs index job found ▸ List.prefix_refl _

end

/-! ## The end of the invalidation -/

section

variable [AnsweringMedium σ] {runs : List JobRun}

/-- The invalidation can come to its end. -/
theorem exists_ended_of_deleting (is : w.node.activities[writer]? = some (.change change (.deleting runs)))
    (answering : AnsweringMedium.Answering w.store) :
    ∃ log last, Runs (Unbroken writer) w log last ∧
      last.node.activities[writer]? = some (.change change .ended) := by
  have hunbroken : ∀ (w : World ρ σ) (index : Nat), w.Unbroken writer (.move (.goJob writer index)) :=
    fun _ _ => rfl
  obtain ⟨log, later, jobs, hruns, hlater, -, -, hended⟩ :=
    canWaitFor_ends (Activity.waiting_change change) hunbroken is answering
  have hmove : (Activity.change change (.deleting jobs) : Activity ρ).move? later.now later.node.cache
      later.store (.go writer) = some (Activity.ofInvalidationTurn change later.store
        { cache := later.node.cache, stage := .ended }) :=
    if_pos (by simpa using hended)
  have hgo : later.Unbroken writer (.move (.go writer)) := rfl
  have hlast := Runs.single hgo (act?_move_iff.mpr ⟨_, _, hlater, hmove, rfl⟩)
  exact ⟨_, _, hruns.trans hlast, after_activities_mover hlater _⟩

theorem exists_ended_of_ready (called : w.node.activities[writer]? = some (.change change .ready))
    (waits : w.node.cache.config.detachesUpkeep = false) (answering : AnsweringMedium.Answering w.store) :
    ∃ log last, Runs (Unbroken writer) w log last ∧
      last.node.activities[writer]? = some (.change change .ended) := by
  have hmove : (Activity.change change .ready : Activity ρ).move? w.now w.node.cache w.store
      (.go writer) = some (Activity.ofInvalidationTurn change w.store
        (Invalidation.start w.node.cache change)) := rfl
  have hunbroken : w.Unbroken writer (.move (.go writer)) := rfl
  have hfirst := Runs.single hunbroken (act?_move_iff.mpr ⟨_, _, called, hmove, rfl⟩)
  have hnext : (w.after writer (Activity.ofInvalidationTurn change w.store
      (Invalidation.start w.node.cache change))).node.activities[writer]? =
      some (.change change (Invalidation.start w.node.cache change).stage) :=
    after_activities_mover called _
  rw [Invalidation.start_stage_of_waits change waits] at hnext
  split at hnext
  · exact ⟨_, _, hfirst, hnext⟩
  · obtain ⟨log, last, hruns, hlast⟩ := exists_ended_of_deleting hnext answering
    exact ⟨_, last, hfirst.trans hruns, hlast⟩

variable [LawfulMedium σ] {start : World ρ σ} {issues : List Issue}

theorem Purging.finishes (h : Purging start writer change issues w)
    (called : start.node.activities[writer]? = some (.change change .ready))
    (waits : start.node.cache.config.detachesUpkeep = false) (answering : AnsweringMedium.Answering w.store) :
    ∃ log last, Runs (Unbroken writer) w log last ∧
      last.node.activities[writer]? = some (.change change .ended) := by
  cases h with
  | ready => exact exists_ended_of_ready called waits answering
  | deleting is => exact exists_ended_of_deleting is answering
  | ended is => exact ⟨[], w, .refl, is⟩

end

/-! ## Failures on the way -/

section

variable [LawfulMedium σ] [ExactMedium σ] [CandidMedium σ] [DecisiveMedium σ] [AnsweringMedium σ]
  {actions : List (Action ρ σ)} {log : List (Event ρ)}

theorem issued_iff_called {jobs : List Job} {issues : List Issue} {key : String}
    (within : ∀ issue ∈ issues, issue.job < jobs.length)
    (all : ∀ (index : Nat) (job : Job), jobs[index]? = some job → callsOf issues index = job.calls) :
    (∃ issue ∈ issues, issue.call.Deletes key) ↔ ∃ job ∈ jobs, (JobRun.start job).Deletes key := by
  have hcalls : ∀ job : Job, (JobRun.start job).Deletes key ↔ ∃ call ∈ job.calls, call.Deletes key := by
    intro job
    rw [JobRun.start, JobRun.next_deletes]
    simp [Job.calls]
  simp only [hcalls]
  constructor
  · rintro ⟨issue, hissue, hdeletes⟩
    have hfound := List.getElem?_eq_getElem (within issue hissue)
    refine ⟨_, List.mem_of_getElem? hfound, issue.call, ?_, hdeletes⟩
    rw [← all issue.job _ hfound, callsOf]
    exact List.mem_map_of_mem (List.mem_filter.mpr ⟨hissue, by simp⟩)
  · rintro ⟨job, hjob, call, hcall, hdeletes⟩
    obtain ⟨index, hindex⟩ := List.getElem?_of_mem hjob
    rw [← all index job hindex, callsOf] at hcall
    obtain ⟨issue, hissue, rfl⟩ := List.mem_map.mp hcall
    exact ⟨issue, (List.mem_filter.mp hissue).1, hdeletes⟩

/-- An invalidation that is waited for, on a store that may refuse any of its deletions, with nothing else
going on, in any order of its jobs. Each job issues its deletions in the order that it always has, and the
invalidation can always come to its end, if the store answers at all. When it has ended, every job has
issued all its deletions, they cover what the change reaches, and what is held is what was held before,
but for the keys that a deletion covers which has not failed. -/
theorem failed_deletions_stop_no_others
    (called : w.node.activities[writer]? = some (.change change .ready))
    (waits : w.node.cache.config.detachesUpkeep = false)
    (performed : w.perform? (Unbroken writer) actions = some (w', log)) :
    (∀ (index : Nat) (job : Job), (w.node.cache.purgeJobs change)[index]? = some job →
      callsOf (w.issues actions) index <+: job.calls) ∧
    (AnsweringMedium.Answering w'.store → ∃ log last, Runs (Unbroken writer) w' log last ∧
      last.node.activities[writer]? = some (.change change .ended)) ∧
    (w'.node.activities[writer]? = some (.change change .ended) →
      (∀ (index : Nat) (job : Job), (w.node.cache.purgeJobs change)[index]? = some job →
        callsOf (w.issues actions) index = job.calls) ∧
      (∀ key, (∃ issue ∈ w.issues actions, issue.call.Deletes key) ↔
        w.node.cache.Heeds change ∧ w.node.cache.ReachesKey change key) ∧
      ∀ key value, w'.Holds key value ↔
        w.Holds key value ∧ ∀ issue ∈ w.issues actions, issue.call.Deletes key → issue.failed) := by
  have hpurging : Purging w writer change (w.issues actions) w' :=
    Purging.run .ready called waits performed
  generalize w.issues actions = issues at hpurging ⊢
  refine ⟨fun index job => hpurging.callsOf_isPrefix, hpurging.finishes called waits, fun returned => ?_⟩
  cases hpurging with
  | ready => cases called.symm.trans returned
  | deleting is => cases is.symm.trans returned
  | ended is within jobs left =>
    refine ⟨jobs, fun key => ?_, left⟩
    rw [issued_iff_called within jobs, ← Cache.isInvalidatedBy_iff]
    exact Cache.purgeJobs_deletes_iff

end

/-- A user and his mail address are stored, and the next deletion of rows is going to fail. -/
def guardedUsers : World Row RecordingStore :=
  { archivedUsers with
    store := {
      entries := ((∅ : Std.TreeMap String String).insert "a:p:users:1" "1").insert
        "a:u:users:email:x" "1"
      failures := (∅ : Std.TreeMap String Nat).insert "batch_delete" 1 } }

theorem guardedUsers_issues : guardedUsers.issues clearUsers =
    [⟨0, .deleteAll ["a:p:users:1"], true⟩, ⟨1, .sweep "a:s:users", false⟩,
      ⟨0, .sweep "a:u:users:email", false⟩] := by
  cbv

/-- The deletion of the user's row fails, the row survives, and the index is swept nevertheless. -/
theorem row_survived_index_swept :
    ∃ (w : World Row RecordingStore) (log : List (Event Row)),
      guardedUsers.node.activities[0]? = some (.change userDeleted .ready) ∧
      guardedUsers.node.cache.config.detachesUpkeep = false ∧
      guardedUsers.perform? (Unbroken 0) clearUsers = some (w, log) ∧
      w.node.activities[0]? = some (.change userDeleted .ended) ∧
      w.Holds "a:p:users:1" "1" ∧ guardedUsers.Holds "a:u:users:email:x" "1" ∧
      ∀ value, ¬ w.Holds "a:u:users:email:x" value := by
  have hrun : (guardedUsers.perform? (Unbroken 0) clearUsers).map
      (fun last => last.1.node.activities) = some [.change userDeleted .ended] := by cbv
  obtain ⟨⟨w, log⟩, performed, hactivities⟩ := Option.map_eq_some_iff.mp hrun
  have returned : w.node.activities[0]? = some (.change userDeleted .ended) := by
    rw [hactivities]
    rfl
  obtain ⟨-, -, hended⟩ := failed_deletions_stop_no_others rfl rfl performed
  obtain ⟨-, -, hleft⟩ := hended returned
  rw [guardedUsers_issues] at hleft
  have hrow : guardedUsers.Holds "a:p:users:1" "1" := by
    change guardedUsers.store.entries["a:p:users:1"]? = some "1"
    cbv
  have hindexed : guardedUsers.Holds "a:u:users:email:x" "1" := by
    change guardedUsers.store.entries["a:u:users:email:x"]? = some "1"
    cbv
  refine ⟨w, log, rfl, rfl, performed, returned, (hleft _ _).mpr ⟨hrow, ?_⟩, hindexed, fun value held => ?_⟩
  · intro issue mem deletes
    simp only [List.mem_cons, List.not_mem_nil, or_false] at mem
    rcases mem with rfl | rfl | rfl
    · rfl
    · have hunder : isUnder "a:p:users:1" "a:s:users" = true := deletes
      exact absurd hunder (by decide)
    · have hunder : isUnder "a:p:users:1" "a:u:users:email" = true := deletes
      exact absurd hunder (by decide)
  · have hunder : isUnder "a:u:users:email:x" "a:u:users:email" = true := by decide
    have hfailed := ((hleft _ _).mp held).2 ⟨0, .sweep "a:u:users:email", false⟩ (by simp) hunder
    cases hfailed

end World

end ReadThrough
