import ReadThrough.Proofs.Freshness.Detached
import ReadThrough.Proofs.Reads.Remembered

/-! # Calls one after another

A single caller makes reads without point lookups, changes, resets and sweeps of searches, and awaits
each. At most the last of them is in progress.

* `World.Serial` are the runs;
* `World.Standing` says how far the call in progress has come, and what the store holds meanwhile;
* `World.Replaying` is the invariant of a history of such calls, and `Replaying.of_comesTo` its
  preservation, given what the call in progress comes to by a move.
-/

namespace ReadThrough
set_option autoImplicit false

variable {ρ σ : Type}

/-! ## Serial runs -/

/-- The activity is a read without a point lookup, a change, a reset or a sweep of searches; the names
of tables are free of colons. -/
def Activity.Replayable (format : RowFormat ρ) : Activity ρ → Prop
  | .read query format' _ => format' = format ∧ ColonFree query.table ∧ query.pointLookup? = none
  | .change event _ => ColonFree event.table
  | .request .reset _ => True
  | .request (.invalidateSearches table) _ => ColonFree table
  | _ => False

/-- The action starts such an activity, lets one go on, or lets time pass. -/
def Action.Replayable (format : RowFormat ρ) : Action ρ σ → Prop
  | .read query format' => (Activity.ofQuery query format').Replayable format
  | .change event => (Activity.ofChange event : Activity ρ).Replayable format
  | .request asked => (Activity.ofRequest asked : Activity ρ).Replayable format
  | .move taken => ∀ i, taken ≠ .abort i
  | .wait _ => True
  | .forget _ | .disturb _ => False

theorem Activity.replayable_origin {format : RowFormat ρ} {activity : Activity ρ}
    (h : activity.Replayable format) : activity.origin.Replayable format := by
  cases activity with
  | read | change => exact h
  | job => exact h.elim
  | request asked stage => cases asked <;> exact h

theorem Activity.Replayable.of_origin {format : RowFormat ρ} {activity after : Activity ρ}
    (h : activity.Replayable format) (same : after.origin = activity.origin) :
    after.Replayable format := by
  have horigin := same ▸ replayable_origin h
  cases after with
  | read | change => exact horigin
  | job => exact horigin.elim
  | request asked stage => cases asked <;> exact horigin

namespace World

/-- A single caller makes such calls one after another, and awaits each. -/
def Serial (format : RowFormat ρ) (w : World ρ σ) (action : Action ρ σ) : Prop :=
  w.Sequential action ∧ action.Replayable format

/-! ## Moves of a history -/

section

variable {c : Cache} {format : RowFormat ρ} {log log' : List (Event ρ)} {w w' : World ρ σ}
  {move : Move ρ} {activity : Activity ρ} {step : ActivityStep ρ σ} {i : ActivityId} {query : Query}

theorem asked_mem_after {asked : Query} {before stage : ReadStage ρ}
    (was : w.Reads move.activity query format before)
    (is : step.activity = .read query format stage) :
    .asked move.activity asked ∈ log ++ w.events (w.after move.activity step) (.move move) ↔
      .asked move.activity asked ∈ log ∨ query = asked ∧ step.fetches = true := by
  rw [List.mem_append, events_after was is, asked_mem_events]
  simp

theorem delivered_mem_after {read : Query} {before stage : ReadStage ρ} {outcome : FetchOutcome ρ}
    (was : w.Reads move.activity query format before)
    (is : step.activity = .read query format stage) {format' : RowFormat ρ} :
    .delivered move.activity read format' outcome ∈
        log ++ w.events (w.after move.activity step) (.move move) ↔
      .delivered move.activity read format' outcome ∈ log ∨
        query = read ∧ format = format' ∧ move.outcome? = some outcome := by
  rw [List.mem_append, events_after was is, delivered_mem_events]
  simp

def Unanswered (log : List (Event ρ)) (i : ActivityId) : Prop :=
  ∀ query format outcome, .delivered i query format outcome ∉ log

/-- The activity has had nothing to do with the data source: neither a question nor an answer. -/
structure Untold (log : List (Event ρ)) (i : ActivityId) : Prop where
  unasked : ∀ query, .asked i query ∉ log
  unanswered : Unanswered log i

theorem delivered_mem_of_quiet {read : Query} {before stage : ReadStage ρ} {outcome : FetchOutcome ρ}
    (was : w.Reads move.activity query format before) (is : step.activity = .read query format stage)
    (quiet : move.outcome? = none) {format' : RowFormat ρ} :
    .delivered move.activity read format' outcome ∈
        log ++ w.events (w.after move.activity step) (.move move) ↔
      .delivered move.activity read format' outcome ∈ log := by
  rw [delivered_mem_after was is, quiet]
  simp

theorem Unanswered.delivered_mem {read : Query} {before stage : ReadStage ρ}
    {outcome : FetchOutcome ρ} (h : Unanswered log move.activity)
    (was : w.Reads move.activity query format before) (is : step.activity = .read query format stage)
    {format' : RowFormat ρ} :
    .delivered move.activity read format' outcome ∈
        log ++ w.events (w.after move.activity step) (.move move) ↔
      query = read ∧ format = format' ∧ move.outcome? = some outcome := by
  rw [delivered_mem_after was is, or_iff_right (h read format' outcome)]

theorem unanswered_after {before stage : ReadStage ρ}
    (was : w.Reads move.activity query format before) (is : step.activity = .read query format stage)
    (quiet : move.outcome? = none) (unanswered : Unanswered log move.activity) :
    Unanswered (log ++ w.events (w.after move.activity step) (.move move)) move.activity :=
  fun read format' outcome => mt (delivered_mem_of_quiet was is quiet).mp
    (unanswered read format' outcome)

theorem untold_after {before stage : ReadStage ρ} (was : w.Reads move.activity query format before)
    (is : step.activity = .read query format stage) (quiet : move.outcome? = none)
    (silent : step.fetches = false) (untold : Untold log move.activity) :
    Untold (log ++ w.events (w.after move.activity step) (.move move)) move.activity := by
  refine ⟨fun asked => ?_, unanswered_after was is quiet untold.unanswered⟩
  rw [asked_mem_after was is]
  rintro (hold | ⟨-, hnew⟩)
  · exact untold.unasked asked hold
  · cases silent.symm.trans hnew

theorem agrees_of_move (log : List (Event ρ))
    (found : w.node.activities[move.activity]? = some activity)
    (step : ActivityStep ρ σ) :
    Agrees log w (log ++ w.events (w.after move.activity step) (.move move))
      (w.after move.activity step) move.activity := by
  refine ⟨fun event hevent => ?_, fun k hk => ?_⟩
  · rw [List.mem_append, or_iff_left]
    intro hnew
    exact Nat.ne_of_lt hevent (reader_of_mem_events hnew)
  · have hlt : k < w.node.activities.length :=
      Nat.lt_trans hk (List.getElem?_eq_some_iff.mp found).1
    rw [List.getElem?_eq_getElem hlt]
    exact after_activities_other step (Nat.ne_of_lt hk) (List.getElem?_eq_getElem hlt)

theorem holds_of_store [Medium σ] [LawfulMedium σ] (store : step.store = w.store) (key value : String) :
    LawfulMedium.Holds step.store w.now key value ↔ w.Holds key value := by
  rw [store]
  exact Iff.rfl

theorem recalls_after [Medium σ] [LawfulMedium σ]
    (found : w.node.activities[move.activity]? = some activity)
    (recalls : Recalls c format log w move.activity w.Holds)
    (same : ∀ key value, LawfulMedium.Holds step.store w.now key value ↔ w.Holds key value) :
    Recalls c format (log ++ w.events (w.after move.activity step) (.move move))
      (w.after move.activity step) move.activity (w.after move.activity step).Holds :=
  (recalls.agrees (agrees_of_move log found step)).congr same

theorem not_hasReturned_of_move [Medium σ] {now : Nat} {cache : Cache} {store : σ}
    (replayable : activity.Replayable format)
    (taken : activity.move? now cache store move = some step) : hasReturned activity = false := by
  cases activity with
  | job => exact replayable.elim
  | read query format' stage =>
    cases stage with
    | ended => cases move <;> cases taken
    | _ => rfl
  | change event stage =>
    cases stage with
    | ended => cases move <;> cases taken
    | _ => rfl
  | request asked stage =>
    cases stage with
    | ended => cases move <;> cases taken
    | _ => rfl

/-- A read has answered without asking the data source just if the search was remembered, and then it
has returned what was. Otherwise it has returned what it fetched. -/
structure Settled (c : Cache) (format : RowFormat ρ) (log : List (Event ρ)) (w : World ρ σ)
    (i : ActivityId) (query : Query) (answer : Answer ρ) : Prop where
  unasked_iff : (∀ asked, .asked i asked ∉ log) ↔ ∃ result, Remembered c format log w i query result
  returned : ∀ result, Remembered c format log w i query result → answer = .returned (.ok result)
  fetched : ∀ result, .delivered i query format (.answered result) ∈ log →
    answer = .returned (.ok (query.shape.normalize result))

theorem Settled.agrees {answer : Answer ρ}
    (h : Settled c format log w i query answer) (agrees : Agrees log w log' w' (i + 1)) :
    Settled c format log' w' i query answer := by
  have hremembered : ∀ result, Remembered c format log' w' i query result ↔
      Remembered c format log w i query result :=
    fun _ => (agrees.mono (Nat.le_succ i)).remembered_iff
  constructor
  · simp only [hremembered, ← h.unasked_iff, agrees.events (.asked i _) (Nat.lt_succ_self i)]
  · intro result remembered
    exact h.returned result ((hremembered result).mp remembered)
  · intro result delivered
    have hevent := agrees.events (.delivered i query format (.answered result)) (Nat.lt_succ_self i)
    exact h.fetched result (hevent.mp delivered)

/-- A read of a cached table has asked the data source, as nothing was remembered of its search. -/
structure Missed (c : Cache) (format : RowFormat ρ) (log : List (Event ρ)) (w : World ρ σ)
    (i : ActivityId) (query : Query) : Prop where
  cached : c.config.caches query.table
  asked : .asked i query ∈ log
  unknown : ∀ result, ¬ Remembered c format log w i query result

theorem Missed.agrees (h : Missed c format log w i query) (agrees : Agrees log w log' w' i)
    (longer : log ⊆ log') : Missed c format log' w' i query where
  cached := h.cached
  asked := longer h.asked
  unknown result remembered := h.unknown result (agrees.remembered_iff.mp remembered)

theorem Missed.after (h : Missed c format log w move.activity query)
    (found : w.node.activities[move.activity]? = some activity) (step : ActivityStep ρ σ) :
    Missed c format (log ++ w.events (w.after move.activity step) (.move move))
      (w.after move.activity step) move.activity query :=
  h.agrees (agrees_of_move log found step) (List.subset_append_left _ _)

theorem Missed.settled {answer : Answer ρ} (h : Missed c format log w i query)
    (told : ∀ result, .delivered i query format (.answered result) ∈ log →
      answer = .returned (.ok (query.shape.normalize result))) :
    Settled c format log w i query answer := by
  refine ⟨⟨fun unasked => absurd h.asked (unasked query), ?_⟩, ?_, told⟩
  · rintro ⟨result, remembered⟩
    exact absurd remembered (h.unknown result)
  · exact fun result remembered => absurd remembered (h.unknown result)

/-- The entries under these keys are the searches that an activity sweeps. -/
def SweepsFor (c : Cache) (Targets : String → Prop) (activity : Activity ρ) : Prop :=
  ∀ query : Query, ColonFree query.table →
    (Targets (c.resultKey query) ↔ c.Drops query.table activity)

theorem SweepsFor.of_origin {Targets : String → Prop} {after : Activity ρ}
    (h : SweepsFor c Targets activity) (same : after.origin = activity.origin) :
    SweepsFor c Targets after := by
  intro query free
  rw [h query free, ← Cache.drops_origin, ← same, Cache.drops_origin]

end

/-! ## The call in progress -/

section

variable [Medium σ] [LawfulMedium σ] [MapMedium σ]

/-- How far the last of these calls has come. -/
inductive Standing (c : Cache) (format : RowFormat ρ) (log : List (Event ρ)) (w : World ρ σ)
    (n : ActivityId) : Activity ρ → Prop
  | ready {activity} (new : activity.origin = activity) (waits : hasReturned activity = false)
      (untold : Untold log n) (recalls : Recalls c format log w n w.Holds) :
    Standing c format log w n activity
  | bypassing {query} (uncached : c.config.caches query.table = false)
      (recalls : Recalls c format log w n w.Holds) :
    Standing c format log w n (.read query format .bypassing)
  | looking {query flight operation} (cached : c.config.caches query.table)
      (untold : Untold log n) (recalls : Recalls c format log w n w.Holds)
      (finds : operation = .asked (.get (c.resultKey query)) ∨
        operation.FoundAmong (w.Holds (c.resultKey query))) :
    Standing c format log w n (.read query format (.awaitingSearch flight operation))
  | fetching {query flight} (missed : Missed c format log w n query) (unanswered : Unanswered log n)
      (recalls : Recalls c format log w n w.Holds) :
    Standing c format log w n (.read query format (.fetching flight))
  | filling {query flight result outcome jobs answer value Before}
      (missed : Missed c format log w n query)
      (delivered : .delivered n query format (.answered answer) ∈ log)
      (normal : ∀ answer, .delivered n query format (.answered answer) ∈ log →
        query.shape.normalize answer = result)
      (retains : c.Retains format result)
      (form : format.stored? result = some value) (recalls : Recalls c format log w n Before)
      (filling : Filling (fun key => ∃ other, key = c.resultKey other) Before
        ⟨c.resultKey query, value⟩ w.now w.store jobs) :
    Standing c format log w n (.read query format (.filling flight result outcome jobs))
  | deleting {event jobs Targets Before} (recalls : Recalls c format log w n Before)
      (sweeps : SweepsFor c Targets (.change event (.deleting jobs) : Activity ρ))
      (deletion : ∀ job ∈ jobs, job.IsDeletion)
      (clearing : Clearing Targets Before w.now w.store fun key => ∃ job ∈ jobs, job.Deletes key) :
    Standing c format log w n (.change event (.deleting jobs))
  | sweeping {asked : Request .done} {operation : Operation .done} {Targets Before}
      (recalls : Recalls c format log w n Before)
      (sweeps : SweepsFor c Targets (.request asked (.waiting operation) : Activity ρ))
      (deletion : operation.IsDeletion)
      (clearing : Clearing Targets Before w.now w.store operation.Deletes) :
    Standing c format log w n (.request asked (.waiting operation))

/-- What a call has come to by a step: it is still in progress, or it has returned and left the store
with what is to be remembered. -/
inductive ComesTo (c : Cache) (format : RowFormat ρ) (log : List (Event ρ)) (w : World ρ σ)
    (n : ActivityId) (activity : Activity ρ) : Prop
  | goesOn (standing : Standing c format log w n activity)
  | returns (returned : hasReturned activity) (recalls : Recalls c format log w (n + 1) w.Holds)
      (settled : ∀ query answer, activity = .read query format (.ended answer) →
        c.config.caches query.table → Settled c format log w n query answer)

/-- What the activity of a move has come to by this step. -/
def MoveComesTo (c : Cache) (format : RowFormat ρ) (log : List (Event ρ)) (w : World ρ σ)
    (move : Move ρ) (step : ActivityStep ρ σ) : Prop :=
  ComesTo c format (log ++ w.events (w.after move.activity step) (.move move))
    (w.after move.activity step) move.activity step.activity

/-- A history of such calls, with a cache that stores searches and waits for its jobs, and rows that are
read back as they were written. -/
structure Replaying (c : Cache) (format : RowFormat ρ) (log : List (Event ρ)) (w : World ρ σ) : Prop where
  level : c.config.level.cachesSearches
  waits : c.config.detachesUpkeep = false
  back : ∀ rows, format.ReadsBack rows
  grows : c.Grows w.node.cache
  dependable : MapMedium.Dependable w.store
  led : Led w
  calls : ∀ activity ∈ w.node.activities, activity.Replayable format
  known : ∀ event ∈ log, event.reader < w.node.activities.length
  resting : (∀ activity ∈ w.node.activities, hasReturned activity) →
    Recalls c format log w w.node.activities.length w.Holds
  working : ∀ n activity, w.node.activities[n]? = some activity → hasReturned activity = false →
    n + 1 = w.node.activities.length ∧ Standing c format log w n activity
  settled : ∀ i query answer, w.Reads i query format (.ended answer) →
    c.config.caches query.table → Settled c format log w i query answer

variable {c : Cache} {format : RowFormat ρ} {log : List (Event ρ)} {w : World ρ σ} {move : Move ρ}
  {activity : Activity ρ} {step : ActivityStep ρ σ} {n : ActivityId}

theorem Standing.unreturned (h : Standing c format log w n activity) : hasReturned activity = false := by
  cases h with
  | ready new waits => exact waits
  | _ => rfl

/-- A move of the call in progress goes on with the history. -/
theorem Replaying.of_comesTo (h : Replaying c format log w)
    (found : w.node.activities[move.activity]? = some activity)
    (taken : activity.move? w.now w.node.cache w.store move = some step)
    (dependable : MapMedium.Dependable step.store) (comes : MoveComesTo c format log w move step) :
    Replaying c format (log ++ w.events (w.after move.activity step) (.move move))
      (w.after move.activity step) := by
  have hmem := List.mem_of_getElem? found
  have hreplayable := h.calls activity hmem
  have hunreturned := not_hasReturned_of_move hreplayable taken
  obtain ⟨hlast, -⟩ := h.working move.activity activity found hunreturned
  obtain ⟨hgrows, hspawned⟩ := Activity.move?_grows taken
  have hnone : step.spawned = [] := hspawned (h.grows.config ▸ h.waits)
  have hactivities : (w.after move.activity step).node.activities =
      w.node.activities.set move.activity step.activity := by
    simp [after, hnone]
  have hmover := after_activities_mover found step
  have hagrees := agrees_of_move log found step
  have hlength : (w.after move.activity step).node.activities.length =
      w.node.activities.length := by
    rw [hactivities, List.length_set]
  -- all others come before the mover
  have hothers : ∀ i other, i ≠ move.activity →
      (w.after move.activity step).node.activities[i]? = some other →
      i < move.activity ∧ w.node.activities[i]? = some other := by
    intro i other hi hother
    rw [hactivities, List.getElem?_set_ne (Ne.symm hi)] at hother
    have hlt : i < move.activity + 1 := hlast ▸ (List.getElem?_eq_some_iff.mp hother).1
    exact ⟨Nat.lt_of_le_of_ne (Nat.le_of_lt_succ hlt) hi, hother⟩
  have hacts : w.act? (.move move) = some (w.after move.activity step) :=
    act?_move_iff.mpr ⟨activity, step, found, taken, rfl⟩
  refine ⟨h.level, h.waits, h.back, h.grows.trans hgrows, dependable,
    (act?_flightStep hacts).led h.led, ?_, ?_, ?_, ?_, ?_⟩
  · intro other hother
    rw [hactivities] at hother
    rcases List.mem_or_eq_of_mem_set hother with hold | rfl
    · exact h.calls other hold
    · exact hreplayable.of_origin (Activity.move?_origin taken)
  · intro event hevent
    rw [hlength]
    rcases List.mem_append.mp hevent with hold | hnew
    · exact h.known event hold
    · rw [reader_of_mem_events hnew]
      exact (List.getElem?_eq_some_iff.mp found).1
  · intro hreturned
    rw [hlength, ← hlast]
    cases comes with
    | goesOn standing =>
      exact absurd (hreturned _ (List.mem_of_getElem? hmover)) (by simp [standing.unreturned])
    | returns returned recalls => exact recalls
  · intro n other hother hgoes
    rw [hlength]
    by_cases hn : n = move.activity
    · subst hn
      obtain rfl := Option.some.inj (hmover.symm.trans hother)
      refine ⟨hlast, ?_⟩
      cases comes with
      | goesOn standing => exact standing
      | returns returned => cases hgoes.symm.trans returned
    · obtain ⟨hbefore, hold⟩ := hothers n other hn hother
      have hend := (h.working n other hold hgoes).1.trans hlast.symm
      exact absurd (Nat.succ.inj hend) hn
  · intro i query answer hread cached
    by_cases hi : i = move.activity
    · subst hi
      have hanswer := Option.some.inj (hmover.symm.trans hread)
      cases comes with
      | goesOn standing =>
        have hwaits := standing.unreturned
        rw [hanswer] at hwaits
        cases hwaits
      | returns returned recalls settled => exact settled query answer hanswer cached
    · obtain ⟨hbefore, hold⟩ := hothers i _ hi hread
      exact (h.settled i query answer hold cached).agrees (hagrees.mono hbefore)

end

end World

end ReadThrough
