import ReadThrough.Node

/-! # Runs of a node

A run is any sequence of actions, in any order: callers start reads, changes and direct operations
or forget a read, activities make moves, time passes, and others may change the store.

* `World.act?` carries out an action, if it can be carried out;
* `World.events` are the events of a step that concern reads: who joined a flight and in which role,
  who asked the data source and what it answered, who took over the outcome of a flight;
* `Runs` relates a world to the worlds that runs of admitted actions lead to, with their events.
-/

namespace ReadThrough
set_option autoImplicit false

variable {ρ σ : Type}

/-! ## Worlds and actions -/

/-- A node on its store at a time. -/
structure World (ρ σ : Type) where
  node : Node ρ
  store : σ
  now : Nat := 0

/-- What can happen next. -/
inductive Action (ρ σ : Type)
  | read (query : Query) (format : RowFormat ρ)
  | change (change : Change)
  | request {kind : ReplyKind} (request : Request kind)
  /-- A caller lets later reads like this one start afresh. -/
  | forget (query : Query)
  | move (move : Move ρ)
  | wait (nanos : Nat)
  /-- The store is changed by others. -/
  | disturb (store : σ)

namespace World

def flights (w : World ρ σ) : Flights Outcome := w.node.cache.flights

/-- The activity of a number is this read, at this stage. -/
def Reads (w : World ρ σ) (reader : ActivityId) (query : Query) (format : RowFormat ρ)
    (stage : ReadStage ρ) : Prop :=
  w.node.activities[reader]? = some (.read query format stage)

def IsNew (w : World ρ σ) : Prop :=
  (∃ config drawnId, Cache.create config drawnId = .ok w.node.cache) ∧ w.node.activities = []

def enter (w : World ρ σ) (activity : Activity ρ) : World ρ σ :=
  { w with node := w.node.start activity }

def forget (w : World ρ σ) (query : Query) : World ρ σ :=
  { w with node := { w.node with cache := w.node.cache.forgetRead query } }

def after (w : World ρ σ) (mover : ActivityId) (step : ActivityStep ρ σ) : World ρ σ :=
  { w with
    node := {
      cache := step.cache
      activities := w.node.activities.set mover step.activity ++ step.spawned.map Activity.ofJob
      fetches := if step.fetches then w.node.fetches + 1 else w.node.fetches }
    store := step.store }

/-- Carry out an action. A move needs an activity that can go on in its way. -/
def act? [Medium σ] (w : World ρ σ) : Action ρ σ → Option (World ρ σ)
  | .read query format => some (w.enter (.ofQuery query format))
  | .change change => some (w.enter (.ofChange change))
  | .request request => some (w.enter (.ofRequest request))
  | .forget query => some (w.forget query)
  | .move move =>
    (w.node.move? w.now w.store move).map fun step =>
      { w with node := step.node, store := step.store }
  | .wait nanos => some { w with now := w.now + nanos }
  | .disturb store => some { w with store := store }

/-! ## New worlds -/

theorem IsNew.cache {w : World ρ σ} (new : w.IsNew) : ∃ config drawnId, config.check = .ok () ∧
    w.node.cache = {
      config := config
      space := ⟨config.instanceId.getD drawnId⟩
      indexes := config.declaredIndexes.map fun _ names => .ofList names } := by
  obtain ⟨⟨config, drawnId, hcreate⟩, -⟩ := new
  unfold Cache.create at hcreate
  split at hcreate
  · cases hcreate
  · rename_i hvalid
    exact ⟨config, drawnId, hvalid, (Except.ok.inj hcreate).symm⟩

theorem IsNew.flights {w : World ρ σ} (new : w.IsNew) : w.flights = {} := by
  obtain ⟨config, drawnId, -, hcache⟩ := new.cache
  rw [World.flights, hcache]

theorem IsNew.counters {w : World ρ σ} (new : w.IsNew) : w.node.cache.counters = {} := by
  obtain ⟨config, drawnId, -, hcache⟩ := new.cache
  rw [hcache]

theorem IsNew.not_reads {w : World ρ σ} (new : w.IsNew) (i : ActivityId) (query : Query)
    (format : RowFormat ρ) (stage : ReadStage ρ) : ¬ w.Reads i query format stage := by
  simp [Reads, new.2]

/-! ## What an action does -/

theorem act?_move_iff [Medium σ] {w w' : World ρ σ} {move : Move ρ} :
    w.act? (.move move) = some w' ↔
      ∃ activity step, w.node.activities[move.activity]? = some activity ∧
        activity.move? w.now w.node.cache w.store move = some step ∧
        w' = w.after move.activity step := by
  simp only [act?, Node.move?, Option.map_eq_some_iff, Option.bind_eq_bind,
    Option.bind_eq_some_iff]
  constructor
  · rintro ⟨_, ⟨activity, found, step, taken, ⟨⟩⟩, rfl⟩
    exact ⟨activity, step, found, taken, rfl⟩
  · rintro ⟨activity, step, found, taken, rfl⟩
    exact ⟨_, ⟨activity, found, step, taken, rfl⟩, rfl⟩

theorem enter_activities (w : World ρ σ) (activity : Activity ρ) (i : ActivityId) :
    (w.enter activity).node.activities[i]? =
      if i = w.node.activities.length then some activity else w.node.activities[i]? := by
  simp only [enter, Node.start]
  grind

theorem of_enter_activities {w : World ρ σ} {new activity : Activity ρ} {i : ActivityId}
    (h : (w.enter new).node.activities[i]? = some activity) :
    (i = w.node.activities.length ∧ activity = new) ∨
      w.node.activities[i]? = some activity := by
  rw [enter_activities] at h
  split at h
  · rename_i hi
    exact .inl ⟨hi, (Option.some.inj h).symm⟩
  · exact .inr h

theorem enter_activities_of_some {w : World ρ σ} {activity : Activity ρ} {i : ActivityId}
    (new : Activity ρ) (h : w.node.activities[i]? = some activity) :
    (w.enter new).node.activities[i]? = some activity := by
  have hlt : i < w.node.activities.length := (List.getElem?_eq_some_iff.mp h).1
  rw [enter_activities, if_neg (Nat.ne_of_lt hlt), h]

theorem after_activities_mover {w : World ρ σ} {mover : ActivityId} {activity : Activity ρ}
    (found : w.node.activities[mover]? = some activity) (step : ActivityStep ρ σ) :
    (w.after mover step).node.activities[mover]? = some step.activity := by
  have hlt : mover < w.node.activities.length := (List.getElem?_eq_some_iff.mp found).1
  simp [after, List.getElem?_append, hlt]

theorem after_activities_other {w : World ρ σ} {mover i : ActivityId} {activity : Activity ρ}
    (step : ActivityStep ρ σ) (hi : i ≠ mover) (h : w.node.activities[i]? = some activity) :
    (w.after mover step).node.activities[i]? = some activity := by
  have hlt : i < (w.node.activities.set mover step.activity).length := by
    rw [List.length_set]
    exact (List.getElem?_eq_some_iff.mp h).1
  simp only [after]
  rw [List.getElem?_append_left hlt, List.getElem?_set_ne (Ne.symm hi), h]

/-- Whoever is there after a step is the activity that moved, or another that was there before, or a
job that the step sent off. -/
theorem of_after_activities {w : World ρ σ} {mover i : ActivityId} {step : ActivityStep ρ σ}
    {activity : Activity ρ}
    (h : (w.after mover step).node.activities[i]? = some activity) :
    (i = mover ∧ activity = step.activity) ∨
      (i ≠ mover ∧ w.node.activities[i]? = some activity) ∨
      ∃ job ∈ step.spawned, activity = .ofJob job := by
  simp only [after, List.getElem?_append, List.length_set] at h
  split at h
  · rw [List.getElem?_set] at h
    split at h
    · rename_i hi
      split at h
      · exact .inl ⟨hi.symm, (Option.some.inj h).symm⟩
      · cases h
    · rename_i hi
      exact .inr (.inl ⟨Ne.symm hi, h⟩)
  · rw [List.getElem?_map, Option.map_eq_some_iff] at h
    obtain ⟨job, hjob, rfl⟩ := h
    exact .inr (.inr ⟨job, List.mem_of_getElem? hjob, rfl⟩)

/-- An activity stays as it is in a step, unless it moves. -/
theorem keeps_or_moves [Medium σ] {w w' : World ρ σ} {action : Action ρ σ} {i : ActivityId}
    {activity : Activity ρ} (found : w.node.activities[i]? = some activity)
    (acts : w.act? action = some w') :
    w'.node.activities[i]? = some activity ∨
      ∃ move step, activity.move? w.now w.node.cache w.store move = some step ∧
        w' = w.after i step := by
  cases action with
  | read | change | request =>
    obtain rfl := Option.some.inj acts
    exact .inl (enter_activities_of_some _ found)
  | forget | wait | disturb =>
    obtain rfl := Option.some.inj acts
    exact .inl found
  | move move =>
    obtain ⟨mover, step, found', taken, rfl⟩ := act?_move_iff.mp acts
    by_cases hi : i = move.activity
    · subst hi
      obtain rfl := Option.some.inj (found.symm.trans found')
      exact .inr ⟨move, step, taken, rfl⟩
    · exact .inl (after_activities_other step hi found)

end World

/-! ## Events -/

inductive Event (ρ : Type)
  /-- The data source answered the read. -/
  | delivered (reader : ActivityId) (query : Query) (format : RowFormat ρ)
      (outcome : FetchOutcome ρ)
  /-- The read joined a flight in this role. -/
  | joined (reader : ActivityId) (query : Query) (role : FlightRole)
  /-- The read asked the data source. -/
  | asked (reader : ActivityId) (query : Query)
  /-- The read returned the outcome of a flight that it followed. -/
  | adopted (reader : ActivityId) (query : Query) (flight : FlightId)

/-- The role in a flight that a stage belongs to. -/
def ReadStage.role? : ReadStage ρ → Option FlightRole
  | .following flight => some (.follower flight)
  | stage => stage.leads?.map .leader

/-- The role that a read took on in a turn. Only a read that begins, or one that followed a flight,
joins. -/
def ReadStage.joined? : (before after : ReadStage ρ) → Option FlightRole
  | .ready, after | .following _, after => after.role?
  | _, _ => none

/-- The flight whose outcome a read returned in a turn. -/
def ReadStage.adopted? : (before after : ReadStage ρ) → Option FlightId
  | .following flight, .ended (.returned _) => some flight
  | _, _ => none

def Move.outcome? : Move ρ → Option (FetchOutcome ρ)
  | .deliver _ outcome => some outcome
  | _ => none

/-- The events of a move that takes a read from one stage to another. -/
def Move.events (move : Move ρ) (query : Query) (format : RowFormat ρ)
    (before after : ReadStage ρ) (asks : Bool) : List (Event ρ) :=
  (move.outcome?.toList.map fun outcome => .delivered move.activity query format outcome) ++
  ((before.joined? after).toList.map fun role => .joined move.activity query role) ++
  ((before.adopted? after).toList.map fun flight => .adopted move.activity query flight) ++
  (if asks then [.asked move.activity query] else [])

section

variable {move : Move ρ} {query query' : Query} {format format' : RowFormat ρ}
  {before after : ReadStage ρ} {asks : Bool} {i : ActivityId}

theorem joined_mem_events {role : FlightRole} :
    .joined i query' role ∈ move.events query format before after asks ↔
      move.activity = i ∧ query = query' ∧ before.joined? after = some role := by
  cases asks <;> simp [Move.events, eq_comm, and_assoc, and_left_comm, and_comm]

theorem adopted_mem_events {flight : FlightId} :
    .adopted i query' flight ∈ move.events query format before after asks ↔
      move.activity = i ∧ query = query' ∧ before.adopted? after = some flight := by
  cases asks <;> simp [Move.events, eq_comm, and_assoc, and_left_comm, and_comm]

theorem asked_mem_events :
    .asked i query' ∈ move.events query format before after asks ↔
      move.activity = i ∧ query = query' ∧ asks = true := by
  cases asks <;> simp [Move.events, eq_comm]

theorem delivered_mem_events {outcome : FetchOutcome ρ} :
    .delivered i query' format' outcome ∈ move.events query format before after asks ↔
      move.activity = i ∧ query = query' ∧ format = format' ∧
        move.outcome? = some outcome := by
  cases asks <;> simp [Move.events, eq_comm, and_assoc, and_left_comm, and_comm]

end

def World.events (w w' : World ρ σ) : Action ρ σ → List (Event ρ)
  | .move move =>
    match w.node.activities[move.activity]?, w'.node.activities[move.activity]? with
    | some (.read query format before), some (.read _ _ after) =>
      move.events query format before after (w.node.fetches < w'.node.fetches)
    | _, _ => []
  | _ => []

/-! ## Runs -/

def Unrestricted (_ : World ρ σ) (_ : Action ρ σ) : Prop := True

instance (w : World ρ σ) (action : Action ρ σ) : Decidable (Unrestricted w action) :=
  .isTrue trivial

/-- The second world is reached from the first by admitted actions, with these events in order. -/
inductive Runs [Medium σ] (admits : World ρ σ → Action ρ σ → Prop) (w : World ρ σ) :
    List (Event ρ) → World ρ σ → Prop
  | refl : Runs admits w [] w
  | step {log w' w''} (action : Action ρ σ) (run : Runs admits w log w')
      (admitted : admits w' action) (acts : w'.act? action = some w'') :
      Runs admits w (log ++ w'.events w'' action) w''

namespace Runs

variable [Medium σ] {admits : World ρ σ → Action ρ σ → Prop} {w w' w'' : World ρ σ}
  {log log' : List (Event ρ)}

theorem trans (first : Runs admits w log w') (second : Runs admits w' log' w'') :
    Runs admits w (log ++ log') w'' := by
  induction second with
  | refl => simpa using first
  | step action _ admitted acts ih =>
    rw [← List.append_assoc]
    exact .step action ih admitted acts

theorem single {action : Action ρ σ} (admitted : admits w action)
    (acts : w.act? action = some w') : Runs admits w (w.events w' action) w' := by
  simpa using Runs.step action .refl admitted acts

theorem imp {admits' : World ρ σ → Action ρ σ → Prop} (run : Runs admits w log w')
    (h : ∀ w action, admits w action → admits' w action) : Runs admits' w log w' := by
  induction run with
  | refl => exact .refl
  | step action _ admitted acts ih => exact .step action ih (h _ _ admitted) acts

end Runs

/-- Carry out a list of actions, if they are all admitted, and note the events. -/
def World.perform? [Medium σ] (admits : World ρ σ → Action ρ σ → Prop)
    [∀ w action, Decidable (admits w action)] (w : World ρ σ) :
    List (Action ρ σ) → Option (World ρ σ × List (Event ρ))
  | [] => some (w, [])
  | action :: rest =>
    if admits w action then do
      let next ← w.act? action
      let (last, log) ← next.perform? admits rest
      return (last, w.events next action ++ log)
    else none

theorem World.perform?_cons_iff [Medium σ] {admits : World ρ σ → Action ρ σ → Prop}
    [∀ w action, Decidable (admits w action)] {w w' : World ρ σ} {action : Action ρ σ}
    {rest : List (Action ρ σ)} {log : List (Event ρ)} :
    w.perform? admits (action :: rest) = some (w', log) ↔
      admits w action ∧ ∃ next later, w.act? action = some next ∧
        next.perform? admits rest = some (w', later) ∧ log = w.events next action ++ later := by
  rw [World.perform?]
  split
  · rename_i hadmitted
    simp only [hadmitted, true_and, Option.bind_eq_bind, Option.bind_eq_some_iff]
    constructor
    · rintro ⟨next, hact, ⟨last, later⟩, hlater, hsame⟩
      obtain ⟨rfl, rfl⟩ := Prod.mk.inj (Option.some.inj hsame)
      exact ⟨next, later, hact, hlater, rfl⟩
    · rintro ⟨next, later, hact, hlater, rfl⟩
      exact ⟨next, hact, (w', later), hlater, rfl⟩
  · rename_i hrefused
    simp [hrefused]

/-- If the actions have a property besides, they make up a run of actions with this property. -/
theorem Runs.of_perform?_each [Medium σ] {admits : World ρ σ → Action ρ σ → Prop}
    [∀ w action, Decidable (admits w action)] {Each : Action ρ σ → Prop} {w w' : World ρ σ}
    {actions : List (Action ρ σ)} {log : List (Event ρ)}
    (h : w.perform? admits actions = some (w', log)) (each : ∀ action ∈ actions, Each action) :
    Runs (fun w action => admits w action ∧ Each action) w log w' := by
  induction actions generalizing w log with
  | nil =>
    obtain ⟨rfl, rfl⟩ := Prod.mk.inj (Option.some.inj h)
    exact .refl
  | cons action rest ih =>
    obtain ⟨hnow, hrest⟩ := List.forall_mem_cons.mp each
    obtain ⟨hadmitted, next, later, hact, hlater, rfl⟩ := World.perform?_cons_iff.mp h
    exact (Runs.single ⟨hadmitted, hnow⟩ hact).trans (ih hlater hrest)

theorem Runs.of_perform? [Medium σ] {admits : World ρ σ → Action ρ σ → Prop}
    [∀ w action, Decidable (admits w action)] {w w' : World ρ σ} {actions : List (Action ρ σ)}
    {log : List (Event ρ)} (h : w.perform? admits actions = some (w', log)) :
    Runs admits w log w' :=
  (Runs.of_perform?_each h fun _ _ => trivial : Runs (fun w action => admits w action ∧ True) w log w').imp
    fun _ _ => And.left

end ReadThrough
