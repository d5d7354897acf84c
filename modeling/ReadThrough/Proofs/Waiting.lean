import ReadThrough.Proofs.Run
import ReadThrough.Proofs.Store.Progress

/-! # Activities that wait for jobs

A read waits for the jobs that store its result, an invalidation for those that delete. On a store that
answers, all of them come to their ends, if nothing else happens.

* `Activity.Waiting` says that an activity waits for jobs, given as a function of them;
* `World.CanWaitFor`: the activity can go on until it waits for jobs of a certain kind;
* `World.canWaitFor_ends` is the theorem.
-/

namespace ReadThrough
set_option autoImplicit false

variable {ρ σ : Type}

/-- The activity waits for the jobs that it is given. -/
structure Activity.Waiting (form : List JobRun → Activity ρ) : Prop where
  jobs : ∀ runs, (form runs).jobs = runs
  withJobs : ∀ runs later, (form runs).withJobs later = form later

theorem Activity.waiting_change (change : Change) :
    Waiting fun runs => (.change change (.deleting runs) : Activity ρ) :=
  ⟨fun _ => rfl, fun _ _ => rfl⟩

theorem Activity.waiting_read (query : Query) (format : RowFormat ρ) (flight : FlightId)
    (result : Option (ResultSet ρ)) (outcome : Outcome) :
    Waiting fun runs => .read query format (.filling flight result outcome runs) :=
  ⟨fun _ => rfl, fun _ _ => rfl⟩

namespace World

variable [Medium σ] {admits : World ρ σ → Action ρ σ → Prop} {w : World ρ σ} {mover : ActivityId}
  {form : List JobRun → Activity ρ} {runs : List JobRun} {index : Nat}

/-- One of the jobs takes a step. -/
theorem exists_act?_of_step? {run : JobRun} {taken : JobStep σ} (waiting : Activity.Waiting form)
    (is : w.node.activities[mover]? = some (form runs)) (found : runs[index]? = some run)
    (steps : run.step? w.now w.store = some taken) :
    ∃ next, w.act? (.move (.goJob mover index)) = some next ∧ next.now = w.now ∧ next.store = taken.store ∧
      next.node.cache = w.node.cache ∧
      next.node.activities[mover]? = some (form (runs.set index taken.run)) := by
  have hmove : (form runs).move? w.now w.node.cache w.store (.goJob mover index) = some
        { cache := w.node.cache
          store := taken.store
          activity := form (runs.set index taken.run)
          notices := taken.notices } := by
    simp [Activity.move?, Activity.goJob?, waiting.jobs, waiting.withJobs, found, steps]
  exact ⟨_, act?_move_iff.mpr ⟨_, _, is, hmove, rfl⟩, rfl, rfl, rfl, after_activities_mover is _⟩

variable [AnsweringMedium σ]

/-- The activity can go on until it waits for jobs like these, on a store that still answers. -/
def CanWaitFor (admits : World ρ σ → Action ρ σ → Prop) (mover : ActivityId)
    (form : List JobRun → Activity ρ) (w : World ρ σ) (P : List JobRun → Prop) : Prop :=
  ∃ log later runs, Runs admits w log later ∧ later.node.activities[mover]? = some (form runs) ∧
    later.node.cache = w.node.cache ∧ AnsweringMedium.Answering later.store ∧ P runs

/-- A job can go on to its end. -/
theorem canWaitFor_end {now : Nat} {store : σ} {run : JobRun} (ends : run.Ends now store)
    (waiting : Activity.Waiting form) (admitted : ∀ w index, admits w (.move (.goJob mover index)))
    (same : w.now = now ∧ w.store = store) (is : w.node.activities[mover]? = some (form runs))
    (found : runs[index]? = some run) (answering : AnsweringMedium.Answering w.store) :
    CanWaitFor admits mover form w fun later =>
      ∃ last : JobRun, (last.isFinished ∨ last.isBroken) ∧ later = runs.set index last := by
  induction ends generalizing w runs with
  | @ended store run last =>
    refine ⟨[], w, runs, .refl, is, rfl, answering, run, last, ?_⟩
    rw [← (List.getElem?_eq_some_iff.mp found).2, List.set_getElem_self]
  | @step store run step taken later ih =>
    obtain ⟨rfl, rfl⟩ := same
    obtain ⟨next, hacts, hnow, hstore, hcache, hnext⟩ := exists_act?_of_step? waiting is found taken
    have hlt : index < runs.length := (List.getElem?_eq_some_iff.mp found).1
    have hanswering : AnsweringMedium.Answering next.store :=
      hstore ▸ JobRun.answering_of_step? answering taken
    obtain ⟨log, last, rest, hruns, hlast, hkept, hstill, run, hended, rfl⟩ :=
      ih ⟨hnow, hstore⟩ hnext (by simp [hlt]) hanswering
    have hfirst := Runs.single (admitted w index) hacts
    exact ⟨_, last, _, hfirst.trans hruns, hlast, hkept.trans hcache, hstill, run, hended, by rw [List.set_set]⟩

/-- One after another, the first jobs can go on to their ends. -/
theorem canWaitFor_ends_of_lt (waiting : Activity.Waiting form)
    (admitted : ∀ w index, admits w (.move (.goJob mover index)))
    (is : w.node.activities[mover]? = some (form runs)) (answering : AnsweringMedium.Answering w.store)
    (count : Nat) :
    CanWaitFor admits mover form w fun later => later.length = runs.length ∧
      ∀ (index : Nat) (run : JobRun), index < count → later[index]? = some run →
        run.isFinished ∨ run.isBroken := by
  induction count with
  | zero => exact ⟨[], w, runs, .refl, is, rfl, answering, rfl, fun _ _ hlt => absurd hlt (Nat.not_lt_zero _)⟩
  | succ count ih =>
    obtain ⟨log, next, jobs, hruns, hnext, hcache, hanswering, hlength, hended⟩ := ih
    cases hrun : jobs[count]? with
    | none =>
      refine ⟨log, next, jobs, hruns, hnext, hcache, hanswering, hlength, fun index run hlt found => ?_⟩
      rcases Nat.lt_succ_iff_lt_or_eq.mp hlt with hbefore | rfl
      · exact hended index run hbefore found
      · cases hrun.symm.trans found
    | some run =>
      obtain ⟨log', last, _, hmore, hlast, hkept, hstill, final, hfinal, rfl⟩ :=
        canWaitFor_end (run.ends hanswering) waiting admitted ⟨rfl, rfl⟩ hnext hrun hanswering
      refine ⟨_, last, _, hruns.trans hmore, hlast, hkept.trans hcache, hstill, by simpa using hlength,
        fun index other hlt found => ?_⟩
      rcases Nat.lt_succ_iff_lt_or_eq.mp hlt with hbefore | rfl
      · rw [List.getElem?_set_ne (Nat.ne_of_gt hbefore)] at found
        exact hended index other hbefore found
      · have hplace := (List.getElem?_eq_some_iff.mp hrun).1
        rw [List.getElem?_set_self hplace] at found
        exact Option.some.inj found ▸ hfinal

/-- All the jobs can go on to their ends. -/
theorem canWaitFor_ends (waiting : Activity.Waiting form)
    (admitted : ∀ w index, admits w (.move (.goJob mover index)))
    (is : w.node.activities[mover]? = some (form runs)) (answering : AnsweringMedium.Answering w.store) :
    CanWaitFor admits mover form w fun later => ∀ run ∈ later, run.isFinished ∨ run.isBroken := by
  obtain ⟨log, later, jobs, hruns, hlater, hcache, hstill, hlength, hended⟩ :=
    canWaitFor_ends_of_lt waiting admitted is answering runs.length
  refine ⟨log, later, jobs, hruns, hlater, hcache, hstill, fun run mem => ?_⟩
  obtain ⟨index, hindex⟩ := List.getElem?_of_mem mem
  exact hended index run (hlength ▸ (List.getElem?_eq_some_iff.mp hindex).1) hindex

end World

end ReadThrough
