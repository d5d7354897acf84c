import ReadThrough.Proofs.Flights.LateReads
import ReadThrough.Proofs.Freshness.Filled
import ReadThrough.Proofs.Freshness.Sweep
import ReadThrough.Proofs.Store.Media

/-! # Sweeps that are not waited for

If fills and invalidations are sent off, nothing orders the fill of a read that has returned and the
sweep of a later change. A fill that is late puts an entry back that the sweep was to delete. That is
all that can go wrong: what was put before the sweep came to its key is gone in the end.

* `PutLate` describes how an older entry can come to stay;
* `Settling` is the invariant of the run after the change, and `entries_after_detached_sweep` says
  that there is no other way;
* `StaysStale` is what happens then to a caller that awaits each call.
-/

namespace ReadThrough
set_option autoImplicit false

variable {ρ σ : Type}

/-! ## Late puts -/

namespace World

variable [Medium σ] [LawfulMedium σ]

/-- An activity that was going to store the entry at the time of `w₀` put it between `w₁` and `w`,
when the job of this number was not, or no longer, going to delete its key. -/
inductive PutLate (w₀ w₁ : World ρ σ) (sweeper : ActivityId) (key value : String)
    (w : World ρ σ) : Prop
  | intro {move : Move ρ} {waiting putting : Activity ρ} {sweep : JobRun}
      {earlier later : List (Event ρ)} {wa wb : World ρ σ}
      (pending : w₀.node.activities[move.activity]? = some waiting)
      (intends : waiting.Stores key value) (first : Runs Calls w₁ earlier wa)
      (puts : wa.node.activities[move.activity]? = some putting)
      (stores : putting.Stores key value)
      (sweeping : wa.node.activities[sweeper]? = some (.job sweep))
      (passed : ¬ sweep.Deletes key) (turn : wa.act? (.move move) = some wb)
      (arrives : wb.Holds key value) (rest : Runs Calls wb later w)

variable {w₀ w₁ w w' : World ρ σ} {sweeper : ActivityId} {segments key value : String}
  {log : List (Event ρ)} {action : Action ρ σ}

theorem PutLate.step (h : PutLate w₀ w₁ sweeper key value w) (admitted : w.Calls action)
    (acts : w.act? action = some w') : PutLate w₀ w₁ sweeper key value w' := by
  cases h with
  | intro pending intends first puts stores sweeping passed turn arrives rest =>
    exact .intro pending intends first puts stores sweeping passed turn arrives
      (.step action rest admitted acts)

/-- What is held under a prefix while a job sweeps it: the job will still delete it, or it was made of
a later answer, or it was put late. What is going to be stored was going to be stored at the time of
`w₀`, or is made of a later answer. -/
structure Settling (w₀ w₁ : World ρ σ) (sweeper : ActivityId) (segments : String)
    (log : List (Event ρ)) (w : World ρ σ) : Prop where
  reliable : LawfulMedium.Reliable w.store
  sweeps : ∃ sweep, w.node.activities[sweeper]? = some (.job sweep) ∧
    (sweep.IsDeletion ∨ sweep = .brokeDown) ∧
    ∀ key value, isUnder key segments → w.Holds key value →
      sweep.Deletes key ∨ sweep = .brokeDown ∨ FilledIn w.node.cache log key value ∨
        PutLate w₀ w₁ sweeper key value w
  stores : ∀ (i : ActivityId) (activity : Activity ρ) (key value : String),
    w.node.activities[i]? = some activity → activity.Stores key value →
    (∃ waiting, w₀.node.activities[i]? = some waiting ∧ waiting.Stores key value) ∨
      FilledIn w.node.cache log key value

omit [LawfulMedium σ] in
theorem of_move?_job {run : JobRun} {now : Nat} {c : Cache} {store : σ} {move : Move ρ}
    {step : ActivityStep ρ σ} (h : (Activity.job run).move? now c store move = some step) :
    (∃ taken, run.step? now store = some taken ∧ step.activity = .job taken.run ∧
      step.store = taken.store) ∨ step.activity = .job .brokeDown := by
  cases move with
  | go =>
    obtain ⟨taken, htaken, rfl⟩ := Option.map_eq_some_iff.mp h
    exact .inl ⟨taken, htaken, rfl, rfl⟩
  | goJob => cases h
  | deliver => cases h
  | abort =>
    cases run with
    | working =>
      obtain rfl := Option.some.inj h
      exact .inr rfl
    | finished | brokeDown => cases h

theorem Settling.of_sweep (h : Settling w₀ w₁ sweeper segments log w) {move : Move ρ}
    (mover : move.activity = sweeper) (admitted : w.Calls (.move move))
    (acts : w.act? (.move move) = some w') (events : List (Event ρ)) :
    ∃ sweep, w'.node.activities[sweeper]? = some (.job sweep) ∧
      (sweep.IsDeletion ∨ sweep = .brokeDown) ∧
      ∀ key value, isUnder key segments → w'.Holds key value →
        sweep.Deletes key ∨ sweep = .brokeDown ∨ FilledIn w'.node.cache (log ++ events) key value ∨
          PutLate w₀ w₁ sweeper key value w' := by
  have hgrows := (act?_entryStep rfl acts).grows
  subst mover
  obtain ⟨sweep, hsweep, hdeletion, hheld⟩ := h.sweeps
  obtain ⟨activity, step, found, taken, hafter⟩ := act?_move_iff.mp acts
  obtain rfl := Option.some.inj (hsweep.symm.trans found)
  have hmover : w'.node.activities[move.activity]? = some step.activity :=
    hafter ▸ after_activities_mover found step
  rcases of_move?_job taken with ⟨next, hnext, hactivity, hstore⟩ | hactivity
  · rw [hactivity] at hmover
    have hworks : sweep.IsDeletion := by
      refine hdeletion.resolve_right ?_
      rintro rfl
      cases hnext
    have hnextDeletion := JobRun.step_isDeletion h.reliable hnext hworks
    refine ⟨next.run, hmover, .inl hnextDeletion, fun key value under held => ?_⟩
    have hlater : LawfulMedium.Holds next.store w.now key value := by
      rw [Holds, hafter] at held
      exact hstore ▸ held
    have hbefore : w.Holds key value := by
      rcases JobRun.of_holds hnext hlater with hbefore | hstores
      · exact hbefore
      · exact absurd hstores (JobRun.not_stores_of_isDeletion hworks key value)
    rcases hheld key value under hbefore with hdeletes | rfl | hfilled | hlate
    · refine .inl (JobRun.step_deletes h.reliable hnext ?_ hdeletes hlater)
      intro hbroken
      rw [hbroken] at hnextDeletion
      exact hnextDeletion
    · cases hnext
    · exact .inr (.inr (.inl (hfilled.append hgrows events)))
    · exact .inr (.inr (.inr (hlate.step admitted acts)))
  · rw [hactivity] at hmover
    exact ⟨.brokeDown, hmover, .inr rfl, fun _ _ _ _ => .inr (.inl rfl)⟩

theorem Settling.step (h : Settling w₀ w₁ sweeper segments log w) (run : Runs Calls w₁ log w)
    (admitted : w.Calls action) (acts : w.act? action = some w') :
    Settling w₀ w₁ sweeper segments (log ++ w.events w' action) w' := by
  have hentries := act?_entryStep admitted.1 acts
  refine ⟨hentries.reliable h.reliable, ?_, ?_⟩
  · by_cases hmover : ∃ move, action = .move move ∧ move.activity = sweeper
    · obtain ⟨move, rfl, hmover⟩ := hmover
      exact h.of_sweep hmover admitted acts _
    · obtain ⟨sweep, hsweep, hdeletion, hheld⟩ := h.sweeps
      have hkept := hentries.kept sweeper _ hsweep fun move hmove hsame =>
        hmover ⟨move, hmove, hsame.symm⟩
      refine ⟨sweep, hkept, hdeletion, fun key value under held => ?_⟩
      rcases hentries.held key value held with hbefore | ⟨move, putting, rfl, hputting, hstores⟩
      · rcases hheld key value under hbefore with hdeletes | hbroken | hfilled | hlate
        · exact .inl hdeletes
        · exact .inr (.inl hbroken)
        · exact .inr (.inr (.inl (hfilled.append hentries.grows _)))
        · exact .inr (.inr (.inr (hlate.step admitted acts)))
      · by_cases hpassed : sweep.Deletes key
        · exact .inl hpassed
        · rcases h.stores _ putting key value hputting hstores with
            ⟨waiting, hwaiting, hintends⟩ | hfilled
          · exact .inr (.inr (.inr (.intro hwaiting hintends run hputting hstores hsweep hpassed
              acts held .refl)))
          · exact .inr (.inr (.inl (hfilled.append hentries.grows _)))
  · intro i after key value found stores
    rcases hentries.stores i after key value found stores with
      ⟨before, hbefore, -, hstores⟩ | ⟨move, activity, rfl, hfound, -, hsupplies⟩
    · exact (h.stores i before key value hbefore hstores).imp id
        fun hfilled => hfilled.append hentries.grows _
    · exact .inr ((filledIn_of_supplies admitted acts hfound hsupplies).prepend log)

theorem Settling.run (h : Settling w₀ w₁ sweeper segments [] w₁) (run : Runs Calls w₁ log w) :
    Settling w₀ w₁ sweeper segments log w := by
  induction run with
  | refl => exact h
  | step action run admitted acts ih => exact ih.step run admitted acts

/-- The first turn of a change sends a sweep off, if searches are cached and nothing is waited for. -/
theorem settling_of_turn {writer : ActivityId} {change : Change}
    (detaches : w₀.node.cache.config.detachesUpkeep)
    (searches : w₀.node.cache.config.level.cachesSearches)
    (reliable : LawfulMedium.Reliable w₀.store)
    (called : w₀.node.activities[writer]? = some (.change change .ready))
    (effective : w₀.node.cache.isInvalidatedBy change)
    (turn : w₀.act? (.move (.go writer)) = some w₁) :
    ∃ sweeper, w₁.node.activities[sweeper]? = some (.ofJob
        (.sweepSearches change.table (w₀.node.cache.space.resultsOf change.table))) ∧
      Settling w₀ w₁ sweeper (w₀.node.cache.space.resultsOf change.table) [] w₁ := by
  have hentries := act?_entryStep rfl turn
  obtain ⟨activity, step, found, taken, hafter⟩ := act?_move_iff.mp turn
  obtain rfl := Option.some.inj (called.symm.trans found)
  obtain rfl := Option.some.inj taken
  have hspawned : (Invalidation.start w₀.node.cache change).spawned =
      w₀.node.cache.invalidationJobs change := by
    simp only [Invalidation.start, effective, if_true]
    rw [if_pos detaches]
    rfl
  have hmem : .sweepSearches change.table (w₀.node.cache.space.resultsOf change.table) ∈
      w₀.node.cache.invalidationJobs change := by
    refine List.mem_append_right _ ?_
    rw [if_pos searches]
    exact List.mem_singleton_self _
  obtain ⟨place, hplace⟩ := List.getElem?_of_mem hmem
  have hsweeper : w₁.node.activities[w₀.node.activities.length + place]? = some (.ofJob
      (.sweepSearches change.table (w₀.node.cache.space.resultsOf change.table))) := by
    rw [hafter, after]
    dsimp only [Activity.ofInvalidationTurn]
    rw [hspawned, List.getElem?_append_right (by simp), List.length_set, Nat.add_sub_cancel_left,
      List.getElem?_map, hplace]
    rfl
  refine ⟨_, hsweeper, hentries.reliable reliable, ⟨_, hsweeper, ?_, ?_⟩, ?_⟩
  · exact .inl (Cache.invalidationJobs_isDeletion hmem)
  · intro key value under _
    exact .inl (JobRun.next_deletes.mpr ⟨_, List.mem_singleton_self _, under⟩)
  · intro i after key value hfound hstores
    rcases hentries.stores i after key value hfound hstores with
      ⟨before, hbefore, -, hbeforeStores⟩ | ⟨move, other, hmove, hother, -, hsupplies⟩
    · exact .inl ⟨before, hbefore, hbeforeStores⟩
    · -- a change is supplied with nothing
      obtain rfl := Action.move.inj hmove
      obtain rfl := Option.some.inj (called.symm.trans hother)
      obtain ⟨table, hfills, -⟩ := hsupplies.places hentries.grows
      cases hfills

/-- After the jobs of a change have ended that are not waited for, an entry of a search of the table
that the store holds was made of an answer that came after the first turn of the change, or it was
put late: its store call was outstanding when the change was called, and it was carried out when the
sweep of the change had passed the key. -/
theorem entries_after_detached_sweep {writer : ActivityId} {change : Change}
    (detaches : w₀.node.cache.config.detachesUpkeep)
    (reliable : LawfulMedium.Reliable w₀.store)
    (called : w₀.node.activities[writer]? = some (.change change .ready))
    (effective : w₀.node.cache.Heeds change)
    (turn : w₀.act? (.move (.go writer)) = some w₁) (later : Runs Calls w₁ log w)
    (settled : ∀ (i : ActivityId) (run : JobRun), w.node.activities[i]? = some (.job run) →
      run.isFinished)
    {query : Query} {format : RowFormat ρ} {result : Option (ResultSet ρ)}
    (same : query.table = change.table)
    (fills : Read.FillsSearch w₀.node.cache query format result key value)
    (held : w.Holds key value) :
    FilledIn w.node.cache log key value ∨ ∃ sweeper,
      w₁.node.activities[sweeper]? = some (.ofJob
        (.sweepSearches change.table (w₀.node.cache.space.resultsOf change.table))) ∧
      PutLate w₀ w₁ sweeper key value w := by
  have hunder : isUnder key (w₀.node.cache.space.resultsOf change.table) := by
    rw [fills.key_eq, ← same]
    exact KeyLayout.isUnder_resultsOf _ _ _ _
  obtain ⟨sweeper, hsweeper, hsettling⟩ :=
    settling_of_turn detaches fills.caches reliable called (Cache.isInvalidatedBy_iff.mpr effective) turn
  obtain ⟨sweep, hsweep, -, hheld⟩ := (hsettling.run later).sweeps
  have hfinished : sweep.isFinished := settled sweeper sweep hsweep
  rcases hheld key value hunder held with hdeletes | rfl | hfilled | hlate
  · exact absurd hdeletes (JobRun.not_deletes_of_ended (.inl hfinished) key)
  · cases hfinished
  · exact .inl hfilled
  · exact .inr ⟨sweeper, hsweeper, hlate⟩

def detached : World Row RecordingStore :=
  { node := { cache := { config := { detachesUpkeep := true }, space := ⟨"a"⟩ } }, store := {} }

theorem detached_reliable : LawfulMedium.Reliable detached.store := by
  intro method
  rfl

def oneNumber (n : Int64) : Option (ResultSet Row) := some (.one (.integer n))

/-- A read that fetches a number, as the activity of this number. -/
def fetchedRead (i : ActivityId) (n : Int64) : List (Action Row RecordingStore) :=
  [.read usersRead Row.integers, .move (.go i), .move (.go i), .move (.go i),
    .move (.deliver i (.answered (oneNumber n)))]

def endingJobs (jobs : List ActivityId) : List (Action Row RecordingStore) :=
  jobs.flatMap fun job => [.move (.go job), .move (.go job)]

theorem oneNumber_fillsSearch {c : Cache} {key payload value : String} {n : Int64}
    (level : c.config.level.cachesSearches) (hkey : c.resultKey usersRead = key)
    (written : Row.integers.encodeAll [.integer n] = some payload)
    (encoded : SearchEntry.encode 1 payload = value) :
    Read.FillsSearch c usersRead Row.integers (oneNumber n) key value := by
  have hanswer : usersRead.shape.normalize (oneNumber n) = some (.one (.integer n)) := rfl
  have hfills := Read.FillsSearch.found level hanswer written
  rw [hkey] at hfills
  exact encoded ▸ hfills

theorem finished_of_activities {activities : List (Activity Row)}
    (h : ∀ activity ∈ activities, ∀ run, activity = .job run → run.isFinished) (i : ActivityId)
    (run : JobRun) (found : activities[i]? = some (.job run)) : run.isFinished :=
  h _ (List.mem_of_getElem? found) run rfl

/-- A change sweeps the table, and a read that comes after it stores what it fetched. -/
theorem later_entry_after_detached_sweep :
    ∃ (w₀ w₁ w₂ : World Row RecordingStore) (log : List (Event Row)),
      w₀.node.cache.config.detachesUpkeep ∧ LawfulMedium.Reliable w₀.store ∧
      w₀.node.activities[0]? = some (.change usersChange .ready) ∧
      w₀.node.cache.Heeds usersChange ∧ w₀.act? (.move (.go 0)) = some w₁ ∧
      Runs Calls w₁ log w₂ ∧
      (∀ (i : ActivityId) (run : JobRun), w₂.node.activities[i]? = some (.job run) →
        run.isFinished) ∧
      usersRead.table = usersChange.table ∧
      Read.FillsSearch w₀.node.cache usersRead Row.integers (oneNumber 7) "a:s:users:select"
        "1|[7]" ∧
      w₂.Holds "a:s:users:select" "1|[7]" ∧
      (FilledIn w₂.node.cache log "a:s:users:select" "1|[7]" ∨ ∃ sweeper,
        w₁.node.activities[sweeper]? = some (.ofJob
          (.sweepSearches usersChange.table (w₀.node.cache.space.resultsOf usersChange.table))) ∧
        PutLate w₀ w₁ sweeper "a:s:users:select" "1|[7]" w₂) := by
  have hrun : (((detached.enter (.ofChange usersChange)).act? (.move (.go 0))).bind fun w₁ =>
      (w₁.perform? Calls (endingJobs [1, 2] ++ fetchedRead 3 7 ++ endingJobs [4, 5])).map
        fun last => (last.1.node.activities, last.1.store.entries["a:s:users:select"]?)) =
      some ([.change usersChange .ended, .job .finished, .job .finished,
        .read usersRead Row.integers (.ended (.returned (.ok (oneNumber 7)))), .job .finished,
        .job .finished], some "1|[7]") := by cbv
  obtain ⟨w₁, turn, hrest⟩ := Option.bind_eq_some_iff.mp hrun
  obtain ⟨⟨w₂, log⟩, hlast, hfacts⟩ := Option.map_eq_some_iff.mp hrest
  obtain ⟨hactivities, held⟩ := Prod.mk.inj hfacts
  have later : Runs Calls w₁ log w₂ := .of_perform? hlast
  have settled : ∀ (i : ActivityId) (run : JobRun), w₂.node.activities[i]? = some (.job run) →
      run.isFinished := by
    rw [hactivities]
    exact finished_of_activities (by simp [JobRun.isFinished])
  have hwritten : Row.integers.encodeAll [.integer 7] = some "[7]" := by cbv
  have fills : Read.FillsSearch (detached.enter (.ofChange usersChange)).node.cache usersRead
      Row.integers (oneNumber 7) "a:s:users:select" "1|[7]" :=
    oneNumber_fillsSearch rfl (by cbv) hwritten (by cbv)
  have effective : (detached.enter (.ofChange usersChange)).node.cache.Heeds usersChange :=
    Cache.isInvalidatedBy_iff.mp rfl
  exact ⟨detached.enter (.ofChange usersChange), w₁, w₂, log, rfl, detached_reliable, rfl, effective,
    turn, later, settled, rfl, fills, held,
    entries_after_detached_sweep rfl detached_reliable rfl effective turn later settled rfl fills held⟩

/-! ## A stale entry -/

/-- Whether the caller of an activity has its result. Nobody waits for a job sent off. -/
def hasReturned : Activity ρ → Bool
  | .read _ _ (.ended _) | .change _ .ended | .request _ (.ended _) | .job _ => true
  | _ => false

/-- A single caller, who awaits each call before making the next. -/
def Sequential (w : World ρ σ) (action : Action ρ σ) : Prop :=
  w.Calls action ∧ (action.starts?.isSome → ∀ activity ∈ w.node.activities, hasReturned activity)

instance (w : World ρ σ) (action : Action ρ σ) : Decidable (w.Sequential action) :=
  inferInstanceAs (Decidable (w.Calls action ∧
    (action.starts?.isSome → ∀ activity ∈ w.node.activities, hasReturned activity)))

/-- A single caller had the answer to a read when it called a change of the table, and after all jobs
have finished the store holds the entry made of this answer, although no other came since. -/
structure StaysStale (start w₀ w₁ w₂ : World ρ σ) (before log : List (Event ρ))
    (reader writer : ActivityId) (query : Query) (format : RowFormat ρ)
    (result : Option (ResultSet ρ)) (change : Change) (key value : String) : Prop where
  new : start.IsNew
  detaches : start.node.cache.config.detachesUpkeep
  reliable : LawfulMedium.Reliable start.store
  earlier : Runs Sequential start before w₀
  answered : .delivered reader query format (.answered result) ∈ before
  returned : w₀.Reads reader query format
    (.ended (.returned (.ok (query.shape.normalize result))))
  called : w₀.node.activities[writer]? = some (.change change .ready)
  same : query.table = change.table
  effective : w₀.node.cache.Heeds change
  turn : w₀.act? (.move (.go writer)) = some w₁
  later : Runs Sequential w₁ log w₂
  settled : ∀ (i : ActivityId) (run : JobRun), w₂.node.activities[i]? = some (.job run) →
    run.isFinished
  quiet : ∀ reader query format outcome, .delivered reader query format outcome ∉ log
  fills : Read.FillsSearch w₀.node.cache query format result key value
  held : w₂.Holds key value

/-- The fill of a read that has returned may come after the sweep of a later change. -/
theorem stale_entry_outlives_detached_sweep :
    ∃ (w₀ w₁ w₂ : World Row RecordingStore) (before log : List (Event Row)),
      StaysStale detached w₀ w₁ w₂ before log 0 3 usersRead Row.integers (oneNumber 5) usersChange
        "a:s:users:select" "1|[5]" := by
  -- the jobs 1 and 2 fill for the read, the jobs 4 and 5 sweep for the change
  have hrun : ((detached.perform? Sequential (fetchedRead 0 5 ++ [.change usersChange])).bind
      fun first => (first.1.act? (.move (.go 3))).bind fun w₁ =>
        (w₁.perform? Sequential (endingJobs [4, 5, 1, 2])).map fun last =>
          ((first.1.node.cache.config.level, first.1.node.cache.isInvalidatedBy usersChange,
            first.1.node.cache.resultKey usersRead),
          first.2, first.1.node.activities[0]?, first.1.node.activities[3]?,
          last.1.node.activities, last.1.store.entries["a:s:users:select"]?, last.2)) =
      some ((.all, true, "a:s:users:select"),
        [.joined 0 usersRead (.leader 0), .asked 0 usersRead,
          .delivered 0 usersRead Row.integers (.answered (oneNumber 5))],
        some (.read usersRead Row.integers (.ended (.returned (.ok (oneNumber 5))))),
        some (.change usersChange .ready),
        [.read usersRead Row.integers (.ended (.returned (.ok (oneNumber 5)))), .job .finished,
          .job .finished, .change usersChange .ended, .job .finished, .job .finished],
        some "1|[5]", []) := by cbv
  obtain ⟨⟨w₀, before⟩, hfirst, hrest⟩ := Option.bind_eq_some_iff.mp hrun
  obtain ⟨w₁, turn, hrest⟩ := Option.bind_eq_some_iff.mp hrest
  obtain ⟨⟨w₂, log⟩, hlast, hfacts⟩ := Option.map_eq_some_iff.mp hrest
  simp only [Prod.mk.injEq] at hfacts
  obtain ⟨⟨level, effective, key⟩, hbefore, returned, called, hactivities, held, hlog⟩ := hfacts
  have hwritten : Row.integers.encodeAll [.integer 5] = some "[5]" := by cbv
  refine ⟨w₀, w₁, w₂, before, log, ?_⟩
  exact {
    new := ⟨⟨{ detachesUpkeep := true }, "a", rfl⟩, rfl⟩
    detaches := rfl
    reliable := detached_reliable
    earlier := .of_perform? hfirst
    answered := by simp [hbefore]
    returned := returned
    called := called
    same := rfl
    effective := Cache.isInvalidatedBy_iff.mp effective
    turn := turn
    later := .of_perform? hlast
    settled := by
      rw [hactivities]
      exact finished_of_activities (by simp [JobRun.isFinished])
    quiet := by simp [hlog]
    fills := oneNumber_fillsSearch (level ▸ rfl) key hwritten (by cbv)
    held := held }

end World

end ReadThrough
