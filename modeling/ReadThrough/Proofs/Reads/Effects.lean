import ReadThrough.Proofs.Reads.Leaves

/-! # What a miss does to the store

A read that waits for its own upkeep looks the store up, fetches, and stores what it fetched by jobs that take
their steps in any order. When it has ended, the contents of the store are those from before the read with what the
fetch leaves laid over them, provided that no store call fails and nobody else changes the contents meanwhile.

* `World.OwnStep` lists the steps that the read takes by itself, `World.ends_of_fetching` goes on to its end;
* `World.StoresByItself` admits these moves, and all else that leaves the contents as they are;
* `World.Storing` says how far the read has come, `Storing.own` and `Storing.other` go through a step;
* `World.misses_store_what_they_fetched` is the theorem.
-/

namespace ReadThrough
set_option autoImplicit false

variable {ρ σ : Type}

/-! ## Looking up -/

/-- The operation is a lookup that is not held up. -/
def Operation.LooksOn {k : ReplyKind} : Operation k → Prop
  | .asked call => call.IsLookup
  | .answered _ => True
  | .held _ | .sweeping _ => False

/-- The read has nothing to store yet. -/
def ReadStage.IsLooking : ReadStage ρ → Prop
  | .ready | .following _ | .fetching _ => True
  | .awaitingPoints _ _ operation => operation.LooksOn
  | .awaitingSearch _ operation => operation.LooksOn
  | .bypassing | .filling _ _ _ _ | .ended _ => False

section

variable [Medium σ] [KeepingMedium σ] {room : Finset String} {now : Nat} {c : Cache} {store : σ} {query : Query}
  {format : RowFormat ρ} {before : ReadStage ρ} {step : ActivityStep ρ σ}

/-- A step on a lookup answers it, and leaves the contents as they are. -/
theorem Operation.LooksOn.of_step {k : ReplyKind} {operation : Operation k} {taken : StoreStep σ k}
    (looks : operation.LooksOn) (waits : ∀ reply, operation ≠ .answered reply)
    (keeps : KeepingMedium.Keeps room now store) (moved : Medium.step? now store operation = some taken) :
    taken.operation.LooksOn ∧ KeepingMedium.Keeps room now taken.store ∧
      KeepingMedium.contents taken.store now = KeepingMedium.contents store now := by
  cases operation with
  | asked call =>
    obtain ⟨hkeeps, hsame, reply, hreply⟩ := KeepingMedium.looks keeps looks moved
    exact ⟨hreply ▸ trivial, hkeeps, hsame⟩
  | answered reply => exact absurd rfl (waits reply)
  | held | sweeping => exact looks.elim

/-- Until the data source has answered it, a read of a cached table looks on or ends. -/
theorem StageRules.of_looking (looking : before.IsLooking) (keeps : KeepingMedium.Keeps room now store)
    (cached : c.config.caches query.table = true) :
    StageRules (fun stage _ => stage.IsLooking ∨ ∃ answer, stage = .ended answer) (fun _ _ => True)
      now c store query format before none where
  brokeDown := .inr ⟨_, rfl⟩
  aborted := .inr ⟨_, rfl⟩
  failed _ _ _ told := by cases told
  bypass uncached := by cases cached.symm.trans uncached
  follow _ _ _ := .inl trivial
  looks := ⟨fun _ _ _ _ _ => .inl trivial, fun _ _ => .inl trivial, fun _ => .inl trivial⟩
  adopt _ _ _ _ := .inr ⟨_, rfl⟩
  pointsGoOn flight sought operation taken is waits moved := by
    subst is
    exact .inl (Operation.LooksOn.of_step looking waits keeps moved).1
  pointHit _ _ _ _ _ _ _ _ := ⟨trivial, .inr ⟨_, rfl⟩⟩
  searchGoOn flight operation taken is waits moved := by
    subst is
    exact .inl (Operation.LooksOn.of_step looking waits keeps moved).1
  absence _ _ := ⟨trivial, .inr ⟨_, rfl⟩⟩
  searchHit _ _ _ _ _ _ _ _ _ := ⟨trivial, .inr ⟨_, rfl⟩⟩
  notFound _ _ _ told := by cases told
  unwritable _ _ _ _ told := by cases told
  found _ _ _ _ _ told := by cases told
  filling _ _ _ _ is := by
    subst is
    exact looking.elim
  bypassed _ _ told := by cases told
  bypassFailed _ _ told := by cases told

/-- A turn of a read that looks up, or a step of the store for it, leaves the contents as they are. -/
theorem goRead?_keeps (looking : before.IsLooking) (keeps : KeepingMedium.Keeps room now store)
    (taken : Activity.goRead? now c store query format before = some step) :
    KeepingMedium.Keeps room now step.store ∧
      KeepingMedium.contents step.store now = KeepingMedium.contents store now := by
  unfold Activity.goRead? at taken
  split at taken
  · obtain rfl := Option.some.inj taken
    exact ⟨keeps, rfl⟩
  · obtain ⟨turn, -, rfl⟩ := Option.map_eq_some_iff.mp taken
    exact ⟨keeps, rfl⟩
  · obtain rfl := Option.some.inj taken
    exact ⟨keeps, rfl⟩
  · rename_i hwaits
    obtain ⟨moved, hmoved, rfl⟩ := Option.map_eq_some_iff.mp taken
    exact (Operation.LooksOn.of_step looking hwaits keeps hmoved).2
  · obtain rfl := Option.some.inj taken
    exact ⟨keeps, rfl⟩
  · rename_i hwaits
    obtain ⟨moved, hmoved, rfl⟩ := Option.map_eq_some_iff.mp taken
    exact (Operation.LooksOn.of_step looking hwaits keeps hmoved).2
  · exact looking.elim
  · cases taken
  · cases taken
  · cases taken

end

namespace World

/-! ## What the read does by itself -/

section

variable [Medium σ]

/-- The read goes on by itself, and is answered with this outcome. -/
def GoesByItself (reader : ActivityId) (outcome : FetchOutcome ρ) (_ : World ρ σ) (action : Action ρ σ) : Prop :=
  action.IsOwn reader outcome

/-- The steps of the read by itself: a turn of its own or of the store, a step of a job, or the answer. -/
inductive OwnStep (w : World ρ σ) (reader : ActivityId) (query : Query) (format : RowFormat ρ)
    (outcome : FetchOutcome ρ) : ReadStage ρ → Move ρ → ActivityStep ρ σ → Prop
  | turn {stage step} (taken : Activity.goRead? w.now w.node.cache w.store query format stage = some step) :
    OwnStep w reader query format outcome stage (.go reader) step
  | job {flight result left jobs index} {run : JobRun} {moved : JobStep σ} (found : jobs[index]? = some run)
      (taken : run.step? w.now w.store = some moved) :
    OwnStep w reader query format outcome (.filling flight result left jobs) (.goJob reader index)
      { cache := w.node.cache
        store := moved.store
        activity := .read query format (.filling flight result left (jobs.set index moved.run))
        notices := moved.notices }
  | answer {flight} :
    OwnStep w reader query format outcome (.fetching flight) (.deliver reader outcome)
      (Activity.ofReadTurn query format w.store (Read.afterFetch w.node.cache query format flight outcome))
  | bypass :
    OwnStep w reader query format outcome .bypassing (.deliver reader outcome)
      (Activity.ofReadTurn query format w.store (Read.afterBypass w.node.cache outcome))

variable {w w' : World ρ σ} {reader : ActivityId} {query : Query} {format : RowFormat ρ} {outcome : FetchOutcome ρ}

theorem ownStep_of_act? {stage : ReadStage ρ} {move : Move ρ} (is : w.Reads reader query format stage)
    (own : (Action.move move : Action ρ σ).IsOwn reader outcome) (acts : w.act? (.move move) = some w') :
    ∃ step, OwnStep w reader query format outcome stage move step ∧ w' = w.after reader step := by
  obtain ⟨activity, step, found, taken, rfl⟩ := act?_move_iff.mp acts
  cases move with
  | go mover =>
    obtain rfl : mover = reader := own
    obtain rfl := Option.some.inj (found.symm.trans is)
    exact ⟨step, .turn taken, rfl⟩
  | goJob mover index =>
    obtain rfl : mover = reader := own
    obtain rfl := Option.some.inj (found.symm.trans is)
    simp only [Activity.move?, Activity.goJob?, Option.bind_eq_bind, Option.bind_eq_some_iff] at taken
    obtain ⟨run, hrun, moved, hmoved, ⟨⟩⟩ := taken
    cases stage with
    | filling => exact ⟨_, .job hrun hmoved, rfl⟩
    | _ => cases hrun
  | deliver mover delivered =>
    obtain ⟨rfl, rfl⟩ := own
    obtain rfl := Option.some.inj (found.symm.trans is)
    cases stage with
    | fetching =>
      obtain rfl := Option.some.inj taken
      exact ⟨_, .answer, rfl⟩
    | bypassing =>
      obtain rfl := Option.some.inj taken
      exact ⟨_, .bypass, rfl⟩
    | _ => cases taken
  | abort => exact own.elim

/-- On a store that answers, the read ends that waits for its jobs. -/
theorem ends_of_filling [AnsweringMedium σ] {flight : FlightId} {result : Option (ResultSet ρ)} {left : Outcome}
    {jobs : List JobRun} (outcome : FetchOutcome ρ)
    (is : w.Reads reader query format (.filling flight result left jobs))
    (answering : AnsweringMedium.Answering w.store) :
    ∃ later last answer, Runs (GoesByItself reader outcome) w later last ∧
      last.Reads reader query format (.ended answer) := by
  have hadmitted : ∀ (w : World ρ σ) (index : Nat), w.GoesByItself reader outcome (.move (.goJob reader index)) :=
    fun _ _ => rfl
  obtain ⟨later, last, runs, hruns, hlast, -, -, hended⟩ :=
    canWaitFor_ends (Activity.waiting_read query format flight result left) hadmitted is answering
  obtain ⟨turn, answer, htaken, hanswer⟩ : ∃ turn answer,
      Activity.goRead? last.now last.node.cache last.store query format (.filling flight result left runs) =
        some (Activity.ofReadTurn query format last.store turn) ∧ turn.stage = .ended answer := by
    rw [Activity.goRead?]
    split
    · exact ⟨_, _, rfl, rfl⟩
    · rename_i hunbroken
      have hfinished : runs.all JobRun.isFinished = true := by
        refine List.all_eq_true.mpr fun run hrun => (hended run hrun).resolve_right fun hbroken => ?_
        exact hunbroken (List.any_eq_true.mpr ⟨run, hrun, hbroken⟩)
      rw [if_pos hfinished]
      exact ⟨_, _, rfl, rfl⟩
  have hacts : last.act? (.move (.go reader)) =
      some (last.after reader (Activity.ofReadTurn query format last.store turn)) :=
    act?_move_iff.mpr ⟨_, _, hlast, htaken, rfl⟩
  have hown : last.GoesByItself reader outcome (.move (.go reader)) := rfl
  exact ⟨_, _, answer, hruns.trans (.single hown hacts), reads_after hlast hanswer⟩

/-- On a store that answers, the read ends that waits for the data source, when it is answered. -/
theorem ends_of_fetching [AnsweringMedium σ] {flight : FlightId} (outcome : FetchOutcome ρ)
    (is : w.Reads reader query format (.fetching flight)) (answering : AnsweringMedium.Answering w.store) :
    ∃ later last answer, Runs (GoesByItself reader outcome) w later last ∧
      last.Reads reader query format (.ended answer) ∧ .delivered reader query format outcome ∈ later := by
  let turn := Read.afterFetch w.node.cache query format flight outcome
  have hacts : w.act? (.move (.deliver reader outcome)) =
      some (w.after reader (Activity.ofReadTurn query format w.store turn)) :=
    act?_move_iff.mpr ⟨_, _, is, rfl, rfl⟩
  have hown : w.GoesByItself reader outcome (.move (.deliver reader outcome)) := ⟨rfl, rfl⟩
  have htold : .delivered reader query format outcome ∈
      w.events (w.after reader (Activity.ofReadTurn query format w.store turn))
        (.move (.deliver reader outcome)) := by
    have hevents := @events_after _ _ w (.deliver reader outcome) query format _ _ _ is
      (rfl : (Activity.ofReadTurn query format w.store turn).activity = .read query format turn.stage)
    exact hevents ▸ delivered_mem_events.mpr ⟨rfl, rfl, rfl, rfl⟩
  have hrun := Runs.single hown hacts
  rcases Read.afterFetch_ends_or_fills w.node.cache query format flight outcome with
    ⟨answer, hstage⟩ | ⟨result, left, jobs, hstage⟩
  · exact ⟨_, _, answer, hrun, reads_after is hstage, htold⟩
  · obtain ⟨later, last, answer, hlater, hended⟩ := ends_of_filling outcome (reads_after is hstage) answering
    exact ⟨_, last, answer, hrun.trans hlater, hended, List.mem_append_left _ htold⟩

/-- What holds of the cache all along, given the cache from before the read. -/
structure StoresFor (c : Cache) (query : Query) (format : RowFormat ρ) (outcome : FetchOutcome ρ)
    (room : Finset String) (w : World ρ σ) : Prop where
  grows : c.Grows w.node.cache
  cached : c.config.caches query.table = true
  waits : c.config.detachesUpkeep = false
  within : ∀ entry ∈ Read.fillEntries c query format outcome, entry.key ∈ room

omit [Medium σ] in
theorem StoresFor.of_within {room : Finset String} (cached : w.node.cache.config.caches query.table = true)
    (waits : w.node.cache.config.detachesUpkeep = false)
    (within : ∀ key value, outcome.Leaves w.node.cache query format key value → key ∈ room) :
    StoresFor w.node.cache query format outcome room w where
  grows := .refl w.node.cache
  cached := cached
  waits := waits
  within entry mem := by
    obtain ⟨value, hleft⟩ := (Read.lays_fillEntries w.node.cache query format outcome).exists_of_mem mem
    exact within entry.key value hleft

theorem StoresFor.step {c : Cache} {room : Finset String} {action : Action ρ σ}
    (fits : StoresFor c query format outcome room w) (acts : w.act? action = some w') :
    StoresFor c query format outcome room w' :=
  { fits with grows := fits.grows.trans (act?_grows acts) }

end

section

variable [Medium σ] [KeepingMedium σ]

/-! ## Runs in which nobody else changes the contents -/

/-- The read goes on by itself while the store keeps what is put, and is answered with this outcome. Anything else
may happen that leaves the contents of the store as they are. -/
inductive StoresByItself (reader : ActivityId) (outcome : FetchOutcome ρ) (room : Finset String) (w : World ρ σ) :
    Action ρ σ → Prop
  | own {move} (own : (Action.move move : Action ρ σ).IsOwn reader outcome)
      (keeps : KeepingMedium.Keeps room w.now w.store) : StoresByItself reader outcome room w (.move move)
  | other {action} (aside : ∀ move, action = .move move → move.activity ≠ reader)
      (same : ∀ w', w.act? action = some w' →
        KeepingMedium.contents w'.store w'.now = KeepingMedium.contents w.store w.now) :
      StoresByItself reader outcome room w action

/-- The read has come so far: the store has the contents from before, or the jobs are about to lay what the outcome
leaves over them, or they have. -/
inductive Storing (c : Cache) (reader : ActivityId) (query : Query) (format : RowFormat ρ)
    (outcome : FetchOutcome ρ) (room : Finset String) (contents : String → Option String) (log : List (Event ρ))
    (w : World ρ σ) : Prop
  | looking {stage} (is : w.Reads reader query format stage) (looks : stage.IsLooking)
      (untold : .delivered reader query format outcome ∉ log)
      (same : KeepingMedium.contents w.store w.now = contents)
  | filling {flight result left jobs} (is : w.Reads reader query format (.filling flight result left jobs))
      (completing : Completing room (overlay (Read.fillEntries c query format outcome) contents)
        w.now w.store jobs)
  | ended {answer} (is : w.Reads reader query format (.ended answer))
      (came : .delivered reader query format outcome ∈ log →
        KeepingMedium.contents w.store w.now = overlay (Read.fillEntries c query format outcome) contents)

variable {c : Cache} {reader : ActivityId} {query : Query} {format : RowFormat ρ} {outcome : FetchOutcome ρ}
  {room : Finset String} {contents : String → Option String} {log : List (Event ρ)} {w w' : World ρ σ}

/-- What others do goes unnoticed, as long as the contents stay. -/
theorem Storing.other {action : Action ρ σ} (h : Storing c reader query format outcome room contents log w)
    (aside : ∀ move, action = .move move → move.activity ≠ reader)
    (same : KeepingMedium.contents w'.store w'.now = KeepingMedium.contents w.store w.now)
    (acts : w.act? action = some w') :
    Storing c reader query format outcome room contents (log ++ w.events w' action) w' := by
  have hkept : ∀ stage, w.Reads reader query format stage → w'.Reads reader query format stage := by
    intro stage is
    rcases act?_cases acts with ⟨move, _, _, _, step, rfl, -, -, rfl⟩ | ⟨-, haside⟩
    · exact (keepsReads_after w move.activity step).kept _ _ _ _ (aside move rfl).symm is
    · exact haside.reads.kept _ _ _ _ not_false is
  have htold : .delivered reader query format outcome ∈ log ++ w.events w' action →
      .delivered reader query format outcome ∈ log := by
    intro hmem
    refine (List.mem_append.mp hmem).resolve_right fun hnew => ?_
    rcases act?_cases acts with ⟨move, _, _, _, step, rfl, -, -, rfl⟩ | ⟨hnone, -⟩
    · exact aside move rfl (reader_of_mem_events hnew).symm
    · rw [hnone] at hnew
      cases hnew
  cases h with
  | looking is looks untold same' =>
    exact .looking (hkept _ is) looks (fun h => untold (htold h)) (same.trans same')
  | filling is completing => exact .filling (hkept _ is) (completing.of_same same)
  | ended is came => exact .ended (hkept _ is) fun h => same.trans (came (htold h))

theorem Storing.begun (called : w.Reads reader query format .ready) :
    Storing c reader query format outcome room (KeepingMedium.contents w.store w.now) [] w :=
  .looking called trivial List.not_mem_nil rfl

/-- The data source answers: the jobs are on their way, or there is nothing to store. -/
theorem Storing.answer {flight : FlightId} (same : KeepingMedium.contents w.store w.now = contents)
    (fits : StoresFor c query format outcome room w) (is : w.Reads reader query format (.fetching flight)) :
    Storing c reader query format outcome room contents log
      (w.after reader (Activity.ofReadTurn query format w.store
        (Read.afterFetch w.node.cache query format flight outcome))) := by
  have hwaits : w.node.cache.config.detachesUpkeep = false := by rw [fits.grows.config, fits.waits]
  have hjobs := Read.fillJobs_of_grows fits.grows query format outcome
  rcases Read.afterFetch_ends_or_stores hwaits flight outcome with ⟨hnone, answer, hstage⟩ | ⟨result, left, hstage⟩
  · refine .ended (reads_after is hstage) fun _ => ?_
    rw [Read.fillEntries, ← hjobs, hnone]
    exact same
  · refine .filling (reads_after is hstage) ?_
    rw [hjobs]
    have hentries : ((Read.fillJobs c query format outcome).map JobRun.start).flatMap JobRun.entries =
        Read.fillEntries c query format outcome := by
      rw [List.flatMap_map, Read.fillEntries]
      exact congrArg (fun f => List.flatMap f _) (funext fun job => JobRun.entries_next job job.steps)
    refine ⟨?_, ?_, ?_, ?_⟩
    · intro run hrun
      obtain ⟨job, hjob, rfl⟩ := List.mem_map.mp hrun
      exact Read.isFill_of_mem_fillJobs hjob
    · intro run hrun entry hentry
      exact fits.within entry (hentries ▸ List.mem_flatMap.mpr ⟨run, hrun, hentry⟩)
    · refine List.pairwise_map.mpr ((Read.fillJobs_apart c query format outcome).imp fun apart => ?_)
      simp only [JobRun.start, JobRun.entries_next]
      exact apart
    · rw [hentries]
      exact congrArg _ same

/-- The read takes a turn while it looks up, or the store takes a step for it. -/
theorem Storing.look {mover : ActivityId} {stage : ReadStage ρ} {step : ActivityStep ρ σ}
    (looks : stage.IsLooking) (untold : .delivered mover query format outcome ∉ log)
    (same : KeepingMedium.contents w.store w.now = contents) (fits : StoresFor c query format outcome room w)
    (keeps : KeepingMedium.Keeps room w.now w.store) (is : w.Reads mover query format stage)
    (taken : Activity.goRead? w.now w.node.cache w.store query format stage = some step) :
    KeepingMedium.Keeps room w.now step.store ∧
      Storing c mover query format outcome room contents
        (log ++ w.events (w.after mover step) (.move (.go mover))) (w.after mover step) := by
  have hcached : w.node.cache.config.caches query.table = true := by rw [fits.grows.config, fits.cached]
  have hrules : StageRules (fun stage _ => stage.IsLooking ∨ ∃ answer, stage = .ended answer) (fun _ _ => True)
      w.now w.node.cache w.store query format stage none := .of_looking looks keeps hcached
  obtain ⟨turn, hturn, hactivity, -⟩ := Activity.goRead?_takesTurn hrules taken
  obtain ⟨hkeeps, hsame⟩ := goRead?_keeps looks keeps taken
  have his : (w.after mover step).Reads mover query format turn.stage :=
    (after_activities_mover is step).trans (congrArg some hactivity)
  have huntold : .delivered mover query format outcome ∉
      log ++ w.events (w.after mover step) (.move (.go mover)) := by
    intro hmem
    rcases List.mem_append.mp hmem with hold | hnew
    · exact untold hold
    · have hevents : w.events (w.after mover step) (.move (.go mover)) =
          (Move.go mover).events query format stage turn.stage step.fetches := events_after is hactivity
      rw [hevents] at hnew
      obtain ⟨-, -, -, htold⟩ := delivered_mem_events.mp hnew
      cases htold
  refine ⟨hkeeps, ?_⟩
  rcases hturn.stage with hlooks | ⟨answer, hended⟩
  · exact .looking his hlooks huntold (hsame.trans same)
  · exact .ended (hended ▸ his) fun htold => absurd htold huntold

/-- The jobs that store the outcome have put all, or one of them takes a step. -/
theorem Storing.turn_of_filling {flight : FlightId} {result : Option (ResultSet ρ)} {left : Outcome}
    {jobs : List JobRun} {step : ActivityStep ρ σ}
    (completing : Completing room (overlay (Read.fillEntries c query format outcome) contents) w.now w.store jobs)
    (is : w.Reads reader query format (.filling flight result left jobs))
    (taken : Activity.goRead? w.now w.node.cache w.store query format (.filling flight result left jobs) =
      some step) :
    step.store = w.store ∧ Storing c reader query format outcome room contents log (w.after reader step) := by
  have hunbroken : ¬ jobs.any JobRun.isBroken = true := by
    intro hbroken
    obtain ⟨job, hjob, hbroke⟩ := List.any_eq_true.mp hbroken
    cases (completing.fills job hjob).unbroken.symm.trans hbroke
  rw [Activity.goRead?, if_neg hunbroken] at taken
  split at taken
  · rename_i hended
    obtain rfl := Option.some.inj taken
    exact ⟨rfl, .ended (after_activities_mover is _) fun _ => completing.ended hended⟩
  · cases taken

/-- The read goes on by itself. -/
theorem Storing.own {move : Move ρ} (h : Storing c reader query format outcome room contents log w)
    (fits : StoresFor c query format outcome room w) (own : (Action.move move : Action ρ σ).IsOwn reader outcome)
    (keeps : KeepingMedium.Keeps room w.now w.store) (acts : w.act? (.move move) = some w') :
    KeepingMedium.Keeps room w'.now w'.store ∧
      Storing c reader query format outcome room contents (log ++ w.events w' (.move move)) w' := by
  cases h with
  | looking is looks untold same =>
    obtain ⟨step, hown, rfl⟩ := ownStep_of_act? is own acts
    cases hown with
    | turn taken => exact Storing.look looks untold same fits keeps is taken
    | answer => exact ⟨keeps, Storing.answer same fits is⟩
    | job | bypass => exact looks.elim
  | filling is completing =>
    obtain ⟨step, hown, rfl⟩ := ownStep_of_act? is own acts
    cases hown with
    | turn taken =>
      obtain ⟨hstore, hstoring⟩ := Storing.turn_of_filling completing is taken
      have hkeeps : KeepingMedium.Keeps room w.now step.store := hstore.symm ▸ keeps
      exact ⟨hkeeps, hstoring⟩
    | job found taken =>
      obtain ⟨hkeeps, hcompleting⟩ := completing.set keeps found taken
      exact ⟨hkeeps, .filling (after_activities_mover is _) hcompleting⟩
  | ended is =>
    obtain ⟨step, hown, rfl⟩ := ownStep_of_act? is own acts
    cases hown with
    | turn taken => cases taken

theorem Storing.run (h : Storing c reader query format outcome room contents [] w)
    (fits : StoresFor c query format outcome room w) (run : Runs (StoresByItself reader outcome room) w log w') :
    StoresFor c query format outcome room w' ∧ Storing c reader query format outcome room contents log w' := by
  induction run with
  | refl => exact ⟨fits, h⟩
  | step action _ admitted acts ih =>
    obtain ⟨hfits, hstoring⟩ := ih
    refine ⟨hfits.step acts, ?_⟩
    cases admitted with
    | own own keeps => exact (hstoring.own hfits own keeps acts).2
    | other aside same => exact hstoring.other aside (same _ acts) acts

/-- On a store that keeps what is put at first, the read goes on by itself without a failure. -/
theorem Storing.run_own {later : List (Event ρ)} (h : Storing c reader query format outcome room contents log w)
    (fits : StoresFor c query format outcome room w) (keeps : KeepingMedium.Keeps room w.now w.store)
    (run : Runs (GoesByItself reader outcome) w later w') :
    Runs (StoresByItself reader outcome room) w later w' ∧ KeepingMedium.Keeps room w'.now w'.store ∧
      StoresFor c query format outcome room w' ∧
      Storing c reader query format outcome room contents (log ++ later) w' := by
  induction run with
  | refl => exact ⟨.refl, keeps, fits, (List.append_nil log).symm ▸ h⟩
  | step action _ own acts ih =>
    obtain ⟨hruns, hkeeps, hfits, hstoring⟩ := ih
    cases action with
    | move move =>
      obtain ⟨hkept, hnext⟩ := hstoring.own hfits own hkeeps acts
      rw [List.append_assoc] at hnext
      exact ⟨.step _ hruns (.own own hkeeps) acts, hkept, hfits.step acts, hnext⟩
    | _ => exact own.elim

/-- A read of a cached table that waits for its upkeep, whatever its query and the contents of the store are, while
its store calls do not fail, the store has room for what is stored, and nobody else changes the contents. When the
read has ended after its fetch, the store holds what the fetch leaves, in whatever order the jobs took their steps,
and under all other keys what it held before. On a store that answers, a read that waits for the data source comes
to this end. -/
theorem misses_store_what_they_fetched [AnsweringMedium σ] {origin : World ρ σ}
    (called : origin.Reads reader query format .ready)
    (cached : origin.node.cache.config.caches query.table = true)
    (waits : origin.node.cache.config.detachesUpkeep = false)
    (within : ∀ key value, outcome.Leaves origin.node.cache query format key value → key ∈ room)
    (run : Runs (StoresByItself reader outcome room) origin log w) :
    (∀ answer, w.Reads reader query format (.ended answer) → .delivered reader query format outcome ∈ log →
      ∀ key value, KeepingMedium.contents w.store w.now key = some value ↔
        outcome.Leaves origin.node.cache query format key value ∨
          (∀ other, ¬ outcome.Leaves origin.node.cache query format key other) ∧
            KeepingMedium.contents origin.store origin.now key = some value) ∧
    (∀ flight, w.Reads reader query format (.fetching flight) → KeepingMedium.Keeps room w.now w.store →
      AnsweringMedium.Answering w.store →
      ∃ later last answer, Runs (StoresByItself reader outcome room) w later last ∧
        last.Reads reader query format (.ended answer) ∧ .delivered reader query format outcome ∈ later) := by
  have hlays := Read.lays_fillEntries origin.node.cache query format outcome
  have hfits := StoresFor.of_within cached waits within
  obtain ⟨hstill, hstoring⟩ := (Storing.begun called).run hfits run
  constructor
  · intro answer ended told key value
    cases hstoring with
    | ended is came =>
      rw [came told]
      exact hlays.eq_some_iff
    | looking is looks =>
      obtain ⟨-, -, rfl⟩ := is.inj ended
      exact looks.elim
    | filling is =>
      obtain ⟨-, -, hsame⟩ := is.inj ended
      cases hsame
  · intro flight is keeps answering
    obtain ⟨later, last, answer, hruns, hended, htold⟩ := ends_of_fetching outcome is answering
    exact ⟨later, last, answer, (hstoring.run_own hstill keeps hruns).1, hended, htold⟩

end

/-- The entry of the search is corrupt, and there is one of another search. -/
def stocked : World Row RecordingStore :=
  { atRest with
    store := {
      entries :=
        ((∅ : Std.TreeMap String String).insert "a:s:users:select" "corrupt").insert "a:s:users:count" "1|[7]" } }

/-- A row that shares a key of an index with all rows like it. -/
def twin (id : String) (data : Int) : Row := .record ⟨some (.single id), [("email", .single "x")], .whole data⟩

def twinRows : List Row := [twin "1" 5, twin "2" 6]

/-- The job for the rows and the job for the search take turns. -/
def twinMoves : List (Action Row RecordingStore) :=
  [.move (.go 0), .move (.go 0), .move (.go 0), .move (.deliver 0 (.answered (some (.many twinRows)))),
    .move (.goJob 0 1), .move (.goJob 0 0), .move (.goJob 0 1), .move (.goJob 0 0), .move (.go 0)]

/-- The later of the two rows is found under the key that both have, and the other search is still there. -/
theorem twin_rows_were_stored :
    ∃ (w : World Row RecordingStore) (log : List (Event Row)) (room : Finset String),
      Runs (StoresByItself 0 (.answered (some (.many twinRows))) room)
        (stocked.enter (.ofQuery usersRead Row.records)) log w ∧
      w.Reads 0 usersRead Row.records (.ended (.returned (.ok (some (.many twinRows))))) ∧
      .delivered 0 usersRead Row.records (.answered (some (.many twinRows))) ∈ log ∧
      w.store.entries["a:u:users:email:x"]? = Row.records.encode (twin "2" 6) ∧
      w.store.entries["a:s:users:count"]? = some "1|[7]" := by
  let outcome : FetchOutcome Row := .answered (some (.many twinRows))
  let origin : World Row RecordingStore := stocked.enter (.ofQuery usersRead Row.records)
  let room : Finset String :=
    ((Read.fillEntries origin.node.cache usersRead Row.records outcome).map Entry.key).toFinset
  have hrun : (origin.perform? Unrestricted twinMoves).map (fun last => (last.1.node.activities[0]?, last.2)) =
      some (some (.read usersRead Row.records (.ended (.returned (.ok (some (.many twinRows)))))),
        [.joined 0 usersRead (.leader 0), .asked 0 usersRead,
          .delivered 0 usersRead Row.records outcome]) := by cbv
  obtain ⟨⟨w, log⟩, hlast, hfacts⟩ := Option.map_eq_some_iff.mp hrun
  obtain ⟨hended, hlog⟩ := Prod.mk.inj hfacts
  have hown : ∀ action ∈ twinMoves, action.IsOwn 0 outcome := by simp [twinMoves, Action.IsOwn, outcome]
  have hruns : Runs (GoesByItself 0 outcome) origin log w :=
    (Runs.of_perform?_each hlast hown).imp fun _ _ => And.right
  have called : origin.Reads 0 usersRead Row.records .ready := rfl
  have hlays := Read.lays_fillEntries origin.node.cache usersRead Row.records outcome
  have within : ∀ key value, outcome.Leaves origin.node.cache usersRead Row.records key value → key ∈ room := by
    intro key value hleft
    obtain ⟨entry, hentry, rfl⟩ := hlays.exists_of_laid hleft
    exact List.mem_toFinset.mpr (List.mem_map_of_mem hentry)
  have keeps : KeepingMedium.Keeps room origin.now origin.store := ⟨fun _ => rfl, rfl⟩
  have run := ((Storing.begun called).run_own (StoresFor.of_within rfl rfl within) keeps hruns).1
  have htold : .delivered 0 usersRead Row.records outcome ∈ log := by
    dsimp only at hlog
    rw [hlog]
    exact List.mem_cons_of_mem _ (List.mem_cons_of_mem _ List.mem_cons_self)
  have hstored := (misses_store_what_they_fetched called rfl rfl within run).1 _ hended htold
  refine ⟨w, log, room, run, hended, htold, ?_, ?_⟩
  · obtain ⟨text, htext⟩ : ∃ text, Row.records.encode (twin "2" 6) = some text := ⟨_, rfl⟩
    have hwritten : ∀ row ∈ twinRows, ∃ text, Row.records.encode row = some text :=
      RowFormat.exists_encodeAll_iff.mp ⟨_, rfl⟩
    have hunique : ("email", CompositeKey.single "x") ∈ Row.records.uniqueKeys (twin "2" 6) :=
      List.mem_singleton_self _
    have hkey : origin.node.cache.space.indexKey "users" "email" (.single "x") = "a:u:users:email:x" := rfl
    have hkeyed : origin.node.cache.Keys Row.records "users" twinRows (twin "2" 6) "a:u:users:email:x" :=
      hkey ▸ .unique hunique
    have horder : twinRows = [twin "1" 5] ++ twin "2" 6 :: [] := rfl
    have hleft : origin.node.cache.LeavesRows Row.records "users" twinRows "a:u:users:email:x" text :=
      .intro horder hkeyed (List.forall_mem_nil _) htext
    exact ((hstored _ _).mpr (.inl (.rows rfl hwritten (.inl rfl) rfl hleft))).trans htext.symm
  · have hkeys : (Read.fillEntries origin.node.cache usersRead Row.records outcome).map Entry.key =
        ["a:s:users:select", "a:u:users:email:x", "a:p:users:1", "a:u:users:email:x", "a:p:users:2"] := by cbv
    have hnone : ∀ other, ¬ outcome.Leaves origin.node.cache usersRead Row.records "a:s:users:count" other := by
      intro other hleft
      obtain ⟨entry, hentry, hkey⟩ := hlays.exists_of_laid hleft
      have hmem := hkeys ▸ List.mem_map_of_mem (f := Entry.key) hentry
      simp [hkey] at hmem
    exact (hstored _ _).mpr (.inr ⟨hnone, rfl⟩)

end World

end ReadThrough
