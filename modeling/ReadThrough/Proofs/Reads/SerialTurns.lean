import ReadThrough.Proofs.Freshness.Reach
import ReadThrough.Proofs.Reads.Serial

/-! # Turns of calls one after another

In a history of calls made one after another, what the call in progress comes to by a move: it goes on,
or it returns and leaves the store with what is to be remembered.

* the lemmas on `MoveComesTo` treat one turn each;
* `Replaying.comesTo` puts them together.
-/

namespace ReadThrough
set_option autoImplicit false

variable {ρ σ : Type}

namespace World

section

variable [Medium σ] [LawfulMedium σ] [MapMedium σ] {c : Cache} {format : RowFormat ρ}
  {log : List (Event ρ)} {w : World ρ σ} {move : Move ρ} {activity : Activity ρ}
  {step : ActivityStep ρ σ} {n : ActivityId}

/-! ## Turns of reads -/

section

variable {query : Query} {before : ReadStage ρ} {turn : Turn (ReadStage ρ)} {answer : Answer ρ}

theorem MoveComesTo.goesOn {after : Activity ρ} (is : step.activity = after)
    (standing : Standing c format (log ++ w.events (w.after move.activity step) (.move move))
      (w.after move.activity step) move.activity after) : MoveComesTo c format log w move step := by
  rw [MoveComesTo, is]
  exact .goesOn standing

/-- A read has ended, and nothing has to be remembered of it that was not remembered before. -/
theorem MoveComesTo.of_ended (was : w.Reads move.activity query format before)
    (is : step.activity = .read query format (.ended answer)) (free : ColonFree query.table)
    (recalls : Recalls c format log w move.activity w.Holds) (store : step.store = w.store)
    (known : ∀ result, c.config.caches query.table → c.Retains format result →
      answer = .returned (.ok result) → Remembered c format log w move.activity query result)
    (settled : c.config.caches query.table →
      Settled c format (log ++ w.events (w.after move.activity step) (.move move))
        (w.after move.activity step) move.activity query answer) :
    MoveComesTo c format log w move step := by
  have hmover := after_activities_mover was step
  have hagrees := agrees_of_move log was step
  have hrecalls := recalls_after was recalls (holds_of_store store)
  rw [is] at hmover
  rw [MoveComesTo, is]
  refine .returns rfl (hrecalls.of_quiet hmover (fun _ => id) ?_) ?_
  · intro query' result free' cached fetched
    obtain ⟨hkey, hretains, hanswer⟩ := fetched.of_returned hmover
    have htables := KeyLayout.of_resultKey free' free hkey
    have hknown := known result (htables ▸ cached) hretains hanswer
    exact (hagrees.remembered_iff.mpr hknown).of_same_key hkey.symm htables.symm
  · rintro query' answer' ⟨⟩ cached
    exact settled cached

theorem MoveComesTo.of_start (h : Replaying c format log w)
    (plain : query.pointLookup? = none) (was : w.Reads move.activity query format .ready)
    (quiet : move.outcome? = none) (untold : Untold log move.activity)
    (recalls : Recalls c format log w move.activity w.Holds)
    (free : w.flights.registry[query.flightName]? = none)
    (is : step = Activity.ofReadTurn query format w.store (Read.start w.node.cache query)) :
    MoveComesTo c format log w move step := by
  have hrecalls := recalls_after was recalls (holds_of_store (congrArg ActivityStep.store is))
  have hactivity : step.activity = .read query format (Read.start w.node.cache query).stage :=
    congrArg ActivityStep.activity is
  cases hcached : w.node.cache.config.caches query.table with
  | true =>
    have hlevel : w.node.cache.config.level.cachesSearches := h.grows.config ▸ h.level
    obtain ⟨flight, hstage, hfetches⟩ := Read.start_cached hcached hlevel plain free
    rw [hstage] at hactivity
    have hsilent : step.fetches = false := (congrArg ActivityStep.fetches is).trans hfetches
    have huntold := untold_after was hactivity quiet hsilent untold
    exact .goesOn hactivity (.looking (h.grows.config ▸ hcached) huntold hrecalls
      (.inl (by rw [Cache.resultKey_of_space h.grows.space])))
  | false =>
    rw [Read.start_uncached hcached] at hactivity
    exact .goesOn hactivity (.bypassing (h.grows.config ▸ hcached) hrecalls)

theorem MoveComesTo.of_bypass {outcome : FetchOutcome ρ} (free : ColonFree query.table)
    (was : w.Reads move.activity query format .bypassing)
    (uncached : c.config.caches query.table = false)
    (recalls : Recalls c format log w move.activity w.Holds)
    (is : step = Activity.ofReadTurn query format w.store (Read.afterBypass w.node.cache outcome)) :
    MoveComesTo c format log w move step := by
  have hended : ∃ answer, (Read.afterBypass w.node.cache outcome).stage = .ended answer := by
    cases outcome <;> exact ⟨_, rfl⟩
  obtain ⟨answer, hstage⟩ := hended
  have hactivity : step.activity = .read query format (.ended answer) :=
    (congrArg ActivityStep.activity is).trans (congrArg (Activity.read query format) hstage)
  have hnone : ¬ c.config.caches query.table := by simp [uncached]
  exact .of_ended was hactivity free recalls (congrArg ActivityStep.store is)
    (fun _ cached => absurd cached hnone) fun cached => absurd cached hnone

theorem MoveComesTo.of_look {flight : FlightId} {taken : StoreStep σ .text} (h : Replaying c format log w)
    (was : w.Reads move.activity query format
      (.awaitingSearch flight (.asked (.get (c.resultKey query)))))
    (cached : c.config.caches query.table) (quiet : move.outcome? = none)
    (untold : Untold log move.activity)
    (recalls : Recalls c format log w move.activity w.Holds)
    (steps : Medium.step? w.now w.store (.asked (.get (c.resultKey query))) = some taken)
    (found : taken.operation.FoundAmong (w.Holds (c.resultKey query)))
    (is : step.activity = .read query format (.awaitingSearch flight taken.operation))
    (store : step.store = taken.store) (silent : step.fetches = false) :
    MoveComesTo c format log w move step := by
  have hsame : ∀ key value, LawfulMedium.Holds step.store w.now key value ↔ w.Holds key value := by
    intro key value
    rw [store]
    exact MapMedium.get_holds_iff h.dependable steps
  have hfound : taken.operation.FoundAmong
      ((w.after move.activity step).Holds (c.resultKey query)) := by
    have hheld : (w.after move.activity step).Holds (c.resultKey query) = w.Holds (c.resultKey query) :=
      funext fun value => propext (hsame _ value)
    rwa [hheld]
  exact .goesOn is (.looking cached (untold_after was is quiet silent untold)
    (recalls_after was recalls hsame) (.inr hfound))

theorem MoveComesTo.of_reply {flight : FlightId} {reply : Reply .text} (h : Replaying c format log w)
    (free : ColonFree query.table)
    (was : w.Reads move.activity query format (.awaitingSearch flight (.answered reply)))
    (cached : c.config.caches query.table) (quiet : move.outcome? = none)
    (untold : Untold log move.activity)
    (recalls : Recalls c format log w move.activity w.Holds)
    (finds : (Operation.answered reply).FoundAmong (w.Holds (c.resultKey query)))
    (is : step = Activity.ofReadTurn query format w.store
      (Read.afterSearch w.node.cache query format flight reply)) :
    MoveComesTo c format log w move step := by
  have hagrees := agrees_of_move log was step
  have hstore : step.store = w.store := congrArg ActivityStep.store is
  have hactivity : step.activity = .read query format
      (Read.afterSearch w.node.cache query format flight reply).stage :=
    congrArg ActivityStep.activity is
  rcases finds with ⟨value, hreply, held⟩ | ⟨failure, hreply, hnone⟩
  · -- the entry is the form of what is remembered, and is read back as this
    obtain rfl := Operation.answered.inj hreply
    obtain ⟨result, hremembered, hform⟩ := (recalls query value free cached).mp held
    obtain ⟨hstage, hfetches⟩ := Read.afterSearch_stored w.node.cache query flight h.back hform
    rw [hstage] at hactivity
    have hsilent : step.fetches = false := (congrArg ActivityStep.fetches is).trans hfetches
    have huntold := untold_after was hactivity quiet hsilent untold
    refine .of_ended was hactivity free recalls hstore ?_ fun _ => ⟨?_, ?_, ?_⟩
    · rintro other - - hanswer
      obtain rfl : result = other := by simpa using hanswer
      exact hremembered
    · exact ⟨fun _ => ⟨result, hagrees.remembered_iff.mpr hremembered⟩, fun _ => huntold.unasked⟩
    · intro other hother
      have hunique : ∀ key value value', w.Holds key value → w.Holds key value' → value = value' :=
        fun _ _ _ => MapMedium.unique h.dependable
      obtain rfl := recalls.result_eq h.back hunique free cached held hform
        (hagrees.remembered_iff.mp hother)
      rfl
    · exact fun _ hdelivered => absurd hdelivered (huntold.unanswered _ _ _)
  · -- there is no entry, so nothing is remembered
    obtain rfl := Operation.answered.inj hreply
    have hasks : step.fetches = true := congrArg ActivityStep.fetches is
    have hasked : .asked move.activity query ∈
        log ++ w.events (w.after move.activity step) (.move move) :=
      (asked_mem_after was hactivity).mpr (.inr ⟨rfl, hasks⟩)
    have hunanswered := unanswered_after was hactivity quiet untold.unanswered
    have hrecalls := recalls_after was recalls (holds_of_store hstore)
    refine .goesOn hactivity (.fetching ⟨cached, hasked, ?_⟩ hunanswered hrecalls)
    intro result hremembered
    have hbefore := hagrees.remembered_iff.mp hremembered
    obtain ⟨value, hform⟩ := hbefore.stored
    exact hnone value ((recalls query value free cached).mpr ⟨result, hbefore, hform⟩)

theorem MoveComesTo.of_forgotten {flight : FlightId} (free : ColonFree query.table)
    (was : w.Reads move.activity query format (.fetching flight))
    (missed : Missed c format log w move.activity query) (unanswered : Unanswered log move.activity)
    (recalls : Recalls c format log w move.activity w.Holds) (store : step.store = w.store)
    (is : step.activity = .read query format (.ended answer))
    (forgotten : ∀ result, c.Retains format result → answer ≠ .returned (.ok result))
    (told : ∀ result, move.outcome? = some (.answered result) →
      answer = .returned (.ok (query.shape.normalize result))) :
    MoveComesTo c format log w move step := by
  refine .of_ended was is free recalls store ?_ fun _ => ?_
  · exact fun result _ retains hanswer => absurd hanswer (forgotten result retains)
  · refine (missed.after was step).settled fun result hresult => ?_
    exact told result ((unanswered.delivered_mem was is).mp hresult).2.2

theorem MoveComesTo.of_fetch {flight : FlightId} {outcome : FetchOutcome ρ}
    (h : Replaying c format log w) (free : ColonFree query.table)
    (was : w.Reads move.activity query format (.fetching flight))
    (missed : Missed c format log w move.activity query) (unanswered : Unanswered log move.activity)
    (recalls : Recalls c format log w move.activity w.Holds) (delivers : move.outcome? = some outcome)
    (is : step = Activity.ofReadTurn query format w.store
      (Read.afterFetch w.node.cache query format flight outcome)) :
    MoveComesTo c format log w move step := by
  have hstore : step.store = w.store := congrArg ActivityStep.store is
  have hactivity : step.activity = .read query format
      (Read.afterFetch w.node.cache query format flight outcome).stage :=
    congrArg ActivityStep.activity is
  cases outcome with
  | brokeDown =>
    exact .of_forgotten free was missed unanswered recalls hstore hactivity (by simp)
      (by simp [delivers])
  | failed text =>
    exact .of_forgotten free was missed unanswered recalls hstore hactivity (by simp)
      (by simp [delivers])
  | answered answer =>
    have hdisposes : Read.Disposes w.node.cache query format flight (query.shape.normalize answer)
        (Read.afterFetch w.node.cache query format flight (.answered answer)).stage :=
      Read.afterFetch_stage (h.grows.config ▸ h.waits) (h.grows.config ▸ h.level) answer
    generalize hstage : (Read.afterFetch w.node.cache query format flight (.answered answer)).stage =
      stage at hactivity hdisposes
    generalize hresult : query.shape.normalize answer = result at hdisposes
    have hretains : w.node.cache.Retains format result ↔ c.Retains format result := by
      cases result <;> simp only [Cache.Retains, h.grows.config]
    have htold : ∀ other, move.outcome? = some (.answered other) →
        query.shape.normalize other = result := by
      intro other hother
      obtain rfl : answer = other := by simpa [delivers] using hother
      exact hresult
    cases hdisposes with
    | returns forgets =>
      refine .of_forgotten free was missed unanswered recalls hstore hactivity ?_ ?_
      · rintro other hother ⟨⟩
        exact forgets (hretains.mpr hother)
      · intro other hother
        rw [htold other hother]
    | stores retains stored stores =>
      have hkeys := fun query => Cache.resultKey_of_space h.grows.space query
      have hdependable : MapMedium.Dependable step.store := hstore ▸ h.dependable
      have hdelivered : ∀ other : Option (ResultSet ρ),
          .delivered move.activity query format (.answered other) ∈
            log ++ w.events (w.after move.activity step) (.move move) ↔ _ :=
        fun other => unanswered.delivered_mem was hactivity
      refine .goesOn hactivity (.filling (missed.after was step)
        ((hdelivered answer).mpr ⟨rfl, rfl, delivers⟩)
        (fun other hother => htold other ((hdelivered other).mp hother).2.2)
        (hretains.mp retains) stored (recalls_after was recalls (holds_of_store hstore))
        ⟨hdependable, stores.fills, ?_, ?_, fun _ _ _ _ => Iff.rfl⟩)
      · intro job hjob
        rw [← hkeys]
        refine (stores.elsewhere job hjob).imp id fun elsewhere key value' hkey => ?_
        obtain ⟨other, rfl⟩ := hkey
        rw [← hkeys]
        exact elsewhere other value'
      · rw [← hkeys]
        exact .inr stores.puts

theorem MoveComesTo.of_filled {flight : FlightId} {result : Option (ResultSet ρ)} {outcome : Outcome}
    {jobs : List JobRun} {fetched : Option (ResultSet ρ)} {value : String}
    {Before : String → String → Prop} (free : ColonFree query.table)
    (was : w.Reads move.activity query format (.filling flight result outcome jobs))
    (missed : Missed c format log w move.activity query)
    (delivered : .delivered move.activity query format (.answered fetched) ∈ log)
    (normal : ∀ fetched, .delivered move.activity query format (.answered fetched) ∈ log →
      query.shape.normalize fetched = result)
    (retains : c.Retains format result) (form : format.stored? result = some value)
    (recalls : Recalls c format log w move.activity Before)
    (filling : Filling (fun key => ∃ other, key = c.resultKey other) Before
      ⟨c.resultKey query, value⟩ w.now w.store jobs)
    (quiet : move.outcome? = none) (finished : ∀ job ∈ jobs, job.isFinished)
    (is : step = Activity.ofReadTurn query format w.store
      (Read.afterFill w.node.cache query flight result outcome [])) :
    MoveComesTo c format log w move step := by
  have hstore : step.store = w.store := congrArg ActivityStep.store is
  have hactivity : step.activity = .read query format (.ended (.returned (.ok result))) :=
    congrArg ActivityStep.activity is
  have hmissed := missed.after was step
  have hrecalls := recalls.agrees (agrees_of_move log was step)
  have hmover := after_activities_mover was step
  rw [hactivity] at hmover
  rw [MoveComesTo, hactivity]
  have hfetched : FetchedBy c format (log ++ w.events (w.after move.activity step) (.move move))
      (w.after move.activity step) move.activity query result :=
    ⟨rfl, List.mem_append_left _ delivered, normal _ delivered, retains, hmover⟩
  refine .returns rfl (hrecalls.of_stored hmissed.unknown hfetched hmover free form ?_) ?_
  · intro other value'
    change LawfulMedium.Holds step.store w.now _ value' ↔ _
    rw [hstore]
    exact filling.ended finished ⟨other, rfl⟩
  · rintro query' answer ⟨⟩ -
    refine hmissed.settled fun other hother => ?_
    rw [normal other ((delivered_mem_of_quiet was hactivity quiet).mp hother)]

end

/-! ## Turns of changes and sweeps -/

section

variable {event : Change} {jobs : List JobRun} {Targets : String → Prop}
  {Before : String → String → Prop}

theorem MoveComesTo.of_swept (found : w.node.activities[move.activity]? = some activity)
    (recalls : Recalls c format log w move.activity Before)
    (sweeps : SweepsFor c Targets step.activity) (returned : hasReturned step.activity)
    (cleared : ∀ key value, LawfulMedium.Holds step.store w.now key value ↔
      Before key value ∧ ¬ Targets key) (same : step.activity.isRead = false) :
    MoveComesTo c format log w move step := by
  have hmover := after_activities_mover found step
  have hrecalls := recalls.agrees (agrees_of_move log found step)
  refine ComesTo.returns returned (hrecalls.of_swept hmover same fun query value free => ?_) ?_
  · rw [← sweeps query free]
    exact cleared _ _
  · intro query answer hread
    rw [hread] at same
    cases same

theorem sweepsFor_change (h : Replaying c format log w) (free : ColonFree event.table)
    (effective : w.node.cache.isInvalidatedBy event)
    (stage : InvalidationStage) :
    SweepsFor c (w.node.cache.ReachesKey event) (.change event stage : Activity ρ) := by
  intro query free'
  rw [← Cache.resultKey_of_space h.grows.space]
  have heffective : c.Heeds event := h.grows.heeds_iff.mp (Cache.isInvalidatedBy_iff.mp effective)
  constructor
  · rintro ⟨place, hreaches, hkey⟩
    refine ⟨heffective, ?_⟩
    cases hreaches with
    | result => exact KeyLayout.of_resultKey free free' hkey
    | row => exact absurd hkey (KeyLayout.rowKey_ne_resultKey _ _ _)
    | mentioned | unmentioned => exact absurd hkey (KeyLayout.indexKey_ne_resultKey _ _ _ _)
  · rintro ⟨-, hsame⟩
    exact ⟨_, .result (h.grows.config ▸ h.level) query.sql query.params, by rw [Place.key, hsame]; rfl⟩

theorem MoveComesTo.of_change (h : Replaying c format log w) (free : ColonFree event.table)
    (found : w.node.activities[move.activity]? = some (.change event .ready))
    (recalls : Recalls c format log w move.activity w.Holds)
    (is : step = Activity.ofInvalidationTurn event w.store
      (Invalidation.start w.node.cache event)) :
    MoveComesTo c format log w move step := by
  have hstore : step.store = w.store := congrArg ActivityStep.store is
  have hactivity : step.activity = .change event (Invalidation.start w.node.cache event).stage :=
    congrArg ActivityStep.activity is
  have hreliable := MapMedium.reliable h.dependable
  cases heffective : w.node.cache.isInvalidatedBy event with
  | true =>
    obtain ⟨hdeletion, hclearing⟩ := clearing_of_start hreliable event
    have hsweeps := sweepsFor_change h free heffective
    rw [Invalidation.start_stage heffective (h.grows.config ▸ h.waits)] at hactivity
    split at hactivity
    · rename_i hnone
      rw [List.isEmpty_iff.mp hnone] at hclearing
      refine .of_swept found recalls (hactivity ▸ hsweeps .ended) (hactivity ▸ rfl) ?_
        (hactivity ▸ rfl)
      rw [hstore]
      exact hclearing.ended (by simp)
    · have hrecalls := recalls.agrees (agrees_of_move log found step)
      have hclearing' : Clearing _ _ w.now step.store _ := hstore ▸ hclearing
      exact .goesOn hactivity (.deleting hrecalls (hsweeps _) hdeletion hclearing')
  | false =>
    have hended : (Invalidation.start w.node.cache event).stage = .ended := by
      simp [Invalidation.start, heffective]
    rw [hended] at hactivity
    have hsweeps : SweepsFor c (fun _ => False) (.change event .ended : Activity ρ) := by
      intro query _
      have hnone : ¬ c.Heeds event := fun heeds =>
        Cache.isInvalidatedBy_eq_false_iff.mp heffective (h.grows.heeds_iff.mpr heeds)
      simp [Cache.Drops, hnone]
    refine .of_swept found recalls (hactivity ▸ hsweeps) (hactivity ▸ rfl) ?_ (hactivity ▸ rfl)
    rw [hstore]
    exact fun key value => ⟨fun held => ⟨held, id⟩, And.left⟩

theorem MoveComesTo.of_request {k : ReplyKind} {asked : Request k} (h : Replaying c format log w)
    (replayable : (Activity.request asked .ready : Activity ρ).Replayable format)
    (found : w.node.activities[move.activity]? = some (.request asked .ready))
    (recalls : Recalls c format log w move.activity w.Holds) (store : step.store = w.store)
    (is : step.activity = .request asked (.waiting (.asked (w.node.cache.prepare asked).2))) :
    MoveComesTo c format log w move step := by
  have hrecalls := recalls.agrees (agrees_of_move log found step)
  have hclearing : ∀ segments, Clearing (fun key => isUnder key segments) w.Holds w.now step.store
      (Operation.asked (.sweep segments)).Deletes := by
    intro segments
    rw [store]
    exact ⟨MapMedium.reliable h.dependable, fun _ _ _ target => target, fun _ pending => pending,
      fun _ _ held _ => held, fun _ _ held => held⟩
  cases asked with
  | reset =>
    refine .goesOn is (.sweeping hrecalls (fun query _ => ?_) trivial (hclearing _))
    refine ⟨fun _ => trivial, fun _ => ?_⟩
    rw [h.grows.space]
    exact KeyLayout.isUnder_id _ _ _ _
  | invalidateSearches table =>
    refine .goesOn is (.sweeping hrecalls (fun query free => ?_) trivial (hclearing _))
    rw [h.grows.space]
    exact (KeyLayout.isUnder_inNamespace (KeyLayout.resultKey_toList _ _ _ _)
      (KeyLayout.resultsOf_toList _ _) free replayable).trans (and_iff_right rfl)
  | _ => exact replayable.elim

end

/-! ## Moves -/

/-- Nobody leads a flight when a call begins. -/
theorem Replaying.free (h : Replaying c format log w) (found : w.node.activities[n]? = some activity)
    (new : activity.origin = activity) (unreturned : hasReturned activity = false) (key : String) :
    w.flights.registry[key]? = none := by
  cases hregistered : w.flights.registry[key]? with
  | none => rfl
  | some flight =>
    obtain ⟨f, hf, hkey, hopen⟩ := h.led.exact.sound key flight hregistered
    have hprofile : w.flights.profile? flight = some (f.key, .running) := by
      simp [Flights.profile?, hf, hopen.1]
    obtain ⟨i, query, format', stage, hread, hleads⟩ := h.led.led flight f.key hprofile
    have hwaits : hasReturned (.read query format' stage) = false := by
      cases stage with
      | ended => cases hleads
      | _ => rfl
    -- the leader is in progress, so it is this call, which has not begun
    obtain ⟨hlast, -⟩ := h.working i _ hread hwaits
    obtain rfl := Nat.succ.inj (hlast.trans (h.working n activity found unreturned).1.symm)
    obtain rfl := Option.some.inj (found.symm.trans hread)
    obtain ⟨-, -, rfl⟩ := Activity.read.inj new
    cases hleads

theorem MoveComesTo.of_new (h : Replaying c format log w)
    (found : w.node.activities[move.activity]? = some activity)
    (taken : activity.move? w.now w.node.cache w.store move = some step)
    (unaborted : ∀ i, move ≠ .abort i) (new : activity.origin = activity)
    (unreturned : hasReturned activity = false) (untold : Untold log move.activity)
    (recalls : Recalls c format log w move.activity w.Holds) :
    step.store = w.store ∧ MoveComesTo c format log w move step := by
  have hreplayable := h.calls activity (List.mem_of_getElem? found)
  cases move with
  | go i =>
    cases activity with
    | job => exact hreplayable.elim
    | read query format' stage =>
      obtain ⟨rfl, -, plain⟩ := hreplayable
      obtain ⟨-, -, rfl⟩ := Activity.read.inj new
      obtain rfl := Option.some.inj taken
      have hfree := h.free found new unreturned query.flightName
      exact ⟨rfl, .of_start h plain found rfl untold recalls hfree rfl⟩
    | change event stage =>
      obtain ⟨-, rfl⟩ := Activity.change.inj new
      obtain rfl := Option.some.inj taken
      exact ⟨rfl, .of_change h hreplayable found recalls rfl⟩
    | request asked stage =>
      have hready : stage = .ready := by
        cases stage with
        | ready => rfl
        | _ => cases new
      subst hready
      obtain rfl := Option.some.inj taken
      exact ⟨rfl, .of_request h hreplayable found recalls rfl rfl⟩
  | goJob | deliver =>
    cases activity with
    | job => exact hreplayable.elim
    | read =>
      obtain ⟨-, -, rfl⟩ := Activity.read.inj new
      cases taken
    | change =>
      obtain ⟨-, rfl⟩ := Activity.change.inj new
      cases taken
    | request => cases taken
  | abort i => exact absurd rfl (unaborted i)

theorem MoveComesTo.of_looking {query : Query} {flight : FlightId} {operation : Operation .text}
    (h : Replaying c format log w) (free : ColonFree query.table)
    (was : w.Reads move.activity query format (.awaitingSearch flight operation))
    (taken : (Activity.read query format (.awaitingSearch flight operation)).move? w.now w.node.cache
      w.store move = some step)
    (unaborted : ∀ i, move ≠ .abort i) (cached : c.config.caches query.table)
    (untold : Untold log move.activity) (recalls : Recalls c format log w move.activity w.Holds)
    (finds : operation = .asked (.get (c.resultKey query)) ∨
      operation.FoundAmong (w.Holds (c.resultKey query))) :
    MapMedium.Dependable step.store ∧ MoveComesTo c format log w move step := by
  cases move with
  | go i =>
    rcases finds with rfl | hanswered
    · obtain ⟨next, hnext, rfl⟩ := Option.map_eq_some_iff.mp taken
      obtain ⟨next', hnext', hfound⟩ := MapMedium.get h.dependable w.now (c.resultKey query)
      obtain rfl := Option.some.inj (hnext.symm.trans hnext')
      exact ⟨MapMedium.dependable h.dependable hnext,
        .of_look h was cached rfl untold recalls hnext hfound rfl rfl rfl⟩
    · obtain ⟨reply, rfl⟩ := hanswered.answered
      obtain rfl := Option.some.inj taken
      exact ⟨h.dependable, .of_reply h free was cached rfl untold recalls hanswered rfl⟩
  | goJob | deliver => cases taken
  | abort i => exact absurd rfl (unaborted i)

theorem MoveComesTo.of_filling {query : Query} {flight : FlightId} {result : Option (ResultSet ρ)}
    {outcome : Outcome} {jobs : List JobRun} {fetched : Option (ResultSet ρ)} {value : String}
    {Before : String → String → Prop} (h : Replaying c format log w) (free : ColonFree query.table)
    (was : w.Reads move.activity query format (.filling flight result outcome jobs))
    (taken : (Activity.read query format (.filling flight result outcome jobs)).move? w.now w.node.cache
      w.store move = some step)
    (unaborted : ∀ i, move ≠ .abort i) (missed : Missed c format log w move.activity query)
    (delivered : .delivered move.activity query format (.answered fetched) ∈ log)
    (normal : ∀ fetched, .delivered move.activity query format (.answered fetched) ∈ log →
      query.shape.normalize fetched = result)
    (retains : c.Retains format result) (form : format.stored? result = some value)
    (recalls : Recalls c format log w move.activity Before)
    (filling : Filling (fun key => ∃ other, key = c.resultKey other) Before
      ⟨c.resultKey query, value⟩ w.now w.store jobs) :
    MapMedium.Dependable step.store ∧ MoveComesTo c format log w move step := by
  cases move with
  | go i =>
    have hunbroken : jobs.any JobRun.isBroken = false :=
      List.any_eq_false.mpr fun job hjob => by simp [(filling.fills job hjob).unbroken]
    simp only [Activity.move?, Activity.go?, Activity.goRead?, hunbroken, Bool.false_eq_true,
      if_false] at taken
    split at taken
    · rename_i hfinished
      obtain rfl := Option.some.inj taken
      exact ⟨h.dependable, .of_filled free was missed delivered normal retains form recalls filling rfl
        (List.all_eq_true.mp hfinished) rfl⟩
    · cases taken
  | goJob i index =>
    simp only [Activity.move?, Activity.goJob?, Option.bind_eq_bind, Option.bind_eq_some_iff] at taken
    obtain ⟨run, hrun, moved, hmoved, ⟨⟩⟩ := taken
    have hfilling := filling.set ⟨query, rfl⟩ hrun hmoved
    exact ⟨hfilling.dependable, .goesOn rfl (.filling (missed.after was _)
      (List.mem_append_left _ delivered)
      (fun other hother => normal other ((delivered_mem_of_quiet was rfl rfl).mp hother)) retains form
      (recalls.agrees (agrees_of_move log was _)) hfilling)⟩
  | deliver => cases taken
  | abort i => exact absurd rfl (unaborted i)

theorem MoveComesTo.of_deleting [ExactMedium σ] {event : Change} {jobs : List JobRun}
    {Targets : String → Prop} {Before : String → String → Prop} (h : Replaying c format log w)
    (found : w.node.activities[move.activity]? = some (.change event (.deleting jobs)))
    (taken : (Activity.change event (.deleting jobs) : Activity ρ).move? w.now w.node.cache w.store
      move = some step)
    (unaborted : ∀ i, move ≠ .abort i) (recalls : Recalls c format log w move.activity Before)
    (sweeps : SweepsFor c Targets (.change event (.deleting jobs) : Activity ρ))
    (deletion : ∀ job ∈ jobs, job.IsDeletion)
    (clearing : Clearing Targets Before w.now w.store fun key => ∃ job ∈ jobs, job.Deletes key) :
    MapMedium.Dependable step.store ∧ MoveComesTo c format log w move step := by
  cases move with
  | go i =>
    simp only [Activity.move?, Activity.go?, Activity.goInvalidation?] at taken
    split at taken
    · rename_i hended
      obtain rfl := Option.some.inj taken
      have hnone : ∀ key, ¬ ∃ job ∈ jobs, job.Deletes key := by
        rintro key ⟨job, hjob, hdeletes⟩
        exact JobRun.not_deletes_of_ended (by simpa using List.all_eq_true.mp hended job hjob) key
          hdeletes
      exact ⟨h.dependable, .of_swept found recalls sweeps rfl (clearing.ended hnone) rfl⟩
    · cases taken
  | goJob i index =>
    simp only [Activity.move?, Activity.goJob?, Option.bind_eq_bind, Option.bind_eq_some_iff] at taken
    obtain ⟨run, hrun, moved, hmoved, ⟨⟩⟩ := taken
    obtain ⟨hdeletion, hclearing⟩ := clearing.jobs deletion hrun hmoved
    exact ⟨JobRun.step_dependable h.dependable hmoved, .goesOn rfl
      (.deleting (recalls.agrees (agrees_of_move log found _)) sweeps hdeletion hclearing)⟩
  | deliver => cases taken
  | abort i => exact absurd rfl (unaborted i)

theorem MoveComesTo.of_sweeping [ExactMedium σ] {asked : Request .done} {operation : Operation .done}
    {Targets : String → Prop} {Before : String → String → Prop} (h : Replaying c format log w)
    (found : w.node.activities[move.activity]? = some (.request asked (.waiting operation)))
    (taken : (Activity.request asked (.waiting operation) : Activity ρ).move? w.now w.node.cache w.store
      move = some step)
    (unaborted : ∀ i, move ≠ .abort i) (recalls : Recalls c format log w move.activity Before)
    (sweeps : SweepsFor c Targets (.request asked (.waiting operation) : Activity ρ))
    (deletion : operation.IsDeletion)
    (clearing : Clearing Targets Before w.now w.store operation.Deletes) :
    MapMedium.Dependable step.store ∧ MoveComesTo c format log w move step := by
  cases move with
  | go i =>
    cases operation with
    | answered reply =>
      obtain rfl := Option.some.inj taken
      exact ⟨h.dependable,
        .of_swept found recalls (sweeps.of_origin rfl) rfl (clearing.ended fun _ => id) rfl⟩
    | _ =>
      obtain ⟨next, hnext, rfl⟩ := Option.map_eq_some_iff.mp taken
      have hdeletion := LawfulMedium.isDeletion clearing.reliable hnext deletion
      exact ⟨MapMedium.dependable h.dependable hnext, .goesOn rfl
        (.sweeping (recalls.agrees (agrees_of_move log found _)) (sweeps.of_origin rfl) hdeletion
          (clearing.operation deletion hnext))⟩
  | goJob | deliver => cases taken
  | abort i => exact absurd rfl (unaborted i)

/-- What the call in progress comes to by a move, wherever it stands. -/
theorem Replaying.comesTo [ExactMedium σ] (h : Replaying c format log w)
    (found : w.node.activities[move.activity]? = some activity)
    (taken : activity.move? w.now w.node.cache w.store move = some step)
    (unaborted : ∀ i, move ≠ .abort i) :
    MapMedium.Dependable step.store ∧ MoveComesTo c format log w move step := by
  have hreplayable := h.calls activity (List.mem_of_getElem? found)
  have hunreturned := not_hasReturned_of_move hreplayable taken
  obtain ⟨-, hstanding⟩ := h.working _ activity found hunreturned
  cases hstanding with
  | ready new _ untold recalls =>
    obtain ⟨hstore, hcomes⟩ := MoveComesTo.of_new h found taken unaborted new hunreturned untold recalls
    exact ⟨hstore ▸ h.dependable, hcomes⟩
  | bypassing uncached recalls =>
    cases move with
    | deliver i outcome =>
      obtain rfl := Option.some.inj taken
      exact ⟨h.dependable, .of_bypass hreplayable.2.1 found uncached recalls rfl⟩
    | go | goJob => cases taken
    | abort i => exact absurd rfl (unaborted i)
  | looking cached untold recalls finds =>
    exact MoveComesTo.of_looking h hreplayable.2.1 found taken unaborted cached untold recalls finds
  | fetching missed unanswered recalls =>
    cases move with
    | deliver i outcome =>
      obtain rfl := Option.some.inj taken
      exact ⟨h.dependable, .of_fetch h hreplayable.2.1 found missed unanswered recalls rfl rfl⟩
    | go | goJob => cases taken
    | abort i => exact absurd rfl (unaborted i)
  | filling missed delivered normal retains form recalls filling =>
    exact MoveComesTo.of_filling h hreplayable.2.1 found taken unaborted missed delivered normal retains form
      recalls filling
  | deleting recalls sweeps deletion clearing =>
    exact MoveComesTo.of_deleting h found taken unaborted recalls sweeps deletion clearing
  | sweeping recalls sweeps deletion clearing =>
    exact MoveComesTo.of_sweeping h found taken unaborted recalls sweeps deletion clearing

end

end World

end ReadThrough
