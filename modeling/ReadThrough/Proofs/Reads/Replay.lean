import ReadThrough.Proofs.Reads.Answers
import ReadThrough.Proofs.Reads.SerialTurns

/-! # Searches replay what was fetched last

When calls are made one after another over a store that behaves like a map, a search is answered
without asking the data source just if its result is remembered, and then with this result.

* `Replaying.step` and `Replaying.run`: all that happens in such a history keeps it one;
* `Replaying.finishes` takes a read of a remembered search to its end;
* `search_replays_last_cacheable_outcome` is the theorem.
-/

namespace ReadThrough
set_option autoImplicit false

variable {ρ σ : Type}

namespace World

section

variable [Medium σ] [LawfulMedium σ] [MapMedium σ] {c : Cache} {format : RowFormat ρ}
  {log : List (Event ρ)} {w : World ρ σ} {activity : Activity ρ} {n : ActivityId}

/-! ## Histories -/

theorem Replaying.of_new (level : w.node.cache.config.level.cachesSearches)
    (waits : w.node.cache.config.detachesUpkeep = false) (back : ∀ rows, format.ReadsBack rows)
    (new : w.IsNew) (dependable : MapMedium.Dependable w.store)
    (vacant : ∀ query value, ¬ w.Holds (w.node.cache.resultKey query) value) :
    Replaying w.node.cache format [] w := by
  refine ⟨level, waits, back, .refl _, dependable, .of_new new, ?_, by simp, ?_, ?_, ?_⟩
  · simp [new.2]
  · intro _ query value _ _
    rw [new.2]
    refine ⟨fun held => absurd held (vacant query value), ?_⟩
    rintro ⟨result, ⟨reader, hreader, -⟩, -⟩
    exact absurd hreader (Nat.not_lt_zero reader)
  · intro n activity found
    simp [new.2] at found
  · intro i query answer hread
    simp [Reads, new.2] at hread

/-- A caller who has all results makes the next call. -/
theorem Replaying.of_enter (h : Replaying c format log w) (new : activity.origin = activity)
    (unreturned : hasReturned activity = false) (replayable : activity.Replayable format)
    (returned : ∀ other ∈ w.node.activities, hasReturned other) (led : Led (w.enter activity)) :
    Replaying c format log (w.enter activity) := by
  have hlength : (w.enter activity).node.activities.length = w.node.activities.length + 1 :=
    List.length_append
  have hagrees : Agrees log w log (w.enter activity) w.node.activities.length := by
    refine ⟨fun _ _ => Iff.rfl, fun k hk => ?_⟩
    rw [enter_activities, if_neg (Nat.ne_of_lt hk)]
  refine ⟨h.level, h.waits, h.back, h.grows, h.dependable, led, ?_, ?_, ?_, ?_, ?_⟩
  · intro other hother
    rcases List.mem_append.mp hother with hold | hnew
    · exact h.calls other hold
    · exact List.mem_singleton.mp hnew ▸ replayable
  · intro event hevent
    rw [hlength]
    exact Nat.lt_succ_of_lt (h.known event hevent)
  · intro hall
    have hmem : activity ∈ (w.enter activity).node.activities := List.mem_append_right _ (by simp)
    cases unreturned.symm.trans (hall activity hmem)
  · intro n other hfound hwaits
    rcases of_enter_activities hfound with ⟨rfl, rfl⟩ | hold
    · refine ⟨hlength.symm, .ready new unreturned ⟨?_, ?_⟩ ?_⟩
      · exact fun _ hasked => Nat.lt_irrefl _ (h.known _ hasked)
      · exact fun _ _ _ hdelivered => Nat.lt_irrefl _ (h.known _ hdelivered)
      · exact (h.resting returned).agrees hagrees
    · cases hwaits.symm.trans (returned other (List.mem_of_getElem? hold))
  · intro i query answer hread cached
    rcases of_enter_activities hread with ⟨-, rfl⟩ | hold
    · cases unreturned
    · exact (h.settled i query answer hold cached).agrees
        (hagrees.mono (List.getElem?_eq_some_iff.mp hold).1)

theorem Standing.wait (dependable : MapMedium.Dependable w.store)
    (h : Standing c format log w n activity) (nanos : Nat) :
    Standing c format log { w with now := w.now + nanos } n activity := by
  have hagrees : Agrees log w log { w with now := w.now + nanos } n :=
    ⟨fun _ _ => Iff.rfl, fun _ _ => rfl⟩
  have hheld : ({ w with now := w.now + nanos } : World ρ σ).Holds = w.Holds :=
    funext fun _ => funext fun _ => propext (MapMedium.timeless_iff dependable)
  have hmissed : ∀ {query}, Missed c format log w n query →
      Missed c format log { w with now := w.now + nanos } n query :=
    fun missed => missed.agrees hagrees (List.Subset.refl log)
  cases h with
  | ready new waits untold recalls => exact .ready new waits untold (hheld ▸ recalls.agrees hagrees)
  | bypassing uncached recalls => exact .bypassing uncached (hheld ▸ recalls.agrees hagrees)
  | looking cached untold recalls finds =>
    exact .looking cached untold (hheld ▸ recalls.agrees hagrees) (hheld ▸ finds)
  | fetching missed unanswered recalls =>
    exact .fetching (hmissed missed) unanswered (hheld ▸ recalls.agrees hagrees)
  | filling missed delivered normal retains form recalls filling =>
    exact .filling (hmissed missed) delivered normal retains form (recalls.agrees hagrees) filling.wait
  | deleting recalls sweeps deletion clearing =>
    exact .deleting (recalls.agrees hagrees) sweeps deletion (clearing.wait dependable)
  | sweeping recalls sweeps deletion clearing =>
    exact .sweeping (recalls.agrees hagrees) sweeps deletion (clearing.wait dependable)

theorem Replaying.wait (h : Replaying c format log w) (nanos : Nat)
    (led : Led ({ w with now := w.now + nanos } : World ρ σ)) :
    Replaying c format log { w with now := w.now + nanos } := by
  have hagrees : ∀ i, Agrees log w log { w with now := w.now + nanos } i :=
    fun _ => ⟨fun _ _ => Iff.rfl, fun _ _ => rfl⟩
  refine ⟨h.level, h.waits, h.back, h.grows, h.dependable, led, h.calls, h.known, fun hall => ?_, ?_,
    ?_⟩
  · exact ((h.resting hall).agrees (hagrees _)).congr fun _ _ => MapMedium.timeless_iff h.dependable
  · intro n other found hwaits
    obtain ⟨hlast, hstanding⟩ := h.working n other found hwaits
    exact ⟨hlast, hstanding.wait h.dependable nanos⟩
  · intro i query answer hread cached
    exact (h.settled i query answer hread cached).agrees (hagrees _)

end

/-! ## Runs -/

section

variable [Medium σ] [LawfulMedium σ] [MapMedium σ] {c : Cache} {format : RowFormat ρ}
  {log : List (Event ρ)} {w w' : World ρ σ} {action : Action ρ σ} {i : ActivityId} {query : Query}
  {result : Option (ResultSet ρ)} {stage : ReadStage ρ}

/-- The read can go on to its end, asks the data source neither before nor then, and returns this. -/
def Finishes (format : RowFormat ρ) (log : List (Event ρ)) (w : World ρ σ) (i : ActivityId)
    (query : Query) (result : Option (ResultSet ρ)) : Prop :=
  ∃ later w', Runs (Serial format) w later w' ∧ (∀ asked, .asked i asked ∉ log ++ later) ∧
    w'.Reads i query format (.ended (.returned (.ok result)))

theorem Finishes.of_ended {answer : Answer ρ} (h : Replaying c format log w)
    (read : w.Reads i query format (.ended answer)) (cached : c.config.caches query.table)
    (remembered : Remembered c format log w i query result) : Finishes format log w i query result := by
  have hsettled := h.settled i query answer read cached
  obtain rfl := hsettled.returned result remembered
  exact ⟨[], w, .refl, by simpa using hsettled.unasked_iff.mpr ⟨result, remembered⟩, read⟩

variable [ExactMedium σ]

theorem Replaying.step (h : Replaying c format log w) (serial : Serial format w action)
    (acts : w.act? action = some w') :
    Replaying c format (log ++ w.events w' action) w' := by
  have hled := (act?_flightStep acts).led h.led
  obtain ⟨⟨-, hawaits⟩, hreplayable⟩ := serial
  cases action with
  | move move =>
    obtain ⟨activity, step, found, taken, rfl⟩ := act?_move_iff.mp acts
    obtain ⟨hdependable, hcomes⟩ := h.comesTo found taken hreplayable
    exact h.of_comesTo found taken hdependable hcomes
  | forget | disturb => exact hreplayable.elim
  | wait nanos =>
    obtain rfl := Option.some.inj acts
    exact (List.append_nil log).symm ▸ h.wait nanos hled
  | read | change | request =>
    obtain rfl := Option.some.inj acts
    exact (List.append_nil log).symm ▸ h.of_enter rfl rfl hreplayable (hawaits rfl) hled

theorem Replaying.run {later : List (Event ρ)} (h : Replaying c format log w)
    (run : Runs (Serial format) w later w') :
    Replaying c format (log ++ later) w' := by
  induction run with
  | refl => exact (List.append_nil log).symm ▸ h
  | step action _ admitted acts ih =>
    rw [← List.append_assoc]
    exact ih.step admitted acts

/-! ## The end of a search -/

theorem Finishes.of_go {step : ActivityStep ρ σ} (h : Replaying c format log w)
    (read : w.Reads i query format stage) (remembered : Remembered c format log w i query result)
    (taken : Activity.goRead? w.now w.node.cache w.store query format stage = some step)
    (next : ∀ (log' : List (Event ρ)) (w' : World ρ σ), Replaying c format log' w' →
      Remembered c format log' w' i query result →
      w'.node.activities[i]? = some step.activity → Finishes format log' w' i query result) :
    Finishes format log w i query result := by
  have hacts : w.act? (.move (.go i)) = some (w.after i step) :=
    act?_move_iff.mpr ⟨_, step, read, taken, rfl⟩
  have hserial : Serial format w (.move (.go i)) := by
    refine ⟨⟨⟨rfl, fun activity found => ?_⟩, fun starts => by cases starts⟩, fun _ => by simp⟩
    obtain rfl := Option.some.inj (read.symm.trans found)
    exact .inl rfl
  have hfound : w.node.activities[(Move.go i : Move ρ).activity]? = some (.read query format stage) :=
    read
  have hagrees := agrees_of_move log hfound step
  obtain ⟨later, w', hrun, hunasked, hread⟩ := next _ _ (h.step hserial hacts)
    (remembered.agrees hagrees) (after_activities_mover read step)
  refine ⟨_, w', (Runs.single hserial hacts).trans hrun, ?_, hread⟩
  rwa [← List.append_assoc]

theorem Finishes.of_reply {flight : FlightId} {reply : Reply .text} (h : Replaying c format log w)
    (free : ColonFree query.table)
    (read : w.Reads i query format (.awaitingSearch flight (.answered reply)))
    (cached : c.config.caches query.table) (remembered : Remembered c format log w i query result) :
    Finishes format log w i query result := by
  obtain ⟨-, hstanding⟩ := h.working i _ read rfl
  obtain ⟨value, hform⟩ := remembered.stored
  cases hstanding with
  | ready new => cases new
  | looking _ _ recalls finds =>
    -- the store holds the form of what is remembered, and a map has no other reply
    have held := (recalls query value free cached).mpr ⟨result, remembered, hform⟩
    obtain rfl : reply = .ok value := by
      rcases finds with hasked | ⟨value', hreply, held'⟩ | ⟨failure, -, hnone⟩
      · cases hasked
      · rw [Operation.answered.inj hreply, MapMedium.unique h.dependable held' held]
      · exact absurd held (hnone value)
    refine .of_go h read remembered rfl fun log' w' hafter hremembered hread => ?_
    have hended : w'.Reads i query format (.ended (.returned (.ok result))) := by
      rw [Reads, hread, ← (Read.afterSearch_stored w.node.cache query flight h.back hform).1]
      rfl
    exact .of_ended hafter hended cached hremembered

theorem Finishes.of_looking {flight : FlightId} {operation : Operation .text}
    (h : Replaying c format log w) (free : ColonFree query.table)
    (read : w.Reads i query format (.awaitingSearch flight operation))
    (cached : c.config.caches query.table) (remembered : Remembered c format log w i query result) :
    Finishes format log w i query result := by
  obtain ⟨-, hstanding⟩ := h.working i _ read rfl
  cases hstanding with
  | ready new => cases new
  | looking _ _ _ finds =>
    rcases finds with rfl | hanswered
    · obtain ⟨next, hnext, hfound⟩ := MapMedium.get h.dependable w.now (c.resultKey query)
      have htaken := congrArg (Option.map fun taken : StoreStep σ .text =>
        ({ cache := w.node.cache
           store := taken.store
           activity := .read query format (.awaitingSearch flight taken.operation)
           notices := taken.notices } : ActivityStep ρ σ)) hnext
      refine .of_go h read remembered htaken fun log' w' hafter hremembered hread => ?_
      obtain ⟨reply, hreply⟩ := hfound.answered
      dsimp only at hread
      rw [hreply] at hread
      exact .of_reply hafter free hread cached hremembered
    · obtain ⟨reply, rfl⟩ := hanswered.answered
      exact .of_reply h free read cached remembered

/-- A read of a search that is remembered finishes, wherever it stands. -/
theorem Replaying.finishes (h : Replaying c format log w)
    (read : w.Reads i query format stage) (cached : c.config.caches query.table)
    (remembered : Remembered c format log w i query result) : Finishes format log w i query result := by
  obtain ⟨-, free, plain⟩ := h.calls _ (List.mem_of_getElem? read)
  cases hreturned : hasReturned (.read query format stage) with
  | true =>
    cases stage with
    | ended answer => exact .of_ended h read cached remembered
    | _ => cases hreturned
  | false =>
    obtain ⟨-, hstanding⟩ := h.working i _ read hreturned
    cases hstanding with
    | ready new =>
      obtain ⟨-, -, rfl⟩ := Activity.read.inj new
      have hlevel : w.node.cache.config.level.cachesSearches := h.grows.config ▸ h.level
      have hcached : w.node.cache.config.caches query.table := h.grows.config ▸ cached
      obtain ⟨flight, hstage, -⟩ := Read.start_cached hcached hlevel plain
        (h.free read new hreturned query.flightName)
      refine .of_go h read remembered rfl fun log' w' hafter hremembered hread => ?_
      have hlooks := hread.trans (congrArg (some ∘ Activity.read query format) hstage)
      exact .of_looking hafter free hlooks cached hremembered
    | looking => exact .of_looking h free read cached remembered
    | bypassing uncached => exact absurd cached (by simp [uncached])
    -- a read past its lookup has found that nothing is remembered
    | fetching missed | filling missed => exact absurd remembered (missed.unknown result)

/-- Calls are made one after another, over a store that behaves like a map and holds no search to begin
with. A read of a cached table that has ended has asked the data source and returned what it fetched,
unless a result of its search was remembered: then it returned this result. And wherever a read stands
whose search is remembered, it can go on and returns the result, without asking. -/
theorem search_replays_last_cacheable_outcome (new : w.IsNew)
    (dependable : MapMedium.Dependable w.store)
    (vacant : ∀ query value, ¬ w.Holds (w.node.cache.resultKey query) value)
    (waits : w.node.cache.config.detachesUpkeep = false)
    (level : w.node.cache.config.level.cachesSearches) (back : ∀ rows, format.ReadsBack rows)
    (run : Runs (Serial format) w log w') (read : w'.Reads i query format stage)
    (cached : w.node.cache.config.caches query.table) :
    (∀ answer, stage = .ended answer →
      ((∀ asked, .asked i asked ∉ log) ↔
        ∃ result, Remembered w.node.cache format log w' i query result) ∧
      (∀ result, Remembered w.node.cache format log w' i query result →
        answer = .returned (.ok result)) ∧
      ∀ fetched, .delivered i query format (.answered fetched) ∈ log →
        answer = .returned (.ok (query.shape.normalize fetched))) ∧
      ∀ result, Remembered w.node.cache format log w' i query result →
        ∃ later last, Runs (Serial format) w' later last ∧ (∀ asked, .asked i asked ∉ log ++ later) ∧
          last.Reads i query format (.ended (.returned (.ok result))) := by
  have hreplaying : Replaying w.node.cache format log w' :=
    (Replaying.of_new level waits back new dependable vacant).run run
  constructor
  · rintro answer rfl
    obtain ⟨hunasked, hreturned, hfetched⟩ := hreplaying.settled i query answer read cached
    exact ⟨hunasked, hreturned, hfetched⟩
  · intro result remembered
    exact hreplaying.finishes read cached remembered

end

/-- A read fetches two bits, the table changes in no row, another table is swept, and the table is read
again. -/
def replayedCalls : List (Action Bool RecordingStore) :=
  [.read usersRead bits, .move (.go 0), .move (.go 0), .move (.go 0),
    .move (.deliver 0 (.answered (some (.many [true, false])))), .move (.goJob 0 0),
    .move (.goJob 0 0), .move (.go 0), .change { usersChange with rowsAffected := 0 },
    .move (.go 1), .request (.invalidateSearches "posts"), .move (.go 2), .move (.go 2),
    .move (.go 2), .read usersRead bits, .move (.go 3), .move (.go 3), .move (.go 3)]

theorem replayedCalls_replayable : ∀ action ∈ replayedCalls, action.Replayable bits := by
  have hplain : (Activity.ofQuery usersRead bits).Replayable bits := ⟨rfl, by decide, rfl⟩
  have hchange : ColonFree usersChange.table := by decide
  have hswept : ColonFree "posts" := by decide
  simp only [replayedCalls, List.forall_mem_cons]
  exact ⟨hplain, by simp [Action.Replayable], by simp [Action.Replayable], by simp [Action.Replayable],
    by simp [Action.Replayable], by simp [Action.Replayable], by simp [Action.Replayable],
    by simp [Action.Replayable], hchange, by simp [Action.Replayable], hswept,
    by simp [Action.Replayable], by simp [Action.Replayable], by simp [Action.Replayable], hplain,
    by simp [Action.Replayable], by simp [Action.Replayable], by simp [Action.Replayable], by simp⟩

theorem bits_replayed_after_changeless_calls :
    ∃ (w : World Bool RecordingStore) (log : List (Event Bool)),
      bitsAtRest.IsNew ∧ MapMedium.Dependable bitsAtRest.store ∧
      (∀ query value, ¬ bitsAtRest.Holds (bitsAtRest.node.cache.resultKey query) value) ∧
      bitsAtRest.node.cache.config.detachesUpkeep = false ∧
      bitsAtRest.node.cache.config.level.cachesSearches ∧ (∀ rows, bits.ReadsBack rows) ∧
      Runs (Serial bits) bitsAtRest log w ∧
      w.Reads 3 usersRead bits (.ended (.returned (.ok (some (.many [true, false]))))) ∧
      bitsAtRest.node.cache.config.caches usersRead.table ∧ (∀ asked, .asked 3 asked ∉ log) ∧
      Remembered bitsAtRest.node.cache bits log w 3 usersRead (some (.many [true, false])) := by
  have hrun : (bitsAtRest.perform? Sequential replayedCalls).map
        (fun last => (last.1.node.activities[3]?, last.2)) =
      some (some (returnedBits usersRead (some (.many [true, false]))),
        [.joined 0 usersRead (.leader 0), .asked 0 usersRead,
          .delivered 0 usersRead bits (.answered (some (.many [true, false]))),
          .joined 3 usersRead (.leader 1)]) := by cbv
  obtain ⟨⟨w, log⟩, hlast, hfacts⟩ := Option.map_eq_some_iff.mp hrun
  obtain ⟨hread, hlog⟩ := Prod.mk.inj hfacts
  have run : Runs (Serial bits) bitsAtRest log w := .of_perform?_each hlast replayedCalls_replayable
  have read : w.Reads 3 usersRead bits (.ended (.returned (.ok (some (.many [true, false]))))) := hread
  have dependable : MapMedium.Dependable bitsAtRest.store := ⟨fun method => rfl, rfl⟩
  have hunasked : ∀ asked, .asked 3 asked ∉ log := by
    simp only at hlog
    simp [hlog]
  have hends := (search_replays_last_cacheable_outcome bitsAtRest_isNew dependable
    (fun query value => bitsAtRest_holds_nothing _ _) rfl rfl bits_readsBack run read rfl).1 _ rfl
  obtain ⟨result, hremembered⟩ := hends.1.mp hunasked
  obtain rfl : some (.many [true, false]) = result := by simpa using hends.2.1 result hremembered
  exact ⟨w, log, bitsAtRest_isNew, dependable, fun query value => bitsAtRest_holds_nothing _ _, rfl, rfl,
    bits_readsBack, run, read, rfl, hunasked, hremembered⟩

end World

end ReadThrough
