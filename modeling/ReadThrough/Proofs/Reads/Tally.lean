import ReadThrough.Proofs.Reads.Coalescing
import ReadThrough.Proofs.Reads.Counting

/-! # What the counters show

Over any run, the counters have gone up by the questions that reads on cached tables asked the data source,
and by the reads on cached tables that returned and never asked.

* `World.Asked` says how often each read has asked, in any run;
* `World.Counting` is the balance of the counters since a start, in runs without resets;
* `World.counters_count_each_read_once` says what the counters show since they stood at zero.
-/

namespace ReadThrough
set_option autoImplicit false

variable {ρ σ : Type}

/-! ## What a step counts -/

namespace World

/-- The action is the first turn of a reset, which zeroes the counters. -/
def resets (w : World ρ σ) : Action ρ σ → Bool
  | .move (.go i) =>
    match w.node.activities[i]? with
    | some (.request .reset .ready) => true
    | _ => false
  | _ => false

/-- A read takes a turn in a step. -/
structure TakesTurn (w : World ρ σ) (move : Move ρ) (query : Query) (format : RowFormat ρ)
    (before : ReadStage ρ) (turn : Turn (ReadStage ρ)) (w' : World ρ σ) : Prop where
  was : w.Reads move.activity query format before
  is : w'.Reads move.activity query format turn.stage
  others : KeepsReads (· = move.activity) w w'
  counts : Read.Counts w.node.cache query turn before.phase
  counters : w'.node.cache.counters = turn.cache.counters
  events : w.events w' (.move move) = move.events query format before turn.stage turn.fetches

/-- No read takes a turn in a step. -/
structure TakesNone (w : World ρ σ) (action : Action ρ σ) (w' : World ρ σ) : Prop where
  events : w.events w' action = []
  reads : KeepsReads (fun _ => False) w w'
  counters : w.resets action = false → w'.node.cache.counters = w.node.cache.counters

variable [Medium σ] {w w' : World ρ σ} {action : Action ρ σ}

omit [Medium σ] in
theorem counters_of_prepare {kind : ReplyKind} {c : Cache} {asked : Request kind} {i : ActivityId}
    (found : w.node.activities[i]? = some (.request asked .ready))
    (kept : w.resets (.move (.go i)) = false) : (c.prepare asked).1.counters = c.counters := by
  cases asked with
  | reset => simp [resets, found] at kept
  | putUniques table index rows =>
    simp only [Cache.prepare, Cache.learnIndexes]
    split <;> rfl
  | _ => rfl

theorem counters_of_other {move : Move ρ} {activity : Activity ρ} {step : ActivityStep ρ σ}
    (found : w.node.activities[move.activity]? = some activity)
    (taken : activity.move? w.now w.node.cache w.store move = some step)
    (other : activity.isRead = false) (kept : w.resets (.move move) = false) :
    step.cache.counters = w.node.cache.counters := by
  cases move with
  | goJob | deliver | abort => rw [cache_of_not_go taken other (by simp)]
  | go i =>
    cases activity with
    | read => cases other
    | job run =>
      obtain ⟨moved, -, rfl⟩ := Option.map_eq_some_iff.mp taken
      rfl
    | change event stage =>
      cases stage with
      | ready =>
        obtain rfl := Option.some.inj taken
        simp only [Activity.ofInvalidationTurn, Invalidation.start]
        split
        · split
          · rfl
          · split <;> rfl
        · rfl
      | deleting jobs =>
        simp only [Activity.move?, Activity.go?, Activity.goInvalidation?] at taken
        split at taken
        · obtain rfl := Option.some.inj taken
          rfl
        · cases taken
      | ended | aborted => cases taken
    | request asked stage =>
      cases stage with
      | ready =>
        obtain rfl := Option.some.inj taken
        exact counters_of_prepare found kept
      | waiting operation =>
        cases operation with
        | answered reply =>
          obtain rfl := Option.some.inj taken
          rfl
        | _ =>
          obtain ⟨moved, -, rfl⟩ := Option.map_eq_some_iff.mp taken
          rfl
      | ended | aborted => cases taken

theorem takesTurn_of_read {move : Move ρ} {query : Query} {format : RowFormat ρ}
    {before : ReadStage ρ} (was : w.Reads move.activity query format before)
    (acts : w.act? (.move move) = some w') :
    ∃ turn, w.TakesTurn move query format before turn w' := by
  obtain ⟨activity, step, found, taken, rfl⟩ := act?_move_iff.mp acts
  obtain rfl := Option.some.inj (was.symm.trans found)
  obtain ⟨turn, hgoes, hstep⟩ := Activity.move?_goes taken
  have hactivity : step.activity = .read query format turn.stage := by rw [hstep]; rfl
  refine ⟨turn, was, ?_, keepsReads_after w _ _, hgoes.counts, ?_, ?_⟩
  · exact (after_activities_mover was step).trans (congrArg some hactivity)
  · show step.cache.counters = _
    rw [hstep]
    rfl
  · rw [events_after was hactivity, hstep]
    rfl

theorem act?_counts (acts : w.act? action = some w') :
    (∃ move query format before turn, action = .move move ∧
      w.TakesTurn move query format before turn w') ∨ w.TakesNone action w' := by
  by_cases hread : ∃ move query format before, action = .move move ∧
      w.Reads move.activity query format before
  · obtain ⟨move, query, format, before, rfl, was⟩ := hread
    obtain ⟨turn, hturn⟩ := takesTurn_of_read was acts
    exact .inl ⟨move, query, format, before, turn, rfl, hturn⟩
  · rcases act?_cases acts with ⟨move, query, format, before, step, rfl, was, -⟩ | ⟨hnone, haside⟩
    · exact absurd ⟨move, query, format, before, rfl, was⟩ hread
    · refine .inr ⟨hnone, haside.reads, fun kept => ?_⟩
      cases action with
      | move move =>
        obtain ⟨activity, step, found, taken, rfl⟩ := act?_move_iff.mp acts
        refine counters_of_other found taken ?_ kept
        cases activity with
        | read query format before => exact absurd ⟨move, query, format, before, rfl, found⟩ hread
        | change | job | request => rfl
      | _ =>
        obtain rfl := Option.some.inj acts
        rfl

/-! ## How often reads have asked -/

/-- Every read has asked as often as its phase allows; nobody else has. -/
structure Asked (log : List (Event ρ)) (w : World ρ σ) : Prop where
  reads : ∀ i query format stage, w.Reads i query format stage →
    stage.phase.Allows (w.node.cache.config.caches query.table) (asksOf log i)
  others : ∀ i, (∀ query format stage, ¬ w.Reads i query format stage) → asksOf log i = 0

omit [Medium σ] in
theorem Asked.of_new (new : w.IsNew) : Asked [] w :=
  ⟨fun i query format stage hread => absurd hread (new.not_reads i query format stage), fun _ _ => rfl⟩

omit [Medium σ] in
theorem Asked.le_one {log : List (Event ρ)} (h : Asked log w) (i : ActivityId) : asksOf log i ≤ 1 := by
  by_cases hread : ∃ query format stage, w.Reads i query format stage
  · obtain ⟨query, format, stage, hread⟩ := hread
    exact (h.reads i query format stage hread).le_one
  · have hnone : asksOf log i = 0 :=
      h.others i fun query format stage h => hread ⟨query, format, stage, h⟩
    omega

omit [Medium σ] in
/-- A read that did not take part in a step was there before, or is new. -/
theorem Asked.of_keepsReads {log : List (Event ρ)} {except : ActivityId → Prop} (h : Asked log w)
    (reads : KeepsReads except w w') {i : ActivityId} (other : ¬ except i)
    (config : w'.node.cache.config = w.node.cache.config) :
    (∀ query format stage, w'.Reads i query format stage →
      stage.phase.Allows (w'.node.cache.config.caches query.table) (asksOf log i)) ∧
    ((∀ query format stage, ¬ w'.Reads i query format stage) → asksOf log i = 0) := by
  constructor
  · intro query format stage hread
    rw [config]
    rcases reads.old i query format stage other hread with hold | ⟨rfl, hnew⟩
    · exact h.reads i query format stage hold
    · apply h.others i
      intro query' format' stage' hthere
      cases hnew.symm.trans hthere
  · intro hnone
    apply h.others i
    intro query format stage hread
    exact hnone query format stage (reads.kept i query format stage other hread)

theorem Asked.step {log : List (Event ρ)} (h : Asked log w) (acts : w.act? action = some w') :
    Asked (log ++ w.events w' action) w' := by
  have hconfig := (act?_grows acts).config
  rcases act?_counts acts with ⟨move, query, format, before, turn, rfl, hturn⟩ | hnone
  · have hasks : ∀ i, asksOf (log ++ w.events w' (.move move)) i =
        asksOf log i + if move.activity = i then turn.fetches.toNat else 0 := by
      intro i
      rw [hturn.events, asksOf_append, asksOf_events]
    constructor
    · intro i query' format' stage hread
      by_cases hi : move.activity = i
      · subst hi
        obtain ⟨rfl, rfl, rfl⟩ := hturn.is.inj hread
        rw [hasks, if_pos rfl, hconfig]
        exact hturn.counts.allows (h.reads _ query format before hturn.was)
      · rw [hasks, if_neg hi, Nat.add_zero]
        exact (h.of_keepsReads hturn.others (Ne.symm hi) hconfig).1 query' format' stage hread
    · intro i hother
      have hi : move.activity ≠ i := by
        rintro rfl
        exact hother query format turn.stage hturn.is
      rw [hasks, if_neg hi, Nat.add_zero]
      exact (h.of_keepsReads hturn.others (Ne.symm hi) hconfig).2 hother
  · rw [hnone.events, List.append_nil]
    exact ⟨fun i => (h.of_keepsReads hnone.reads not_false hconfig).1,
      fun i => (h.of_keepsReads hnone.reads not_false hconfig).2⟩

theorem Asked.run {admits : World ρ σ → Action ρ σ → Prop} {log events : List (Event ρ)}
    (h : Asked log w) (run : Runs admits w events w') : Asked (log ++ events) w' := by
  induction run with
  | refl => rwa [List.append_nil]
  | step action _ _ acts ih =>
    rw [← List.append_assoc]
    exact ih.step acts

/-! ## Which reads were served -/

/-- The activity of this number is a read on a cached table that has returned. -/
def answered (w : World ρ σ) (i : ActivityId) : Bool :=
  match w.node.activities[i]? with
  | some (.read query _ stage) =>
    w.node.cache.config.caches query.table && decide (stage.phase = .returned)
  | _ => false

/-- The reads on cached tables that have returned since a start, and by these events never asked the data
source. -/
def served (w : World ρ σ) (start : World ρ σ) (log : List (Event ρ)) : Finset ActivityId :=
  (Finset.range w.node.activities.length).filter fun i =>
    w.answered i = true ∧ start.answered i = false ∧ asksOf log i = 0

section

omit [Medium σ]

theorem answered_iff {i : ActivityId} : w.answered i = true ↔
    ∃ query format stage, w.Reads i query format stage ∧
      w.node.cache.config.caches query.table = true ∧ stage.phase = .returned := by
  constructor
  · intro h
    unfold answered at h
    split at h
    · rename_i query format stage hread
      obtain ⟨hcached, hreturned⟩ := Bool.and_eq_true_iff.mp h
      exact ⟨query, format, stage, hread, hcached, of_decide_eq_true hreturned⟩
    · cases h
  · intro ⟨query, format, stage, hread, hcached, hreturned⟩
    have found : w.node.activities[i]? = some (.read query format stage) := hread
    simp [answered, found, hcached, hreturned]

theorem answered_of_reads {i : ActivityId} {query : Query} {format : RowFormat ρ} {stage : ReadStage ρ}
    (h : w.Reads i query format stage) : w.answered i = true ↔
      w.node.cache.config.caches query.table = true ∧ stage.phase = .returned := by
  rw [answered_iff]
  constructor
  · intro ⟨query', format', stage', h', hcached, hreturned⟩
    obtain ⟨rfl, rfl, rfl⟩ := h.inj h'
    exact ⟨hcached, hreturned⟩
  · intro ⟨hcached, hreturned⟩
    exact ⟨query, format, stage, h, hcached, hreturned⟩

theorem mem_served {start : World ρ σ} {log : List (Event ρ)} {i : ActivityId} :
    i ∈ w.served start log ↔
      w.answered i = true ∧ start.answered i = false ∧ asksOf log i = 0 := by
  rw [served, Finset.mem_filter, Finset.mem_range, and_iff_right_iff_imp]
  intro h
  obtain ⟨query, format, stage, hread, -⟩ := answered_iff.mp h.1
  exact (List.getElem?_eq_some_iff.mp hread).1

/-- Whether a read has returned does not change in a step of another. -/
theorem KeepsReads.answered {except : ActivityId → Prop} (reads : KeepsReads except w w')
    (config : w'.node.cache.config = w.node.cache.config) {i : ActivityId} (other : ¬ except i) :
    w'.answered i = w.answered i := by
  rw [Bool.eq_iff_iff, answered_iff, answered_iff, config]
  constructor
  · intro ⟨query, format, stage, hread, hcached, hreturned⟩
    rcases reads.old i query format stage other hread with hold | ⟨rfl, -⟩
    · exact ⟨query, format, stage, hold, hcached, hreturned⟩
    · cases hreturned
  · intro ⟨query, format, stage, hread, hcached, hreturned⟩
    exact ⟨query, format, stage, reads.kept i query format stage other hread, hcached, hreturned⟩

end

/-! ## The balance of the counters -/

/-- The counters have gone up by the misses among the events since the start, and by the reads served
since then; `before` are the events that led to the start. -/
structure Counting (start : World ρ σ) (before log : List (Event ρ)) (w : World ρ σ) : Prop where
  config : w.node.cache.config = start.node.cache.config
  asked : Asked (before ++ log) w
  kept : ∀ i, start.answered i = true → w.answered i = true
  misses : w.node.cache.counters.misses = start.node.cache.counters.misses +
    (log.countP (Event.isMiss start.node.cache.config)).toUInt64
  hits : w.node.cache.counters.hits = start.node.cache.counters.hits +
    (w.served start (before ++ log)).card.toUInt64

omit [Medium σ] in
theorem Counting.of_start {start : World ρ σ} {before : List (Event ρ)} (asked : Asked before start) :
    Counting start before [] start := by
  have hnone : start.served start (before ++ []) = ∅ := by
    apply Finset.eq_empty_of_forall_notMem
    intro i hserved
    obtain ⟨hnow, hthen, -⟩ := mem_served.mp hserved
    cases hnow.symm.trans hthen
  refine ⟨rfl, by rwa [List.append_nil], fun _ => id, ?_, ?_⟩
  · simp
  · rw [hnone]
    simp

omit [Medium σ] in
/-- A turn of a read serves the read itself, if it then has returned and never asked for a cached
table. -/
theorem TakesTurn.card_served {move : Move ρ} {query : Query} {format : RowFormat ρ}
    {before : ReadStage ρ} {turn : Turn (ReadStage ρ)} {start : World ρ σ} {log : List (Event ρ)}
    (h : w.TakesTurn move query format before turn w')
    (config : w'.node.cache.config = w.node.cache.config)
    (kept : ∀ i, start.answered i = true → w.answered i = true) :
    (w'.served start (log ++ w.events w' (.move move))).card = (w.served start log).card +
      (decide (turn.stage.phase = .returned ∧ w.node.cache.config.caches query.table = true ∧
        asksOf log move.activity + turn.fetches.toNat = 0)).toNat := by
  have hasks : ∀ i, asksOf (log ++ w.events w' (.move move)) i =
      asksOf log i + if move.activity = i then turn.fetches.toNat else 0 := by
    intro i
    rw [h.events, asksOf_append, asksOf_events]
  have hothers : ∀ i, i ≠ move.activity →
      (i ∈ w'.served start (log ++ w.events w' (.move move)) ↔ i ∈ w.served start log) := by
    intro i hi
    rw [mem_served, mem_served, h.others.answered config hi, hasks, if_neg (Ne.symm hi), Nat.add_zero]
  have hbefore : w.answered move.activity = false := by
    apply Bool.eq_false_iff.mpr
    intro hanswered
    exact h.counts.unreturned ((answered_of_reads h.was).mp hanswered).2
  have hthen : start.answered move.activity = false := by
    apply Bool.eq_false_iff.mpr
    intro hanswered
    cases hbefore.symm.trans (kept _ hanswered)
  have hout : move.activity ∉ w.served start log := by
    intro hserved
    cases hbefore.symm.trans (mem_served.mp hserved).1
  have hmover : move.activity ∈ w'.served start (log ++ w.events w' (.move move)) ↔
      turn.stage.phase = .returned ∧ w.node.cache.config.caches query.table = true ∧
        asksOf log move.activity + turn.fetches.toNat = 0 := by
    rw [mem_served, answered_of_reads h.is, hasks, if_pos rfl, config]
    simp [hthen, and_assoc, and_left_comm]
  by_cases hserves : turn.stage.phase = .returned ∧
      w.node.cache.config.caches query.table = true ∧
        asksOf log move.activity + turn.fetches.toNat = 0
  · have hinsert : w'.served start (log ++ w.events w' (.move move)) =
        insert move.activity (w.served start log) := by
      ext i
      by_cases hi : i = move.activity
      · subst hi
        simp [hmover.mpr hserves]
      · simp [hothers i hi, hi]
    rw [hinsert, Finset.card_insert_of_notMem hout, decide_eq_true hserves]
    rfl
  · have hsame : w'.served start (log ++ w.events w' (.move move)) = w.served start log := by
      ext i
      by_cases hi : i = move.activity
      · subst hi
        simp only [hmover, hserves, hout]
      · exact hothers i hi
    rw [hsame, decide_eq_false hserves]
    rfl

theorem Counting.step {start : World ρ σ} {before log : List (Event ρ)}
    (h : Counting start before log w) (kept : w.resets action = false)
    (acts : w.act? action = some w') : Counting start before (log ++ w.events w' action) w' := by
  have hconfig := (act?_grows acts).config
  have hasked : Asked (before ++ (log ++ w.events w' action)) w' := by
    rw [← List.append_assoc]
    exact h.asked.step acts
  have hanswered : ∀ i, start.answered i = true → w'.answered i = true := by
    intro i hstart
    obtain ⟨query, format, stage, hread, hcached, hreturned⟩ := answered_iff.mp (h.kept i hstart)
    cases stage with
    | ended answer =>
      have hthere := (act?_flightStep acts).keeps_answer hread
      exact answered_iff.mpr ⟨query, format, _, hthere, hconfig ▸ hcached, hreturned⟩
    | _ => cases hreturned
  refine ⟨hconfig.trans h.config, hasked, hanswered, ?_, ?_⟩
  · rcases act?_counts acts with ⟨move, query, format, stage, turn, rfl, hturn⟩ | hnone
    · have hmisses := hturn.counts.misses (h.asked.reads _ _ _ _ hturn.was)
      rw [hturn.counters, hmisses, h.misses, hturn.events, List.countP_append, misses_events,
        ← h.config, Nat.toUInt64_eq, Nat.toUInt64_eq, Nat.toUInt64_eq, UInt64.ofNat_add, add_assoc]
    · rw [hnone.counters kept, hnone.events, List.append_nil, h.misses]
  · rcases act?_counts acts with ⟨move, query, format, stage, turn, rfl, hturn⟩ | hnone
    · have hhits := hturn.counts.hits (h.asked.reads _ _ _ _ hturn.was)
      rw [hturn.counters, hhits, h.hits, ← List.append_assoc, hturn.card_served hconfig h.kept,
        Nat.toUInt64_eq, Nat.toUInt64_eq, Nat.toUInt64_eq, UInt64.ofNat_add, add_assoc]
    · have hsame : w'.served start (before ++ log) = w.served start (before ++ log) := by
        ext i
        rw [mem_served, mem_served, hnone.reads.answered hconfig not_false]
      rw [hnone.counters kept, hnone.events, List.append_nil, h.hits, hsame]

theorem Counting.run {start : World ρ σ} {before log : List (Event ρ)} (asked : Asked before start)
    (run : Runs (fun w action => w.resets action = false) start log w) :
    Counting start before log w := by
  induction run with
  | refl => exact .of_start asked
  | step action _ kept acts ih => exact ih.step kept acts

/-! ## Reads that are over -/

theorem asksOf_events_of_ended {i : ActivityId} {query : Query} {format : RowFormat ρ}
    {answer : Answer ρ} (ended : w.Reads i query format (.ended answer))
    (acts : w.act? action = some w') : asksOf (w.events w' action) i = 0 := by
  rcases act?_cases acts with ⟨move, query', format', before, step, rfl, was, taken, rfl⟩ | ⟨hnone, -⟩
  · rw [asksOf_eq_zero_iff]
    intro asked hmem
    have hmover : move.activity = i := (reader_of_mem_events hmem).symm
    subst hmover
    obtain ⟨rfl, rfl, rfl⟩ := was.inj ended
    obtain ⟨turn, hgoes, -⟩ := Activity.move?_goes taken
    cases hgoes with
    | aborted active => cases active
  · rw [hnone]
    rfl

theorem ended_of_run {admits : World ρ σ → Action ρ σ → Prop} {log : List (Event ρ)} {i : ActivityId}
    {query : Query} {format : RowFormat ρ} {answer : Answer ρ}
    (ended : w.Reads i query format (.ended answer)) (run : Runs admits w log w') :
    w'.Reads i query format (.ended answer) ∧ asksOf log i = 0 := by
  induction run with
  | refl => exact ⟨ended, rfl⟩
  | step action _ _ acts ih =>
    obtain ⟨hended, hnone⟩ := ih
    refine ⟨(act?_flightStep acts).keeps_answer hended, ?_⟩
    rw [asksOf_append, hnone, asksOf_events_of_ended hended acts]

/-- A read that is broken off before it has asked never asks, and never returns. -/
theorem aborted_of_run {admits : World ρ σ → Action ρ σ → Prop} {log later : List (Event ρ)}
    {last : World ρ σ} {i : ActivityId} {query : Query} {format : RowFormat ρ} {stage : ReadStage ρ}
    (read : w.Reads i query format stage) (unasked : asksOf log i = 0)
    (abort : w.act? (.move (.abort i)) = some w') (run : Runs admits w' later last) :
    last.Reads i query format (.ended .aborted) ∧
      asksOf (log ++ w.events w' (.move (.abort i)) ++ later) i = 0 := by
  obtain ⟨activity, step, found, taken, rfl⟩ := act?_move_iff.mp abort
  obtain rfl := Option.some.inj (read.symm.trans found)
  have hactivity : step.activity = .read query format (.ended .aborted) ∧ step.fetches = false := by
    cases stage with
    | ended => cases taken
    | _ =>
      obtain rfl := Option.some.inj taken
      exact ⟨rfl, rfl⟩
  have hended : (w.after i step).Reads i query format (.ended .aborted) :=
    (after_activities_mover found step).trans (congrArg some hactivity.1)
  obtain ⟨hlast, hlater⟩ := ended_of_run hended run
  refine ⟨hlast, ?_⟩
  rw [asksOf_append, asksOf_append, unasked, hlater, events_after found hactivity.1, hactivity.2,
    asksOf_events]
  simp

/-! ## What the counters show -/

/-- The counters begin at zero: the cache is new, or a reset takes its first turn. -/
inductive Zeroes (w : World ρ σ) : World ρ σ → Prop
  | new (h : w.IsNew) : Zeroes w w
  | reset {called : Action ρ σ} {next : World ρ σ} (resets : w.resets called = true)
      (turn : w.act? called = some next) : Zeroes w next

omit [Medium σ] in
theorem of_resets (h : w.resets action = true) : ∃ i, action = .move (.go i) ∧
    w.node.activities[i]? = some (.request .reset .ready) := by
  unfold resets at h
  split at h
  · rename_i i
    split at h
    · rename_i found
      exact ⟨i, rfl, found⟩
    · cases h
  · cases h

theorem Zeroes.counters (h : Zeroes w w') : w'.node.cache.counters = {} := by
  cases h with
  | new new => exact new.counters
  | reset resets turn =>
    obtain ⟨i, rfl, found⟩ := of_resets resets
    obtain ⟨activity, step, found', taken, rfl⟩ := act?_move_iff.mp turn
    obtain rfl := Option.some.inj (found.symm.trans found')
    obtain rfl := Option.some.inj taken
    rfl

theorem Zeroes.asked {log : List (Event ρ)} (h : Zeroes w w') (asked : Asked log w) :
    Asked log w' := by
  cases h with
  | new => exact asked
  | reset resets turn =>
    obtain ⟨i, rfl, found⟩ := of_resets resets
    have hnone : w.events w' (.move (.go i)) = [] := events_of_other found rfl
    have hasked := asked.step turn
    rwa [hnone, List.append_nil] at hasked

/-- What the counters show, in words of 64 bits: `log` are the events since they stood at zero at the
start, `before` those until then. -/
structure ShowsCounts (start : World ρ σ) (before log : List (Event ρ)) (w : World ρ σ) : Prop where
  misses : w.node.cache.counters.misses =
    (log.countP (Event.isMiss w.node.cache.config)).toUInt64
  hits : w.node.cache.counters.hits = (w.served start (before ++ log)).card.toUInt64
  /-- No read asks twice, and no read that has asked is counted as a hit. -/
  once : ∀ i, asksOf (before ++ log) i ≤ 1
  apart : ∀ i query, .asked i query ∈ before ++ log → i ∉ w.served start (before ++ log)
  /-- Who waits for a flight or looks for entries has not asked, and if it is broken off it never asks and
  never returns. -/
  unasked : ∀ i query format stage, w.Reads i query format stage →
    stage.phase = .fresh ∨ stage.phase = .seeking → asksOf (before ++ log) i = 0
  aborted : ∀ i query format stage next last later, w.Reads i query format stage →
    stage.phase = .fresh ∨ stage.phase = .seeking → w.act? (.move (.abort i)) = some next →
    Runs Unrestricted next later last → last.Reads i query format (.ended .aborted) ∧
      asksOf (before ++ log ++ w.events next (.move (.abort i)) ++ later) i = 0

/-- In every run, since the counters stood at zero, misses are the questions that reads on cached tables
asked the data source, and hits are the reads on cached tables that returned and never asked. -/
theorem counters_count_each_read_once {origin start : World ρ σ} {before log : List (Event ρ)}
    (new : origin.IsNew) (earlier : Runs Unrestricted origin before w) (zeroed : w.Zeroes start)
    (later : Runs (fun w action => w.resets action = false) start log w') :
    ShowsCounts start before log w' := by
  have hasked : Asked before start := zeroed.asked ((Asked.of_new new).run earlier)
  have hcounting := Counting.run hasked later
  have hunasked : ∀ i query format stage, w'.Reads i query format stage →
      stage.phase = .fresh ∨ stage.phase = .seeking → asksOf (before ++ log) i = 0 := by
    intro i query format stage hread hphase
    have hallows := hcounting.asked.reads i query format stage hread
    rcases hphase with hphase | hphase
    · rw [hphase] at hallows
      exact hallows
    · rw [hphase] at hallows
      exact hallows.2
  refine ⟨?_, ?_, hcounting.asked.le_one, ?_, hunasked, ?_⟩
  · rw [hcounting.misses, zeroed.counters, hcounting.config]
    exact UInt64.zero_add _
  · rw [hcounting.hits, zeroed.counters]
    exact UInt64.zero_add _
  · intro i query hmem hserved
    exact asksOf_eq_zero_iff.mp (mem_served.mp hserved).2.2 query hmem
  · intro i query format stage next last events hread hphase habort hrun
    exact aborted_of_run hread (hunasked i query format stage hread hphase) habort hrun

def archiveRead : Query := { table := "archive", sql := "select" }

/-- A read has asked the data source, a second one follows it, and a reset has been called. -/
def readsBeforeReset : List (Action Row RecordingStore) :=
  [.read usersRead Row.integers, .move (.go 0), .move (.go 0), .move (.go 0),
    .read usersRead Row.integers, .move (.go 1), .request .reset]

/-- The first read returns what it fetched, then the second does; a third read, of another table, asks
the data source. -/
def readsAfterReset : List (Action Row RecordingStore) :=
  [.move (.deliver 0 (.answered (some (.one (.integer 5))))), .move (.goJob 0 0), .move (.goJob 0 0),
    .move (.goJob 0 1), .move (.goJob 0 1), .move (.go 0), .move (.go 1),
    .read archiveRead Row.integers, .move (.go 3), .move (.go 3), .move (.go 3)]

/-- The counters show the second read as a hit and the third as a miss; the first was counted before the
reset. -/
theorem second_read_hits_third_misses :
    ∃ (w start w' : World Row RecordingStore) (before log : List (Event Row)),
      atRest.IsNew ∧ Runs Unrestricted atRest before w ∧ w.Zeroes start ∧
      Runs (fun w action => w.resets action = false) start log w' ∧
      w.node.cache.counters = ⟨0, 1⟩ ∧ w'.node.cache.counters = ⟨1, 1⟩ ∧
      ShowsCounts start before log w' := by
  have hrun : ((atRest.perform? Unrestricted readsBeforeReset).bind fun first =>
      (first.1.act? (.move (.go 2))).bind fun start =>
        (start.perform? (fun w action => w.resets action = false) readsAfterReset).map fun second =>
          (first.1.node.cache.counters, first.1.resets (.move (.go 2)),
            second.1.node.cache.counters)) =
      some (⟨0, 1⟩, true, ⟨1, 1⟩) := by cbv
  obtain ⟨⟨w, before⟩, hfirst, hrest⟩ := Option.bind_eq_some_iff.mp hrun
  obtain ⟨start, hturn, hrest⟩ := Option.bind_eq_some_iff.mp hrest
  obtain ⟨⟨w', log⟩, hsecond, hfacts⟩ := Option.map_eq_some_iff.mp hrest
  simp only [Prod.mk.injEq] at hfacts
  obtain ⟨hbefore, hresets, hafter⟩ := hfacts
  have new : atRest.IsNew := ⟨⟨{}, "a", rfl⟩, rfl⟩
  have earlier : Runs Unrestricted atRest before w := .of_perform? hfirst
  have zeroed : w.Zeroes start := .reset hresets hturn
  have later : Runs (fun w action => w.resets action = false) start log w' := .of_perform? hsecond
  exact ⟨w, start, w', before, log, new, earlier, zeroed, later, hbefore, hafter,
    counters_count_each_read_once new earlier zeroed later⟩

end World

end ReadThrough
