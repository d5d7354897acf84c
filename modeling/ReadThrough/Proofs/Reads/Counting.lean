import ReadThrough.Proofs.Reads.Inversion

/-! # What turns count

A read on a cached table is counted once: as a miss when it asks the data source, or as a hit when it
returns without having asked.

* `Phase` is how far a read has come, as far as counting goes, and `Read.Counts` what its turns count;
* `asksOf` is how often a read has asked by the events so far, and `Phase.Allows` how often it may have.
-/

namespace ReadThrough
set_option autoImplicit false

variable {ρ σ : Type}

/-! ## Phases -/

/-- How far a read has come. -/
inductive Phase
  | fresh
  /-- It waits for a flight, or looks for entries. -/
  | seeking
  /-- It goes past the cache. -/
  | bypassing
  /-- It has asked the data source, and is going to keep the answer. -/
  | asking
  | returned
  | broken
deriving DecidableEq

def ReadStage.phase : ReadStage ρ → Phase
  | .ready => .fresh
  | .following _ | .awaitingPoints _ _ _ | .awaitingSearch _ _ => .seeking
  | .bypassing => .bypassing
  | .fetching _ | .filling _ _ _ _ => .asking
  | .ended (.returned _) => .returned
  | .ended .brokeDown | .ended .aborted => .broken

namespace Read

variable {c : Cache} {query : Query} {format : RowFormat ρ}

/-- What a turn of a read counts, and the phase that it leads to. -/
inductive Counts (c : Cache) (query : Query) (turn : Turn (ReadStage ρ)) : Phase → Prop
  | hit (counters : turn.cache.counters = c.counters.hit) (asks : turn.fetches = false)
      (after : turn.stage.phase = .returned) : Counts c query turn .seeking
  | miss {before} (counters : turn.cache.counters = c.counters.miss) (asks : turn.fetches = true)
      (after : turn.stage.phase = .asking)
      (seeks : before = .seeking ∨ before = .fresh ∧ c.config.caches query.table = true) :
    Counts c query turn before
  | bypass (counters : turn.cache.counters = c.counters) (asks : turn.fetches = true)
      (after : turn.stage.phase = .bypassing) (uncached : c.config.caches query.table = false) :
    Counts c query turn .fresh
  | seek {before} (counters : turn.cache.counters = c.counters) (asks : turn.fetches = false)
      (after : turn.stage.phase = .seeking)
      (seeks : before = .seeking ∨ before = .fresh ∧ c.config.caches query.table = true) :
    Counts c query turn before
  | goOn (counters : turn.cache.counters = c.counters) (asks : turn.fetches = false)
      (after : turn.stage.phase = .asking) : Counts c query turn .asking
  | finish {before} (counters : turn.cache.counters = c.counters) (asks : turn.fetches = false)
      (after : turn.stage.phase = .returned) (ends : before = .asking ∨ before = .bypassing) :
    Counts c query turn before
  | broke {before} (counters : turn.cache.counters = c.counters) (asks : turn.fetches = false)
      (after : turn.stage.phase = .broken) (active : before ≠ .returned) : Counts c query turn before

/-- A turn that looks a read up goes on looking, or asks the data source and counts a miss. -/
def Seeks (c : Cache) (query : Query) (turn : Turn (ReadStage ρ)) : Prop :=
  ∀ before, before = .seeking ∨ before = .fresh ∧ c.config.caches query.table = true →
    Counts c query turn before

theorem lookUpSearch_seeks (c : Cache) (query : Query) (flight : FlightId) (notices : List Notice) :
    Seeks c query (lookUpSearch c query flight notices : Turn (ReadStage ρ)) := by
  intro before seeks
  unfold lookUpSearch
  split
  · exact .seek rfl rfl rfl seeks
  · exact .miss rfl rfl rfl seeks

theorem lookUp_seeks (c : Cache) (query : Query) (flight : FlightId) (notices : List Notice) :
    Seeks c query (lookUp c query flight notices : Turn (ReadStage ρ)) := by
  intro before seeks
  unfold lookUp
  split
  · split
    · exact .seek rfl rfl rfl seeks
    · exact lookUpSearch_seeks c query flight notices before seeks
  · exact lookUpSearch_seeks c query flight notices before seeks

/-- Joining a flight changes nothing that is counted. -/
theorem Counts.of_flights {turn : Turn (ReadStage ρ)} {before : Phase} {flights : Flights Outcome}
    (h : Counts { c with flights := flights } query turn before) : Counts c query turn before := by
  cases h with
  | hit counters asks after => exact .hit counters asks after
  | miss counters asks after seeks => exact .miss counters asks after seeks
  | bypass counters asks after uncached => exact .bypass counters asks after uncached
  | seek counters asks after seeks => exact .seek counters asks after seeks
  | goOn counters asks after => exact .goOn counters asks after
  | finish counters asks after ends => exact .finish counters asks after ends
  | broke counters asks after active => exact .broke counters asks after active

theorem join_seeks (c : Cache) (query : Query) (notices : List Notice) :
    Seeks c query (join c query notices : Turn (ReadStage ρ)) := by
  intro before seeks
  unfold join
  split
  · exact .seek rfl rfl rfl seeks
  · exact .of_flights (lookUp_seeks _ query _ notices before seeks)

theorem start_counts (c : Cache) (query : Query) :
    Counts c query (start c query : Turn (ReadStage ρ)) .fresh := by
  unfold start
  split
  · rename_i hcached
    exact join_seeks c query [] .fresh (.inr ⟨rfl, hcached⟩)
  · rename_i huncached
    exact .bypass rfl rfl rfl (by simpa using huncached)

theorem afterFlight?_counts {flight : FlightId} {turn : Turn (ReadStage ρ)}
    (h : afterFlight? c query format flight = some turn) : Counts c query turn .seeking := by
  unfold afterFlight? at h
  split at h
  · obtain rfl := Option.some.inj h
    exact .hit rfl rfl rfl
  · obtain rfl := Option.some.inj h
    exact join_seeks c query _ .seeking (.inl rfl)
  · cases h
  · cases h

theorem afterPoints_counts (c : Cache) (query : Query) (format : RowFormat ρ) (flight : FlightId)
    (sought : List CompositeKey) (reply : Reply .slots) :
    Counts c query (afterPoints c query format flight sought reply) .seeking := by
  have hlooks := fun notices : List Notice =>
    lookUpSearch_seeks (ρ := ρ) c query flight notices .seeking (.inl rfl)
  unfold afterPoints
  split
  · exact .broke rfl rfl rfl (by simp)
  · exact hlooks _
  · split
    · exact hlooks _
    · split
      · exact hlooks _
      · exact .hit rfl rfl rfl

theorem afterSearch_counts (c : Cache) (query : Query) (format : RowFormat ρ) (flight : FlightId)
    (reply : Reply .text) : Counts c query (afterSearch c query format flight reply) .seeking := by
  have hmiss := fun notices : List Notice =>
    (.miss rfl rfl rfl (.inl rfl) : Counts c query (miss c query flight notices : Turn (ReadStage ρ)) .seeking)
  unfold afterSearch
  split
  · exact .broke rfl rfl rfl (by simp)
  · exact hmiss _
  · split
    · exact .hit rfl rfl rfl
    · split
      · exact hmiss _
      · split
        · exact hmiss _
        · exact .hit rfl rfl rfl

theorem keep_counts {plan : FillPlan} (counters : plan.cache.counters = c.counters)
    (flight : FlightId) (result : Option (ResultSet ρ)) (outcome : Outcome) :
    Counts c query (keep plan query flight result outcome) .asking := by
  unfold keep
  dsimp only
  split
  · exact .finish counters rfl rfl (.inl rfl)
  · split
    · exact .finish counters rfl rfl (.inl rfl)
    · exact .goOn counters rfl rfl

theorem rowsPlan_counters (c : Cache) (query : Query) (format : RowFormat ρ) (fetched : ResultSet ρ)
    (payload : String) : (rowsPlan c query format fetched payload).cache.counters = c.counters := by
  unfold rowsPlan
  split
  · dsimp only
    split
    · unfold Cache.learnIndexes
      split <;> rfl
    · rfl
  · rfl

theorem afterFetch_counts (c : Cache) (query : Query) (format : RowFormat ρ) (flight : FlightId)
    (outcome : FetchOutcome ρ) :
    Counts c query (afterFetch c query format flight outcome) .asking := by
  unfold afterFetch
  split
  · exact .broke rfl rfl rfl (by simp)
  · exact .finish rfl rfl rfl (.inl rfl)
  · split
    · exact keep_counts (congrArg Cache.counters (notFoundPlan_cache c query)) flight none _
    · split
      · exact .finish rfl rfl rfl (.inl rfl)
      · exact keep_counts (rowsPlan_counters c query format _ _) flight _ _

theorem afterBypass_counts (c : Cache) (query : Query) (outcome : FetchOutcome ρ) :
    Counts c query (afterBypass c outcome) .bypassing := by
  cases outcome with
  | brokeDown => exact .broke rfl rfl rfl (by simp)
  | failed | answered => exact .finish rfl rfl rfl (.inr rfl)

theorem Goes.counts [Medium σ] {now : Nat} {store : σ} {before : ReadStage ρ}
    {turn : Turn (ReadStage ρ)} (h : Goes now c store query format before turn) :
    Counts c query turn before.phase := by
  cases h with
  | start => exact start_counts c query
  | follow left => exact afterFlight?_counts left
  | points => exact afterPoints_counts c query format _ _ _
  | search => exact afterSearch_counts c query format _ _
  | pointsGoOn | searchGoesOn => exact .seek rfl rfl rfl (.inl rfl)
  | fetched => exact afterFetch_counts c query format _ _
  | bypassed => exact afterBypass_counts c query _
  | fillGoesOn => exact .goOn rfl rfl rfl
  | fillBroke => exact .broke rfl rfl rfl (by simp [ReadStage.phase])
  | filled => exact .finish rfl rfl rfl (.inl rfl)
  | aborted active =>
    refine .broke rfl rfl rfl ?_
    cases before with
    | ended => cases active
    | _ => simp [ReadStage.phase]

end Read

/-! ## How often a read asks -/

/-- The event is that the read of this number asked the data source. -/
def Event.isAskOf (i : ActivityId) : Event ρ → Bool
  | .asked reader _ => reader == i
  | _ => false

/-- The event is that a read on a cached table asked the data source. -/
def Event.isMiss (config : Configuration) : Event ρ → Bool
  | .asked _ query => config.caches query.table
  | _ => false

def asksOf (log : List (Event ρ)) (i : ActivityId) : Nat := log.countP (Event.isAskOf i)

theorem asksOf_append (log events : List (Event ρ)) (i : ActivityId) :
    asksOf (log ++ events) i = asksOf log i + asksOf events i :=
  List.countP_append

theorem asksOf_eq_zero_iff {log : List (Event ρ)} {i : ActivityId} :
    asksOf log i = 0 ↔ ∀ query, .asked i query ∉ log := by
  rw [asksOf, List.countP_eq_zero]
  constructor
  · intro h query hmem
    exact h _ hmem (beq_self_eq_true i)
  · intro h event hmem hasked
    cases event with
    | asked reader query =>
      obtain rfl : reader = i := beq_iff_eq.mp hasked
      exact h query hmem
    | _ => cases hasked

/-- Of the events of a turn, what counts is whether the turn asks the data source. -/
theorem countP_events {P : Event ρ → Bool}
    (only : ∀ event, P event = true → ∃ i query, event = .asked i query)
    (move : Move ρ) (query : Query) (format : RowFormat ρ) (before after : ReadStage ρ) (asks : Bool) :
    (move.events query format before after asks).countP P =
      (asks && P (.asked move.activity query)).toNat := by
  have hnone : ∀ event, (∀ i query, event ≠ .asked i query) → P event = false := by
    intro event hother
    apply Bool.eq_false_iff.mpr
    intro hcounted
    obtain ⟨i, query, rfl⟩ := only event hcounted
    exact hother i query rfl
  simp only [Move.events, List.countP_append]
  have hdelivered : ((move.outcome?.toList.map fun outcome =>
      .delivered move.activity query format outcome).countP P) = 0 := by
    simp [List.countP_eq_zero, hnone]
  have hjoined : (((before.joined? after).toList.map fun role =>
      .joined move.activity query role).countP P) = 0 := by
    simp [List.countP_eq_zero, hnone]
  have hadopted : (((before.adopted? after).toList.map fun flight =>
      .adopted move.activity query flight).countP P) = 0 := by
    simp [List.countP_eq_zero, hnone]
  rw [hdelivered, hjoined, hadopted]
  cases asks with
  | false => rfl
  | true => cases hasked : P (.asked move.activity query) <;> simp [hasked]

theorem asksOf_events (move : Move ρ) (query : Query) (format : RowFormat ρ)
    (before after : ReadStage ρ) (asks : Bool) (i : ActivityId) :
    asksOf (move.events query format before after asks) i =
      if move.activity = i then asks.toNat else 0 := by
  have honly : ∀ event : Event ρ, event.isAskOf i = true → ∃ i query, event = .asked i query := by
    intro event h
    cases event with
    | asked reader query => exact ⟨reader, query, rfl⟩
    | _ => cases h
  rw [asksOf, countP_events honly]
  by_cases hi : move.activity = i <;> simp [Event.isAskOf, hi]

theorem misses_events (config : Configuration) (move : Move ρ) (query : Query) (format : RowFormat ρ)
    (before after : ReadStage ρ) (asks : Bool) :
    (move.events query format before after asks).countP (Event.isMiss config) =
      (asks && config.caches query.table).toNat := by
  apply countP_events
  intro event h
  cases event with
  | asked reader query => exact ⟨reader, query, rfl⟩
  | _ => cases h

/-- How often a read may have asked, given its phase and whether its table is cached. -/
def Phase.Allows (cached : Bool) (asks : Nat) : Phase → Prop
  | .fresh => asks = 0
  | .seeking => cached = true ∧ asks = 0
  | .bypassing => cached = false ∧ asks ≤ 1
  | .asking => cached = true ∧ asks = 1
  | .returned | .broken => asks ≤ 1

theorem Phase.Allows.le_one {cached : Bool} {asks : Nat} {phase : Phase}
    (h : phase.Allows cached asks) : asks ≤ 1 := by
  cases phase <;> simp only [Allows] at h <;> omega

theorem Read.Counts.allows {c : Cache} {query : Query} {turn : Turn (ReadStage ρ)} {before : Phase}
    {asks : Nat} (h : Read.Counts c query turn before)
    (allows : before.Allows (c.config.caches query.table) asks) :
    turn.stage.phase.Allows (c.config.caches query.table) (asks + turn.fetches.toNat) := by
  have hseeks : before = .seeking ∨ before = .fresh ∧ c.config.caches query.table = true →
      c.config.caches query.table = true ∧ asks = 0 := by
    rintro (rfl | ⟨rfl, hcached⟩)
    · exact allows
    · exact ⟨hcached, allows⟩
  cases h with
  | hit _ hasks after =>
    rw [after, hasks]
    exact Nat.le_trans (Nat.le_of_eq allows.2) (Nat.zero_le 1)
  | miss _ hasks after seeks =>
    obtain ⟨hcached, hnone⟩ := hseeks seeks
    rw [after, hasks, hnone]
    exact ⟨hcached, rfl⟩
  | bypass _ hasks after uncached =>
    obtain rfl : asks = 0 := allows
    rw [after, hasks]
    exact ⟨uncached, Nat.le_refl 1⟩
  | seek _ hasks after seeks =>
    rw [after, hasks]
    exact hseeks seeks
  | goOn _ hasks after =>
    rw [after, hasks]
    exact allows
  | finish _ hasks after =>
    rw [after, hasks]
    exact allows.le_one
  | broke _ hasks after =>
    rw [after, hasks]
    exact allows.le_one

namespace Read.Counts

variable {c : Cache} {query : Query} {turn : Turn (ReadStage ρ)} {before : Phase} {asks : Nat}

theorem unreturned (h : Counts c query turn before) : before ≠ .returned := by
  cases h with
  | miss _ _ _ seeks | seek _ _ _ seeks => rcases seeks with rfl | ⟨rfl, -⟩ <;> simp
  | finish _ _ _ ends => rcases ends with rfl | rfl <;> simp
  | broke _ _ _ active => exact active
  | hit | bypass | goOn => simp

/-- A turn counts a miss if it asks the data source for a cached table. -/
theorem misses (h : Counts c query turn before)
    (allows : before.Allows (c.config.caches query.table) asks) :
    turn.cache.counters.misses =
      c.counters.misses + (turn.fetches && c.config.caches query.table).toNat.toUInt64 := by
  cases h with
  | miss counters hasks _ seeks =>
    have hcached : c.config.caches query.table = true := by
      rcases seeks with rfl | ⟨-, hcached⟩
      · exact allows.1
      · exact hcached
    rw [counters, hasks, hcached]
    rfl
  | bypass counters hasks _ uncached =>
    rw [counters, hasks, uncached]
    simp
  | hit counters hasks | seek counters hasks | goOn counters hasks | finish counters hasks
  | broke counters hasks =>
    rw [counters, hasks]
    simp [Counters.hit]

/-- A turn counts a hit if the read returns without having asked for a cached table. -/
theorem hits (h : Counts c query turn before)
    (allows : before.Allows (c.config.caches query.table) asks) :
    turn.cache.counters.hits = c.counters.hits +
      (decide (turn.stage.phase = .returned ∧ c.config.caches query.table = true ∧
        asks + turn.fetches.toNat = 0)).toNat.toUInt64 := by
  cases h with
  | hit counters hasks after =>
    obtain ⟨hcached, rfl⟩ := allows
    rw [counters, hasks, hcached, after]
    rfl
  | finish counters hasks after ends =>
    have hcounted : ¬ (c.config.caches query.table = true ∧ asks + turn.fetches.toNat = 0) := by
      rintro ⟨hcached, hnone⟩
      rcases ends with rfl | rfl
      · have hasked : asks = 1 := allows.2
        omega
      · cases hcached.symm.trans allows.1
    rw [counters, decide_eq_false (fun h => hcounted h.2)]
    simp
  | miss counters _ after | bypass counters _ after | seek counters _ after | goOn counters _ after
  | broke counters _ after =>
    rw [counters, after]
    simp [Counters.miss]

end Read.Counts

end ReadThrough
