import ReadThrough.Proofs.Flights.LateReads
import ReadThrough.Proofs.Reads.Tally
import ReadThrough.Proofs.Waiting

/-! # Reads that find nothing

A read that runs without others like it, and whose lookups find nothing, asks the data source once and
returns what the data source answered. Whatever else the store refuses, and whether or not the result can be
stored, makes no difference to it, and no flight is left of it. The one thing that gets in the way is a call
that breaks down together with the read.

* `ReadStage.hits` and `ReadStage.brokeOnStore` say of a stage what the store has replied;
* `FetchOutcome.Gives` is what a read returns that has only its fetch to go by;
* `ReadStage.OnItsOwn` says how far such a read has come;
* `World.misses_return_own_outcome` is the theorem, and `World.endless_lifetime_breaks_read` a call that breaks
  down.
-/

namespace ReadThrough
set_option autoImplicit false

variable {ρ σ : Type}

/-! ## Replies of the store -/

/-- The reply that the read is about to take in answers it. -/
def ReadStage.hits (format : RowFormat ρ) : ReadStage ρ → Bool
  | .awaitingPoints _ sought (.answered (.ok slots)) =>
    ((Read.pointPayload? sought slots).bind format.decodeAll).isSome
  | .awaitingSearch _ (.answered (.ok stored)) =>
    stored = SearchEntry.absenceMark ||
      ((SearchEntry.decode? stored).bind fun entry => format.decodeAll entry.2).isSome
  | _ => false

/-- A store call of the read has broken down. -/
def ReadStage.brokeOnStore : ReadStage ρ → Bool
  | .awaitingPoints _ _ (.answered (.error .brokeDown)) => true
  | .awaitingSearch _ (.answered (.error .brokeDown)) => true
  | .filling _ _ _ jobs => jobs.any JobRun.isBroken
  | _ => false

/-! ## What the data source gives -/

/-- What a read returns that has only its fetch to go by: the rows, nothing if there are none or none for a
read of a single row, or the failure. -/
inductive FetchOutcome.Gives (shape : Shape) : FetchOutcome ρ → Answer ρ → Prop
  | rows {fetched} (enough : shape = .one → fetched.rows ≠ []) :
    Gives shape (.answered (some fetched)) (.returned (.ok (some fetched)))
  | empty {fetched} (one : shape = .one) (empty : fetched.rows = []) :
    Gives shape (.answered (some fetched)) (.returned (.ok none))
  | absent : Gives shape (.answered none) (.returned (.ok none))
  | failed {text} : Gives shape (.failed text) (.returned (.error (.dataSource text)))
  | brokeDown : Gives shape .brokeDown .brokeDown

theorem FetchOutcome.gives_normalize (shape : Shape) (result : Option (ResultSet ρ)) :
    Gives shape (.answered result) (.returned (.ok (shape.normalize result))) := by
  cases result with
  | none => exact .absent
  | some fetched =>
    by_cases hnone : shape = .one ∧ fetched.rows.isEmpty
    · rw [Shape.normalize, if_pos hnone]
      exact .empty hnone.1 (List.isEmpty_iff.mp hnone.2)
    · rw [Shape.normalize, if_neg hnone]
      exact .rows fun hone hempty => hnone ⟨hone, List.isEmpty_iff.mpr hempty⟩

/-- The outcome that an event delivers to a read. -/
def Event.deliveredTo? (i : ActivityId) : Event ρ → Option (FetchOutcome ρ)
  | .delivered reader _ _ outcome => if reader = i then some outcome else none
  | _ => none

/-- What the data source has answered to a read, in order. -/
def deliveriesTo (log : List (Event ρ)) (i : ActivityId) : List (FetchOutcome ρ) :=
  log.filterMap (Event.deliveredTo? i)

theorem deliveriesTo_append (log events : List (Event ρ)) (i : ActivityId) :
    deliveriesTo (log ++ events) i = deliveriesTo log i ++ deliveriesTo events i :=
  List.filterMap_append

theorem deliveriesTo_events (move : Move ρ) (query : Query) (format : RowFormat ρ)
    (before after : ReadStage ρ) (asks : Bool) (i : ActivityId) :
    deliveriesTo (move.events query format before after asks) i =
      if move.activity = i then move.outcome?.toList else [] := by
  simp only [Move.events, deliveriesTo_append]
  have hjoined : deliveriesTo ((before.joined? after).toList.map fun role =>
      (.joined move.activity query role : Event ρ)) i = [] := by
    cases before.joined? after <;> rfl
  have hadopted : deliveriesTo ((before.adopted? after).toList.map fun flight =>
      (.adopted move.activity query flight : Event ρ)) i = [] := by
    cases before.adopted? after <;> rfl
  have hasked : deliveriesTo (if asks then [(.asked move.activity query : Event ρ)] else []) i = [] := by
    cases asks <;> rfl
  rw [hjoined, hadopted, hasked]
  cases move.outcome? with
  | none => simp [deliveriesTo]
  | some outcome => by_cases hi : move.activity = i <;> simp [deliveriesTo, Event.deliveredTo?, hi]

/-! ## How far a read has come by itself -/

/-- A read that leads its flight and finds nothing has asked so often, and been told so much. -/
def ReadStage.OnItsOwn (shape : Shape) (asks : Nat) (told : List (FetchOutcome ρ)) : ReadStage ρ → Prop
  | .ready | .awaitingPoints _ _ _ | .awaitingSearch _ _ => asks = 0 ∧ told = []
  | .fetching _ => asks = 1 ∧ told = []
  | .filling _ result _ _ =>
    asks = 1 ∧ ∃ outcome, told = [outcome] ∧ outcome.Gives shape (.returned (.ok result))
  | .ended answer => asks = 1 ∧ ∃ outcome, told = [outcome] ∧ outcome.Gives shape answer
  | .following _ | .bypassing => False

namespace Read

/-- After the turn the read still has only the data source to go by. -/
def StaysOnItsOwn (shape : Shape) (asks : Nat) (told : List (FetchOutcome ρ)) (turn : Turn (ReadStage ρ)) :
    Prop :=
  turn.stage.OnItsOwn shape (asks + turn.fetches.toNat) told

variable {c : Cache} {query : Query} {format : RowFormat ρ} {flight : FlightId}

theorem lookUpSearch_onItsOwn (c : Cache) (query : Query) (flight : FlightId) (notices : List Notice) :
    StaysOnItsOwn query.shape 0 [] (lookUpSearch c query flight notices : Turn (ReadStage ρ)) := by
  unfold lookUpSearch
  split <;> exact ⟨rfl, rfl⟩

theorem lookUp_onItsOwn (c : Cache) (query : Query) (flight : FlightId) (notices : List Notice) :
    StaysOnItsOwn query.shape 0 [] (lookUp c query flight notices : Turn (ReadStage ρ)) := by
  unfold lookUp
  split
  · split
    · exact ⟨rfl, rfl⟩
    · exact lookUpSearch_onItsOwn c query flight notices
  · exact lookUpSearch_onItsOwn c query flight notices

theorem start_onItsOwn (cached : c.config.caches query.table = true)
    (free : c.flights.registry[query.flightName]? = none) :
    StaysOnItsOwn query.shape 0 [] (start c query : Turn (ReadStage ρ)) := by
  rw [start, if_pos cached, join, Flights.join_of_free free]
  exact lookUp_onItsOwn _ query _ []

theorem afterPoints_onItsOwn {sought : List CompositeKey} {reply : Reply .slots}
    (missed : (ReadStage.awaitingPoints flight sought (.answered reply)).hits format = false)
    (unbroken : (ReadStage.awaitingPoints flight sought (.answered reply) : ReadStage ρ).brokeOnStore = false) :
    StaysOnItsOwn query.shape 0 [] (afterPoints c query format flight sought reply) := by
  unfold afterPoints
  split
  · cases unbroken
  · exact lookUpSearch_onItsOwn c query flight _
  · rename_i slots
    cases hpayload : pointPayload? sought slots with
    | none => exact lookUpSearch_onItsOwn c query flight _
    | some payload =>
      cases hrows : format.decodeAll payload with
      | none => simpa [hrows] using lookUpSearch_onItsOwn c query flight _
      | some rows => simp [ReadStage.hits, hpayload, hrows] at missed

theorem afterSearch_onItsOwn {reply : Reply .text}
    (missed : (ReadStage.awaitingSearch flight (.answered reply)).hits format = false)
    (unbroken : (ReadStage.awaitingSearch flight (.answered reply) : ReadStage ρ).brokeOnStore = false) :
    StaysOnItsOwn query.shape 0 [] (afterSearch c query format flight reply) := by
  unfold afterSearch
  split
  · cases unbroken
  · exact ⟨rfl, rfl⟩
  · rename_i stored
    simp only [ReadStage.hits, Bool.or_eq_false_iff, decide_eq_false_iff_not] at missed
    obtain ⟨hpresent, hunread⟩ := missed
    rw [if_neg hpresent]
    cases hentry : SearchEntry.decode? stored with
    | none => exact ⟨rfl, rfl⟩
    | some entry =>
      obtain ⟨rowsAffected, payload⟩ := entry
      cases hrows : format.decodeAll payload with
      | none =>
        simp only [hrows]
        exact ⟨rfl, rfl⟩
      | some rows => simp [hentry, hrows] at hunread

theorem lookUpSearch_stage (c : Cache) (query : Query) (flight : FlightId) (notices : List Notice) :
    (∃ operation, (lookUpSearch c query flight notices : Turn (ReadStage ρ)).stage =
      .awaitingSearch flight operation) ∨
    (lookUpSearch c query flight notices : Turn (ReadStage ρ)).stage = .fetching flight := by
  unfold lookUpSearch
  split
  · exact .inl ⟨_, rfl⟩
  · exact .inr rfl

theorem lookUp_stage (c : Cache) (query : Query) (flight : FlightId) (notices : List Notice) :
    (∃ sought operation, (lookUp c query flight notices : Turn (ReadStage ρ)).stage =
      .awaitingPoints flight sought operation) ∨
    (∃ operation, (lookUp c query flight notices : Turn (ReadStage ρ)).stage =
      .awaitingSearch flight operation) ∨
    (lookUp c query flight notices : Turn (ReadStage ρ)).stage = .fetching flight := by
  unfold lookUp
  split
  · split
    · exact .inl ⟨_, _, rfl⟩
    · exact .inr (lookUpSearch_stage c query flight notices)
  · exact .inr (lookUpSearch_stage c query flight notices)

/-- A read that finds no flight of its key leads one. -/
theorem start_stage (cached : c.config.caches query.table = true)
    (free : c.flights.registry[query.flightName]? = none) :
    (∃ sought operation, (start c query : Turn (ReadStage ρ)).stage =
      .awaitingPoints c.flights.all.length sought operation) ∨
    (∃ operation, (start c query : Turn (ReadStage ρ)).stage =
      .awaitingSearch c.flights.all.length operation) ∨
    (start c query : Turn (ReadStage ρ)).stage = .fetching c.flights.all.length := by
  rw [start, if_pos cached, join, Flights.join_of_free free]
  exact lookUp_stage _ query _ []

theorem afterPoints_stage (c : Cache) (query : Query) (format : RowFormat ρ) (flight : FlightId)
    (sought : List CompositeKey) (reply : Reply .slots) :
    (∃ answer, (afterPoints c query format flight sought reply).stage = .ended answer) ∨
    (∃ operation, (afterPoints c query format flight sought reply).stage = .awaitingSearch flight operation) ∨
    (afterPoints c query format flight sought reply).stage = .fetching flight := by
  unfold afterPoints
  split
  · exact .inl ⟨_, rfl⟩
  · exact .inr (lookUpSearch_stage c query flight _)
  · split
    · exact .inr (lookUpSearch_stage c query flight _)
    · split
      · exact .inr (lookUpSearch_stage c query flight _)
      · exact .inl ⟨_, rfl⟩

theorem keep_ends_or_fills (plan : FillPlan) (query : Query) (flight : FlightId) (result : Option (ResultSet ρ))
    (outcome : Outcome) : (∃ answer, (keep plan query flight result outcome).stage = .ended answer) ∨
      ∃ jobs, (keep plan query flight result outcome).stage = .filling flight result outcome jobs := by
  unfold keep
  dsimp only
  split
  · exact .inl ⟨_, rfl⟩
  · split
    · exact .inl ⟨_, rfl⟩
    · exact .inr ⟨_, rfl⟩

theorem afterFetch_ends_or_fills (c : Cache) (query : Query) (format : RowFormat ρ) (flight : FlightId)
    (source : FetchOutcome ρ) : (∃ answer, (afterFetch c query format flight source).stage = .ended answer) ∨
      ∃ result outcome jobs,
        (afterFetch c query format flight source).stage = .filling flight result outcome jobs := by
  unfold afterFetch
  split
  · exact .inl ⟨_, rfl⟩
  · exact .inl ⟨_, rfl⟩
  · split
    · exact (keep_ends_or_fills _ _ _ _ _).imp_right fun ⟨jobs, hstage⟩ => ⟨_, _, jobs, hstage⟩
    · split
      · exact .inl ⟨_, rfl⟩
      · exact (keep_ends_or_fills _ _ _ _ _).imp_right fun ⟨jobs, hstage⟩ => ⟨_, _, jobs, hstage⟩

theorem afterSearch_stage (c : Cache) (query : Query) (format : RowFormat ρ) (flight : FlightId)
    (reply : Reply .text) : (∃ answer, (afterSearch c query format flight reply).stage = .ended answer) ∨
      (afterSearch c query format flight reply).stage = .fetching flight := by
  unfold afterSearch
  split
  · exact .inl ⟨_, rfl⟩
  · exact .inr rfl
  · split
    · exact .inl ⟨_, rfl⟩
    · split
      · exact .inr rfl
      · split
        · exact .inr rfl
        · exact .inl ⟨_, rfl⟩

theorem keep_onItsOwn {plan : FillPlan} {result : Option (ResultSet ρ)} {outcome : Outcome}
    {source : FetchOutcome ρ} (gives : source.Gives query.shape (.returned (.ok result))) :
    StaysOnItsOwn query.shape 1 [source] (keep plan query flight result outcome) := by
  unfold keep
  dsimp only
  split
  · exact ⟨rfl, source, rfl, gives⟩
  · split
    · exact ⟨rfl, source, rfl, gives⟩
    · exact ⟨rfl, source, rfl, gives⟩

theorem afterFetch_onItsOwn (c : Cache) (query : Query) (format : RowFormat ρ) (flight : FlightId)
    (source : FetchOutcome ρ) :
    StaysOnItsOwn query.shape 1 [source] (afterFetch c query format flight source) := by
  cases source with
  | brokeDown => exact ⟨rfl, _, rfl, .brokeDown⟩
  | failed text => exact ⟨rfl, _, rfl, .failed⟩
  | answered result =>
    have hgives := FetchOutcome.gives_normalize query.shape result
    simp only [afterFetch]
    split
    · rename_i hnone
      rw [hnone] at hgives
      exact keep_onItsOwn hgives
    · rename_i fetched hfetched
      rw [hfetched] at hgives
      split
      · exact ⟨rfl, _, rfl, hgives⟩
      · exact keep_onItsOwn hgives

end Read

/-! ## Runs in which the read finds nothing -/

/-- A move of a read that is not broken off, takes in no hit, and has no store call that broke down. -/
def Move.IsMiss (format : RowFormat ρ) (stage : ReadStage ρ) : Move ρ → Prop
  | .go _ => stage.hits format = false ∧ stage.brokeOnStore = false
  | .abort _ => False
  | .goJob _ _ | .deliver _ _ => True

instance (format : RowFormat ρ) (stage : ReadStage ρ) : (move : Move ρ) → Decidable (move.IsMiss format stage)
  | .go _ => inferInstanceAs (Decidable (_ ∧ _))
  | .abort _ => .isFalse id
  | .goJob _ _ | .deliver _ _ => .isTrue trivial

/-- A move of the reader is a miss, and no other read of its flight key moves. -/
def Move.LeavesAlone (reader : ActivityId) (key : String) (move : Move ρ) : Option (Activity ρ) → Prop
  | some (.read query format stage) =>
    if move.activity = reader then move.IsMiss format stage else query.flightName ≠ key
  | _ => True

instance (reader : ActivityId) (key : String) (move : Move ρ) :
    (activity : Option (Activity ρ)) → Decidable (move.LeavesAlone reader key activity)
  | some (.read query format stage) =>
    inferInstanceAs
      (Decidable (if move.activity = reader then move.IsMiss format stage else query.flightName ≠ key))
  | some (.change _ _) | some (.job _) | some (.request _ _) | none => .isTrue trivial

namespace World

/-- The read goes on by misses alone, and no other read like it goes on. Everything else may happen. -/
def MissesAlone (reader : ActivityId) (key : String) (w : World ρ σ) : Action ρ σ → Prop
  | .move move => move.LeavesAlone reader key w.node.activities[move.activity]?
  | _ => True

instance (reader : ActivityId) (key : String) (w : World ρ σ) :
    (action : Action ρ σ) → Decidable (w.MissesAlone reader key action)
  | .move move => inferInstanceAs (Decidable (move.LeavesAlone reader key w.node.activities[move.activity]?))
  | .read _ _ | .change _ | .request _ | .forget _ | .wait _ | .disturb _ => .isTrue trivial

/-- The read has come so far by misses, and no read like it leads a flight or follows one. -/
structure Lonely (reader : ActivityId) (query : Query) (format : RowFormat ρ) (log : List (Event ρ))
    (w : World ρ σ) : Prop where
  led : Led w
  cached : w.node.cache.config.caches query.table = true
  own : ∃ stage, w.Reads reader query format stage ∧
    stage.OnItsOwn query.shape (asksOf log reader) (deliveriesTo log reader)
  others : ∀ i query' format' stage, i ≠ reader → w.Reads i query' format' stage →
    query'.flightName = query.flightName → stage.role? = none

section

variable {w w' : World ρ σ} {reader : ActivityId} {query : Query} {format : RowFormat ρ}
  {log : List (Event ρ)}

/-- As long as the read leads no flight, there is none of its key. -/
theorem Lonely.unregistered (h : Lonely reader query format log w) {stage : ReadStage ρ}
    (is : w.Reads reader query format stage) (idle : stage.leads? = none) :
    w.flights.registry[query.flightName]? = none := by
  cases hregistered : w.flights.registry[query.flightName]? with
  | none => rfl
  | some flight =>
    obtain ⟨found, hfound, hkey, hopen⟩ := h.led.exact.sound _ _ hregistered
    have hprofile : w.flights.profile? flight = some (query.flightName, .running) := by
      simp [Flights.profile?, hfound, hkey, hopen.1]
    obtain ⟨leader, query', format', stage', hleader, hleads⟩ := h.led.led flight _ hprofile
    have hsame := h.led.leads leader query' format' stage' flight hleader hleads
    have halike : query'.flightName = query.flightName :=
      (Prod.mk.inj (Option.some.inj (hsame.symm.trans hprofile))).1
    by_cases hreader : leader = reader
    · subst hreader
      obtain ⟨-, -, rfl⟩ := is.inj hleader
      cases idle.symm.trans hleads
    · have hidle := h.others leader query' format' stage' hreader hleader halike
      cases hidle.symm.trans (ReadStage.role?_of_leads hleads)

variable [Medium σ]

/-- The read goes on by itself, or by a step of the store. -/
theorem onItsOwn_of_go {before : ReadStage ρ} {step : ActivityStep ρ σ} {asks : Nat}
    {told : List (FetchOutcome ρ)} {now : Nat} {c : Cache} {store : σ}
    (own : before.OnItsOwn query.shape asks told) (missed : before.hits format = false)
    (unbroken : before.brokeOnStore = false) (cached : c.config.caches query.table = true)
    (free : before.leads? = none → c.flights.registry[query.flightName]? = none)
    (taken : Activity.goRead? now c store query format before = some step) :
    ∃ stage, step.activity = .read query format stage ∧
      stage.OnItsOwn query.shape (asks + step.fetches.toNat) told := by
  cases before with
  | ready =>
    obtain rfl := Option.some.inj taken
    obtain ⟨rfl, rfl⟩ := own
    exact ⟨_, rfl, Read.start_onItsOwn cached (free rfl)⟩
  | following | bypassing => exact own.elim
  | awaitingPoints flight sought operation =>
    obtain ⟨rfl, rfl⟩ := own
    cases operation with
    | answered reply =>
      obtain rfl := Option.some.inj taken
      exact ⟨_, rfl, Read.afterPoints_onItsOwn missed unbroken⟩
    | asked | held =>
      obtain ⟨moved, -, rfl⟩ := Option.map_eq_some_iff.mp taken
      exact ⟨_, rfl, rfl, rfl⟩
  | awaitingSearch flight operation =>
    obtain ⟨rfl, rfl⟩ := own
    cases operation with
    | answered reply =>
      obtain rfl := Option.some.inj taken
      exact ⟨_, rfl, Read.afterSearch_onItsOwn missed unbroken⟩
    | asked | held =>
      obtain ⟨moved, -, rfl⟩ := Option.map_eq_some_iff.mp taken
      exact ⟨_, rfl, rfl, rfl⟩
  | filling flight result outcome jobs =>
    have hunbroken : ¬ jobs.any JobRun.isBroken = true := Bool.eq_false_iff.mp unbroken
    rw [Activity.goRead?, if_neg hunbroken] at taken
    split at taken
    · obtain rfl := Option.some.inj taken
      exact ⟨_, rfl, own⟩
    · cases taken
  | fetching | ended => cases taken

theorem onItsOwn_of_goJob {before : ReadStage ρ} {step : ActivityStep ρ σ} {asks : Nat}
    {told : List (FetchOutcome ρ)} {now : Nat} {c : Cache} {store : σ} {index : Nat}
    (own : before.OnItsOwn query.shape asks told)
    (taken : Activity.goJob? now c store (.read query format before) index = some step) :
    ∃ stage, step.activity = .read query format stage ∧
      stage.OnItsOwn query.shape (asks + step.fetches.toNat) told := by
  simp only [Activity.goJob?, Option.bind_eq_bind, Option.bind_eq_some_iff] at taken
  obtain ⟨run, hrun, moved, hmoved, ⟨⟩⟩ := taken
  cases before with
  | filling => exact ⟨_, rfl, own⟩
  | _ => cases hrun

omit [Medium σ] in
theorem onItsOwn_of_deliver {before : ReadStage ρ} {step : ActivityStep ρ σ} {asks : Nat}
    {told : List (FetchOutcome ρ)} {c : Cache} {store : σ} {outcome : FetchOutcome ρ}
    (own : before.OnItsOwn query.shape asks told)
    (taken : Activity.deliver? c store outcome (.read query format before) = some step) :
    ∃ stage, step.activity = .read query format stage ∧
      stage.OnItsOwn query.shape (asks + step.fetches.toNat) (told ++ [outcome]) := by
  cases before with
  | fetching flight =>
    obtain rfl := Option.some.inj taken
    obtain ⟨rfl, rfl⟩ := own
    exact ⟨_, rfl, Read.afterFetch_onItsOwn c query format flight outcome⟩
  | bypassing => exact own.elim
  | _ => cases taken

/-- A move by which the read takes in nothing but a miss. -/
theorem onItsOwn_of_move {move : Move ρ} {before : ReadStage ρ} {step : ActivityStep ρ σ}
    {asks : Nat} {told : List (FetchOutcome ρ)} {now : Nat} {c : Cache} {store : σ}
    (own : before.OnItsOwn query.shape asks told) (miss : move.IsMiss format before)
    (cached : c.config.caches query.table = true)
    (free : before.leads? = none → c.flights.registry[query.flightName]? = none)
    (taken : (Activity.read query format before).move? now c store move = some step) :
    ∃ stage, step.activity = .read query format stage ∧
      stage.OnItsOwn query.shape (asks + step.fetches.toNat) (told ++ move.outcome?.toList) := by
  cases move with
  | go =>
    obtain ⟨stage, hactivity, hstage⟩ := onItsOwn_of_go own miss.1 miss.2 cached free taken
    exact ⟨stage, hactivity, by simpa [Move.outcome?] using hstage⟩
  | goJob =>
    obtain ⟨stage, hactivity, hstage⟩ := onItsOwn_of_goJob own taken
    exact ⟨stage, hactivity, by simpa [Move.outcome?] using hstage⟩
  | deliver => exact onItsOwn_of_deliver own taken
  | abort => exact miss.elim

theorem Lonely.step {action : Action ρ σ} (h : Lonely reader query format log w)
    (misses : w.MissesAlone reader query.flightName action) (acts : w.act? action = some w') :
    Lonely reader query format (log ++ w.events w' action) w' := by
  obtain ⟨stage, hreads, hown⟩ := h.own
  have hled := FlightStep.led h.led (act?_flightStep acts)
  have hcached : w'.node.cache.config.caches query.table = true := by
    rw [(act?_grows acts).config]
    exact h.cached
  rcases act?_cases acts with ⟨move, query', format', before, step, rfl, was, taken, rfl⟩ | ⟨hnone, haside⟩
  · have halone : move.LeavesAlone reader query.flightName (some (.read query' format' before)) := by
      have halone : move.LeavesAlone reader query.flightName w.node.activities[move.activity]? := misses
      rwa [was] at halone
    have hkeeps := keepsReads_after w move.activity step
    by_cases hmover : move.activity = reader
    · subst hmover
      obtain ⟨rfl, rfl, rfl⟩ := was.inj hreads
      have hmiss : move.IsMiss format' before := by
        rwa [Move.LeavesAlone, if_pos rfl] at halone
      obtain ⟨next, hactivity, hnext⟩ :=
        onItsOwn_of_move hown hmiss h.cached (fun idle => h.unregistered hreads idle) taken
      have his := (after_activities_mover was step).trans (congrArg some hactivity)
      refine ⟨hled, hcached, ⟨next, his, ?_⟩, fun i query'' format'' stage' hi hread halike => ?_⟩
      · rw [events_after was hactivity, asksOf_append, asksOf_events, if_pos rfl, deliveriesTo_append,
          deliveriesTo_events, if_pos rfl]
        exact hnext
      · rcases hkeeps.old i query'' format'' stage' hi hread with hold | ⟨rfl, -⟩
        · exact h.others i query'' format'' stage' hi hold halike
        · rfl
    · have hunlike : query'.flightName ≠ query.flightName := by
        rwa [Move.LeavesAlone, if_neg hmover] at halone
      obtain ⟨turn, -, hturn⟩ := Activity.move?_goes taken
      have hactivity : step.activity = .read query' format' turn.stage := by
        rw [hturn]
        rfl
      have his := hkeeps.kept reader query format stage (Ne.symm hmover) hreads
      refine ⟨hled, hcached, ⟨stage, his, ?_⟩, fun i query'' format'' stage' hi hread halike => ?_⟩
      · rw [events_after was hactivity, asksOf_append, asksOf_events, if_neg hmover, deliveriesTo_append,
          deliveriesTo_events, if_neg hmover, List.append_nil]
        exact hown
      · by_cases hother : i = move.activity
        · subst hother
          have hnow := (after_activities_mover was step).trans (congrArg some hactivity)
          obtain ⟨rfl, -, -⟩ := Reads.inj hnow hread
          exact absurd halike hunlike
        · rcases hkeeps.old i query'' format'' stage' hother hread with hold | ⟨rfl, -⟩
          · exact h.others i query'' format'' stage' hi hold halike
          · rfl
  · rw [hnone, List.append_nil]
    refine ⟨hled, hcached, ⟨stage, haside.reads.kept _ _ _ _ not_false hreads, hown⟩, ?_⟩
    intro i query' format' stage' hi hread halike
    rcases haside.reads.old i query' format' stage' not_false hread with hold | ⟨rfl, -⟩
    · exact h.others i query' format' stage' hi hold halike
    · rfl

theorem Lonely.run (h : Lonely reader query format [] w)
    (run : Runs (MissesAlone reader query.flightName) w log w') : Lonely reader query format log w' := by
  induction run with
  | refl => exact h
  | step action _ misses acts ih => exact ih.step misses acts

end

end World

/-! ## The end of the read -/

/-- A move of the read by itself, with this outcome of its fetch. -/
def Action.IsOwn (reader : ActivityId) (outcome : FetchOutcome ρ) : Action ρ σ → Prop
  | .move (.go mover) | .move (.goJob mover _) => mover = reader
  | .move (.deliver mover delivered) => mover = reader ∧ delivered = outcome
  | _ => False

namespace World

/-- The read goes on by itself, and by misses. -/
def MissesByItself (reader : ActivityId) (key : String) (outcome : FetchOutcome ρ) (w : World ρ σ)
    (action : Action ρ σ) : Prop :=
  w.MissesAlone reader key action ∧ action.IsOwn reader outcome

/-- By itself, and by misses alone, the read goes on until it has ended, unless a lookup finds something or a
store call breaks down. -/
def ComesThrough [Medium σ] (reader : ActivityId) (query : Query) (format : RowFormat ρ)
    (outcome : FetchOutcome ρ) (w : World ρ σ) : Prop :=
  ∃ log last stage,
    Runs (MissesByItself reader query.flightName outcome) w log last ∧ last.Reads reader query format stage ∧
      ((∃ answer, stage = .ended answer) ∨ stage.hits format = true ∨ stage.brokeOnStore = true)

section

variable [Medium σ] {w w' : World ρ σ} {reader : ActivityId} {query : Query} {format : RowFormat ρ}
  {source : FetchOutcome ρ} {flight : FlightId} {stage : ReadStage ρ}

omit [Medium σ] in
theorem missesAlone_goJob (w : World ρ σ) (reader : ActivityId) (index : Nat) (key : String) :
    w.MissesAlone reader key (.move (.goJob reader index)) := by
  change (Move.goJob reader index).LeavesAlone reader key w.node.activities[reader]?
  cases w.node.activities[reader]? with
  | none => trivial
  | some activity =>
    cases activity with
    | read => exact (if_pos rfl).mpr trivial
    | change | job | request => trivial

omit [Medium σ] in
theorem missesAlone_of_own {move : Move ρ} (own : move.activity = reader)
    (is : w.Reads reader query format stage) (miss : move.IsMiss format stage) :
    w.MissesAlone reader query.flightName (.move move) := by
  subst own
  have hactivity : w.node.activities[move.activity]? = some (.read query format stage) := is
  simp only [MissesAlone, hactivity, Move.LeavesAlone, if_true]
  exact miss

theorem ComesThrough.of_run {log : List (Event ρ)} (h : ComesThrough reader query format source w')
    (run : Runs (MissesByItself reader query.flightName source) w log w') :
    ComesThrough reader query format source w := by
  obtain ⟨later, last, stage, hruns, hlast, hover⟩ := h
  exact ⟨_, last, stage, run.trans hruns, hlast, hover⟩

omit [Medium σ] in
theorem reads_after {store : σ} {turn : Turn (ReadStage ρ)} {before : ReadStage ρ}
    (is : w.Reads reader query format before) (leads : turn.stage = stage) :
    (w.after reader (Activity.ofReadTurn query format store turn)).Reads reader query format stage := by
  subst leads
  exact after_activities_mover is _

theorem comesThrough_of_ended {answer : Answer ρ} (is : w.Reads reader query format (.ended answer)) :
    ComesThrough reader query format source w :=
  ⟨[], w, _, .refl, is, .inl ⟨answer, rfl⟩⟩

/-- The read takes a turn, or the store takes a step for it, unless something was found or broke down. -/
theorem comesThrough_of_go {step : ActivityStep ρ σ} (is : w.Reads reader query format stage)
    (taken : Activity.goRead? w.now w.node.cache w.store query format stage = some step)
    (next : ComesThrough reader query format source (w.after reader step)) :
    ComesThrough reader query format source w := by
  by_cases hhits : stage.hits format = true
  · exact ⟨[], w, stage, .refl, is, .inr (.inl hhits)⟩
  by_cases hbroke : stage.brokeOnStore = true
  · exact ⟨[], w, stage, .refl, is, .inr (.inr hbroke)⟩
  have hacts : w.act? (.move (.go reader)) = some (w.after reader step) :=
    act?_move_iff.mpr ⟨_, step, is, taken, rfl⟩
  have hmiss : (Move.go reader).IsMiss format stage :=
    ⟨Bool.eq_false_iff.mpr hhits, Bool.eq_false_iff.mpr hbroke⟩
  exact next.of_run (.single ⟨missesAlone_of_own rfl is hmiss, rfl⟩ hacts)

variable [AnsweringMedium σ]

theorem comesThrough_of_filling {result : Option (ResultSet ρ)} {outcome : Outcome} {jobs : List JobRun}
    (is : w.Reads reader query format (.filling flight result outcome jobs))
    (answering : AnsweringMedium.Answering w.store) : ComesThrough reader query format source w := by
  have hadmitted : ∀ (w : World ρ σ) (index : Nat),
      w.MissesByItself reader query.flightName source (.move (.goJob reader index)) :=
    fun w index => ⟨missesAlone_goJob w reader index _, rfl⟩
  obtain ⟨log, later, runs, hruns, hlater, -, -, hended⟩ :=
    canWaitFor_ends (Activity.waiting_read query format flight result outcome) hadmitted is answering
  by_cases hbroken : runs.any JobRun.isBroken = true
  · exact ⟨log, later, _, hruns, hlater, .inr (.inr hbroken)⟩
  · have hfinished : runs.all JobRun.isFinished = true := by
      simp only [List.any_eq_true, not_exists, not_and] at hbroken
      exact List.all_eq_true.mpr fun run mem => (hended run mem).resolve_right (hbroken run mem)
    have htaken : Activity.goRead? later.now later.node.cache later.store query format
        (.filling flight result outcome runs) = some (Activity.ofReadTurn query format later.store
          (Read.afterFill later.node.cache query flight result outcome [])) := by
      rw [Activity.goRead?, if_neg hbroken, if_pos hfinished]
    have hthrough : ComesThrough reader query format source later :=
      comesThrough_of_go hlater htaken (comesThrough_of_ended (after_activities_mover hlater _))
    exact hthrough.of_run hruns

theorem comesThrough_of_fetching (is : w.Reads reader query format (.fetching flight))
    (answering : AnsweringMedium.Answering w.store) : ComesThrough reader query format source w := by
  have hacts : w.act? (.move (.deliver reader source)) = some (w.after reader
      (Activity.ofReadTurn query format w.store (Read.afterFetch w.node.cache query format flight source))) :=
    act?_move_iff.mpr ⟨_, _, is, rfl, rfl⟩
  have hmiss : (Move.deliver reader source).IsMiss format (.fetching flight) := trivial
  have hadmitted : w.MissesByItself reader query.flightName source (.move (.deliver reader source)) :=
    ⟨missesAlone_of_own rfl is hmiss, rfl, rfl⟩
  refine ComesThrough.of_run ?_ (.single hadmitted hacts)
  rcases Read.afterFetch_ends_or_fills w.node.cache query format flight source with
    ⟨answer, hstage⟩ | ⟨result, outcome, jobs, hstage⟩
  · exact comesThrough_of_ended (reads_after is hstage)
  · exact comesThrough_of_filling (reads_after is hstage) answering

theorem comesThrough_of_search {now : Nat} {store : σ} {operation : Operation .text}
    (answers : Medium.Answers now store operation) (same : w.now = now ∧ w.store = store)
    (is : w.Reads reader query format (.awaitingSearch flight operation))
    (answering : AnsweringMedium.Answering w.store) : ComesThrough reader query format source w := by
  have hreply : ∀ {w : World ρ σ} {reply : Reply .text},
      w.Reads reader query format (.awaitingSearch flight (.answered reply)) →
      AnsweringMedium.Answering w.store → ComesThrough reader query format source w := by
    intro w reply is answering
    refine comesThrough_of_go is rfl ?_
    rcases Read.afterSearch_stage w.node.cache query format flight reply with ⟨answer, hstage⟩ | hstage
    · exact comesThrough_of_ended (reads_after is hstage)
    · exact comesThrough_of_fetching (reads_after is hstage) answering
  induction answers generalizing w with
  | answered => exact hreply is answering
  | @step store operation step taken later ih =>
    obtain ⟨rfl, rfl⟩ := same
    cases operation with
    | answered => exact hreply is answering
    | asked | held =>
      refine comesThrough_of_go is (congrArg (Option.map _) taken) ?_
      exact ih ⟨rfl, rfl⟩ (after_activities_mover is _) (AnsweringMedium.answering answering taken)

/-- The read has come to look its search up, or to fetch. -/
theorem comesThrough_of_looks (is : w.Reads reader query format stage)
    (looks : (∃ operation, stage = .awaitingSearch flight operation) ∨ stage = .fetching flight)
    (answering : AnsweringMedium.Answering w.store) : ComesThrough reader query format source w := by
  rcases looks with ⟨operation, rfl⟩ | rfl
  · exact comesThrough_of_search (AnsweringMedium.answers w.now answering operation) ⟨rfl, rfl⟩ is answering
  · exact comesThrough_of_fetching is answering

theorem comesThrough_of_points {now : Nat} {store : σ} {sought : List CompositeKey}
    {operation : Operation .slots} (answers : Medium.Answers now store operation)
    (same : w.now = now ∧ w.store = store)
    (is : w.Reads reader query format (.awaitingPoints flight sought operation))
    (answering : AnsweringMedium.Answering w.store) : ComesThrough reader query format source w := by
  have hreply : ∀ {w : World ρ σ} {reply : Reply .slots},
      w.Reads reader query format (.awaitingPoints flight sought (.answered reply)) →
      AnsweringMedium.Answering w.store → ComesThrough reader query format source w := by
    intro w reply is answering
    refine comesThrough_of_go is rfl ?_
    rcases Read.afterPoints_stage w.node.cache query format flight sought reply with ⟨answer, hstage⟩ | hlooks
    · exact comesThrough_of_ended (reads_after is hstage)
    · exact comesThrough_of_looks (reads_after is rfl) hlooks answering
  induction answers generalizing w with
  | answered => exact hreply is answering
  | @step store operation step taken later ih =>
    obtain ⟨rfl, rfl⟩ := same
    cases operation with
    | answered => exact hreply is answering
    | asked | held =>
      refine comesThrough_of_go is (congrArg (Option.map _) taken) ?_
      exact ih ⟨rfl, rfl⟩ (after_activities_mover is _) (AnsweringMedium.answering answering taken)

theorem Lonely.comesThrough {log : List (Event ρ)} (h : Lonely reader query format log w)
    (answering : AnsweringMedium.Answering w.store) (source : FetchOutcome ρ) :
    ComesThrough reader query format source w := by
  obtain ⟨stage, hreads, hown⟩ := h.own
  cases stage with
  | ready =>
    have hfree := h.unregistered hreads rfl
    refine comesThrough_of_go hreads rfl ?_
    rcases Read.start_stage h.cached hfree with ⟨sought, operation, hstage⟩ | hlooks
    · exact comesThrough_of_points (AnsweringMedium.answers w.now answering operation) ⟨rfl, rfl⟩
        (reads_after hreads hstage) answering
    · exact comesThrough_of_looks (reads_after hreads rfl) hlooks answering
  | following | bypassing => exact hown.elim
  | awaitingPoints flight sought operation =>
    exact comesThrough_of_points (AnsweringMedium.answers w.now answering operation) ⟨rfl, rfl⟩ hreads answering
  | awaitingSearch flight operation =>
    exact comesThrough_of_search (AnsweringMedium.answers w.now answering operation) ⟨rfl, rfl⟩ hreads answering
  | fetching => exact comesThrough_of_fetching hreads answering
  | filling => exact comesThrough_of_filling hreads answering
  | ended => exact comesThrough_of_ended hreads

/-! ## Reads by themselves -/

/-- A read on a cached table, at any time of any run, while no read of its flight key goes on beside it. Its
lookups find nothing: the entries are absent, or cannot be read, or the store refuses the call. However its
store calls fail, short of breaking down, and whatever else happens: when it has ended, it has asked the data
source once, was answered once, and returned what was answered, and no flight of its key is left. On a store
that answers, it ends for every outcome of the fetch. -/
theorem misses_return_own_outcome {origin start : World ρ σ} {before log : List (Event ρ)} (new : origin.IsNew)
    (reached : Runs Unrestricted origin before start) (called : start.Reads reader query format .ready)
    (cached : start.node.cache.config.caches query.table = true)
    (alone : ∀ i query' format' stage, i ≠ reader → start.Reads i query' format' stage →
      query'.flightName = query.flightName → stage.role? = none)
    (run : Runs (MissesAlone reader query.flightName) start log w) :
    (∀ answer, w.Reads reader query format (.ended answer) →
      asksOf log reader = 1 ∧
      (∃ outcome, deliveriesTo log reader = [outcome] ∧ outcome.Gives query.shape answer) ∧
      w.flights.registry[query.flightName]? = none) ∧
    (AnsweringMedium.Answering w.store → ∀ outcome, ComesThrough reader query format outcome w) := by
  have hstart : Lonely reader query format [] start :=
    ⟨(Led.of_new new).run reached, cached, ⟨.ready, called, rfl, rfl⟩, alone⟩
  have hlonely := hstart.run run
  refine ⟨fun answer ended => ?_, hlonely.comesThrough⟩
  obtain ⟨stage, hreads, hown⟩ := hlonely.own
  obtain ⟨-, -, rfl⟩ := hreads.inj ended
  exact ⟨hown.1, hown.2, hlonely.unregistered ended rfl⟩

end

/-- The entry of the search is corrupt, and neither of the calls that store the result is going to succeed. -/
def troubled : World Row RecordingStore :=
  { atRest with
    store := {
      entries := (∅ : Std.TreeMap String String).insert "a:s:users:select" "corrupt"
      failures := ((∅ : Std.TreeMap String Nat).insert "set" 1).insert "batch_set" 1 } }

def readInTrouble : List (Action Row RecordingStore) :=
  [.move (.go 0), .move (.go 0), .move (.go 0), .move (.deliver 0 (.answered (some (.one (.integer 5))))),
    .move (.goJob 0 0), .move (.goJob 0 0), .move (.goJob 0 1), .move (.goJob 0 1), .move (.go 0)]

/-- All store calls of a read fail it, and it returns the row that the data source has. -/
theorem read_in_trouble_returned_row :
    ∃ (w : World Row RecordingStore) (log : List (Event Row)),
      troubled.IsNew ∧ (troubled.enter (.ofQuery usersRead Row.integers)).Reads 0 usersRead Row.integers .ready ∧
      Runs (MissesAlone 0 usersRead.flightName) (troubled.enter (.ofQuery usersRead Row.integers)) log w ∧
      w.Reads 0 usersRead Row.integers (.ended (.returned (.ok (some (.one (.integer 5)))))) ∧
      asksOf log 0 = 1 ∧ w.flights.registry["users:select"]? = none := by
  have hrun : ((troubled.enter (.ofQuery usersRead Row.integers)).perform?
      (MissesAlone 0 usersRead.flightName) readInTrouble).map (fun last => last.1.node.activities[0]?) =
      some (some (.read usersRead Row.integers
        (.ended (.returned (.ok (some (.one (.integer 5)))))))) := by cbv
  obtain ⟨⟨w, log⟩, hlast, returned⟩ := Option.map_eq_some_iff.mp hrun
  have new : troubled.IsNew := ⟨⟨{}, "a", rfl⟩, rfl⟩
  have called : (troubled.enter (.ofQuery usersRead Row.integers)).Reads 0 usersRead Row.integers .ready := rfl
  have hread : (troubled.act? (.read usersRead Row.integers)) =
      some (troubled.enter (.ofQuery usersRead Row.integers)) := rfl
  have reached : Runs Unrestricted troubled _ (troubled.enter (.ofQuery usersRead Row.integers)) :=
    .single trivial hread
  have run : Runs (MissesAlone 0 usersRead.flightName) (troubled.enter (.ofQuery usersRead Row.integers)) log w :=
    .of_perform? hlast
  have alone : ∀ i query format stage, i ≠ 0 →
      (troubled.enter (.ofQuery usersRead Row.integers)).Reads i query format stage →
      query.flightName = usersRead.flightName → stage.role? = none := by
    intro i query format stage hi hread
    obtain ⟨i, rfl⟩ := Nat.exists_eq_succ_of_ne_zero hi
    cases hread
  obtain ⟨hasks, -, hnone⟩ := (misses_return_own_outcome new reached called rfl alone run).1 _ returned
  exact ⟨w, log, new, called, run, returned, hasks, hnone⟩

/-! ## Calls that break down -/

/-- A valid configuration with the longest time to live, on a store that has been set up for it. -/
def endless : World Row RecencyStore :=
  { node := {
      cache := {
        config := { ttl := ⟨UInt64.size * nanosPerSecond - 1, by decide⟩, storage := some .lru }
        space := ⟨"a"⟩ } }
    store := {
      capacity := 100, capacity_pos := by decide
      settings := some ⟨⟨UInt64.size * nanosPerSecond - 1, by decide⟩, false, "a"⟩ } }

def readEndless : List (Action Row RecencyStore) :=
  [.move (.go 0), .move (.go 0), .move (.go 0), .move (.deliver 0 (.answered (some (.one (.integer 5))))),
    .move (.goJob 0 0), .move (.goJob 0 0)]

/-- Nothing is stored, and nothing is refused. The data source has a row, and the call that is to store it asks
for a deadline beyond the clock, and breaks down together with the read. -/
theorem endless_lifetime_breaks_read :
    ∃ (w last : World Row RecencyStore) (log : List (Event Row)),
      endless.IsNew ∧ endless.store.settings = some endless.node.cache.settings ∧
      Runs (MissesAlone 0 usersRead.flightName) (endless.enter (.ofQuery usersRead Row.integers)) log w ∧
      deliveriesTo log 0 = [.answered (some (.one (.integer 5)))] ∧
      w.act? (.move (.go 0)) = some last ∧ last.Reads 0 usersRead Row.integers (.ended .brokeDown) ∧
      ¬ FetchOutcome.Gives usersRead.shape (.answered (some (.one (.integer 5)))) (.brokeDown : Answer Row) := by
  have hrun : ((endless.enter (.ofQuery usersRead Row.integers)).perform?
      (MissesAlone 0 usersRead.flightName) readEndless).map (fun last =>
        (deliveriesTo last.2 0, (last.1.act? (.move (.go 0))).map fun w => w.node.activities[0]?)) =
      some ([.answered (some (.one (.integer 5)))],
        some (some (.read usersRead Row.integers (.ended .brokeDown)))) := by cbv
  obtain ⟨⟨w, log⟩, hlast, hfacts⟩ := Option.map_eq_some_iff.mp hrun
  obtain ⟨hdelivered, hended⟩ := Prod.mk.inj hfacts
  obtain ⟨last, hacts, hbroke⟩ := Option.map_eq_some_iff.mp hended
  have new : endless.IsNew := ⟨⟨endless.node.cache.config, "a", rfl⟩, rfl⟩
  refine ⟨w, last, log, new, rfl, .of_perform? hlast, hdelivered, hacts, hbroke, ?_⟩
  intro hgives
  cases hgives

end World

end ReadThrough
