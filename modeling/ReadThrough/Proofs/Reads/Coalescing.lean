import ReadThrough.Proofs.Flights.LateReads
import ReadThrough.Proofs.Reads.Conduct

/-! # Identical reads share one answer

Reads of one key share a flight as long as it can be joined, so there are no more leaders of the key
than one and those whose flights were forgotten. What a leader returns its followers return too, and
they do not ask the data source.

* `World.leaders` counts leaders, `World.timesForgotten` what was forgotten in a run, and
  `leaders_le_of_act?` balances the two;
* `Follows` is what becomes of followers;
* `identical_reads_coalesce` is the theorem.
-/

namespace ReadThrough
set_option autoImplicit false

variable {ρ σ : Type}

/-! ## How many reads lead -/

/-- The activity is a read of this key and leads a flight. -/
def Activity.leadsFor (key : String) : Activity ρ → Bool
  | .read query _ stage => query.flightName == key && stage.leads?.isSome
  | _ => false

theorem Activity.leadsFor_of_idle {query : Query} {format : RowFormat ρ} {stage : ReadStage ρ}
    (h : stage.leads? = none) (key : String) : (read query format stage).leadsFor key = false := by
  simp [leadsFor, h]

theorem Activity.leadsFor_of_leads {query : Query} {format : RowFormat ρ} {stage : ReadStage ρ}
    {flight : FlightId} (h : stage.leads? = some flight) (key : String) :
    (read query format stage).leadsFor key = (query.flightName == key) := by
  simp [leadsFor, h]

/-- 1 if a caller for the key would follow a flight, 0 if it would lead one. -/
def Flights.joinable (flights : Flights Outcome) (key : String) : Nat :=
  (flights.registry[key]?.isSome).toNat

namespace World

def leaders (w : World ρ σ) (key : String) : Nat :=
  w.node.activities.countP (Activity.leadsFor key)

/-- The action forgets the flight of the key: a caller forgets such a read, or a change of the table
that has an effect begins. -/
def forgets (w : World ρ σ) (key : String) : Action ρ σ → Bool
  | .forget query => query.flightName == key && w.flights.registry[key]?.isSome
  | .move (.go i) =>
    match w.node.activities[i]? with
    | some (.change event .ready) =>
      w.node.cache.isInvalidatedBy event && (flightsOf event.table).toList.isPrefixOf key.toList &&
        w.flights.registry[key]?.isSome
    | _ => false
  | _ => false

/-- How often actions, carried out one after another, forget a flight of the key. -/
def timesForgotten [Medium σ] (w : World ρ σ) (key : String) : List (Action ρ σ) → Nat
  | [] => 0
  | action :: rest =>
    (w.forgets key action).toNat +
      match w.act? action with
      | some next => next.timesForgotten key rest
      | none => 0

end World

/-- A turn that makes a read a leader makes its key joinable, and one that makes the key free ends a
leader. -/
theorem FlightTurn.leads_le {query : Query} {format : RowFormat ρ} {flights flights' : Flights Outcome}
    {before after : ReadStage ρ} (turn : FlightTurn query format flights before flights' after)
    (own : ∀ flight, before.leads? = some flight →
      flights.profile? flight = some (query.flightName, .running)) (key : String) :
    ((Activity.read query format after).leadsFor key).toNat + flights.joinable key ≤
      ((Activity.read query format before).leadsFor key).toNat + flights'.joinable key := by
  cases turn with
  | goOn active alone same => simp [Activity.leadsFor, ReadStage.leads?_of_role? same]
  | follow joins registered =>
    rw [Activity.leadsFor_of_idle rfl, Activity.leadsFor_of_idle joins.leads?,
      Flights.join_of_registered registered]
    exact Nat.le_refl _
  | lead joins free leads =>
    rw [Activity.leadsFor_of_leads leads, Activity.leadsFor_of_idle joins.leads?,
      Flights.join_of_free free, Flights.joinable, Flights.joinable, Std.TreeMap.getElem?_insert]
    by_cases hkey : query.flightName = key
    · subst hkey
      simp [free]
    · simp [hkey]
  | @finish _ flight state answer leads ended =>
    obtain ⟨f, hf, hprofile⟩ := Option.map_eq_some_iff.mp (own flight leads)
    obtain ⟨hname, -⟩ := Prod.mk.inj hprofile
    rw [Activity.leadsFor_of_idle rfl, Activity.leadsFor_of_leads leads, Flights.joinable,
      Flights.joinable, Flights.finish_registry state hf]
    by_cases hkey : query.flightName = key
    · have hone : (flights.registry[key]?.isSome).toNat ≤ 1 := Bool.toNat_le _
      simp only [hkey, beq_self_eq_true, Bool.toNat_false, Bool.toNat_true]
      omega
    · split
      · simp
      · simp [Std.TreeMap.getElem?_erase, hname, hkey]
  | adopt | quit =>
    rw [Activity.leadsFor_of_idle rfl, Activity.leadsFor_of_idle rfl]

namespace World

/-! ## The balance of leaders -/

theorem leaders_after {w : World ρ σ} {mover : ActivityId} {activity : Activity ρ}
    (found : w.node.activities[mover]? = some activity) (step : ActivityStep ρ σ) (key : String) :
    (w.after mover step).leaders key + (activity.leadsFor key).toNat =
      w.leaders key + (step.activity.leadsFor key).toNat := by
  obtain ⟨hlt, hget⟩ := List.getElem?_eq_some_iff.mp found
  have hjobs : (step.spawned.map Activity.ofJob).countP (Activity.leadsFor (ρ := ρ) key) = 0 := by
    simp [List.countP_eq_zero, Activity.ofJob, Activity.leadsFor]
  have hcounted := List.boole_getElem_le_countP (p := Activity.leadsFor key) hlt
  rw [hget] at hcounted
  simp only [leaders, after, List.countP_append, hjobs, List.countP_set hlt, hget, Bool.toNat,
    Bool.cond_eq_ite]
  omega

theorem leaders_enter {w : World ρ σ} {activity : Activity ρ} (new : activity.origin = activity)
    (key : String) : (w.enter activity).leaders key = w.leaders key := by
  have hidle : activity.leadsFor key = false := by
    rw [← new]
    cases activity with
    | read query format stage => exact Activity.leadsFor_of_idle rfl key
    | change | job | request => rfl
  simp [leaders, enter, Node.start, hidle]

/-- Activities that are no reads change the cache only when they go on by themselves. -/
theorem cache_of_not_go [Medium σ] {now : Nat} {c : Cache} {store : σ} {activity : Activity ρ}
    {move : Move ρ} {step : ActivityStep ρ σ} (h : activity.move? now c store move = some step)
    (other : activity.isRead = false) (waits : ∀ i, move ≠ .go i) : step.cache = c := by
  cases move with
  | go i => exact absurd rfl (waits i)
  | goJob i index =>
    simp only [Activity.move?, Activity.goJob?, Option.bind_eq_bind, Option.bind_eq_some_iff] at h
    obtain ⟨run, -, taken, -, ⟨⟩⟩ := h
    rfl
  | deliver i outcome => cases activity <;> first | cases h | cases other
  | abort i =>
    cases activity with
    | read => cases other
    | change event stage =>
      cases stage with
      | ready | deleting =>
        cases h
        rfl
      | ended | aborted => cases h
    | job run =>
      cases run with
      | working =>
        cases h
        rfl
      | finished | brokeDown => cases h
    | request asked stage =>
      cases stage with
      | ready | waiting =>
        cases h
        rfl
      | ended | aborted => cases h

variable [Medium σ] {w w' : World ρ σ} {action : Action ρ σ}

/-- Who becomes a leader makes the key joinable; and the key is joinable until its leader ends or it
is forgotten. -/
theorem leaders_le_of_act? (led : Led w) (acts : w.act? action = some w') (key : String) :
    w'.leaders key + w.flights.joinable key ≤
      w.leaders key + w'.flights.joinable key + (w.forgets key action).toNat := by
  cases action with
  | read | change | request =>
    obtain rfl := Option.some.inj acts
    rw [leaders_enter rfl]
    exact Nat.le_add_right _ _
  | wait | disturb =>
    obtain rfl := Option.some.inj acts
    exact Nat.le_add_right _ _
  | forget query =>
    obtain rfl := Option.some.inj acts
    have hflights : (w.forget query).flights = w.flights.forget query.flightName := rfl
    rw [hflights, Flights.joinable, Flights.joinable, Flights.forget_registry, forgets]
    by_cases hkey : query.flightName = key
    · simp [hkey, leaders, forget]
    · simp [hkey, leaders, forget]
  | move move =>
    obtain ⟨activity, step, found, taken, rfl⟩ := act?_move_iff.mp acts
    have hcount := leaders_after found step key
    cases hkind : activity.isRead with
    | true =>
      cases activity with
      | read query format before =>
        obtain ⟨turn, hturn, hactivity, hcache, -⟩ :=
          Activity.move?_read (.free w.now w.node.cache w.store query format before _) taken
        have hflights : (w.after move.activity step).flights = turn.cache.flights := by
          rw [flights, after, hcache]
        have hturn := hturn.flights.leads_le (fun flight hleads => led.leads _ _ _ _ _ found hleads) key
        rw [hactivity] at hcount
        rw [hflights]
        simp only [flights] at hturn ⊢
        omega
      | change | job | request => cases hkind
    | false =>
      have hother := Activity.move?_other taken hkind
      have hidle : ∀ other : Activity ρ, other.isRead = false → other.leadsFor key = false := by
        intro other h
        cases other <;> first | rfl | cases h
      rw [hidle _ hkind, hidle _ (hother.other hkind)] at hcount
      have hflights : (w.after move.activity step).flights = step.cache.flights := rfl
      -- only the first turn of a change forgets anything
      have hbalance : w.flights.joinable key ≤
          step.cache.flights.joinable key + (w.forgets key (.move move)).toNat := by
        rcases hother.flights with hsame | ⟨event, rfl, heffective, hforgot⟩
        · rw [hsame]
          exact Nat.le_add_right _ _
        · cases move with
          | go i =>
            have hready : w.node.activities[i]? = some (.change event .ready) := found
            rw [hforgot, Flights.joinable, Flights.joinable, Flights.forgetStarting_registry, forgets,
              hready]
            by_cases hstarts : (flightsOf event.table).toList <+: key.toList
            · simp [hstarts, List.isPrefixOf_iff_prefix.mpr hstarts, heffective, flights]
            · simp [hstarts, flights]
          | goJob | deliver | abort =>
            rw [cache_of_not_go taken rfl (by simp)]
            exact Nat.le_add_right _ _
      rw [hflights]
      omega

theorem leaders_le_of_perform? {admits : World ρ σ → Action ρ σ → Prop}
    [∀ w action, Decidable (admits w action)] {actions : List (Action ρ σ)} {log : List (Event ρ)}
    (led : Led w) (run : w.perform? admits actions = some (w', log)) (key : String) :
    w'.leaders key + w.flights.joinable key ≤
      w.leaders key + w'.flights.joinable key + w.timesForgotten key actions := by
  induction actions generalizing w log with
  | nil =>
    obtain ⟨rfl, rfl⟩ := Prod.mk.inj (Option.some.inj run)
    exact Nat.le_add_right _ _
  | cons action rest ih =>
    obtain ⟨-, next, later, hact, hrest, -⟩ := perform?_cons_iff.mp run
    have hstep := leaders_le_of_act? led hact key
    have hlater := ih ((act?_flightStep hact).led led) hrest
    rw [timesForgotten, hact]
    dsimp only
    omega

/-! ## What becomes of followers -/

omit [Medium σ] in
theorem FlightStep.keeps_key {events : List (Event ρ)} (step : FlightStep w events w')
    {flight : FlightId} {key : String} {state : FlightState Outcome}
    (h : w.flights.profile? flight = some (key, state)) :
    ∃ state', w'.flights.profile? flight = some (key, state') := by
  cases step with
  | quiet reads flights => exact ⟨state, flights ▸ h⟩
  | forgets reads forgot =>
    obtain ⟨start, hstart | hstart⟩ := forgot
    · exact ⟨state, by rw [hstart, Flights.profile?_forget, h]⟩
    · exact ⟨state, by rw [hstart, Flights.profile?_forgetStarting, h]⟩
  | turn reads was is taken =>
    generalize w'.flights = flights' at taken
    cases taken with
    | goOn | adopt | quit => exact ⟨state, h⟩
    | follow joins registered => exact ⟨state, by rw [Flights.profile?_join_of_registered registered, h]⟩
    | lead joins free leads =>
      refine ⟨state, ?_⟩
      rw [Flights.profile?_join_of_free free, if_neg (Nat.ne_of_lt (Flights.lt_length_of_profile? h)), h]
    | finish leads =>
      rw [Flights.profile?_finish, h]
      dsimp only [Option.map_some]
      split
      · exact ⟨_, rfl⟩
      · exact ⟨state, rfl⟩

/-- What becomes of a read that joined a flight as a follower. Only if the flight was abandoned can it
come to ask the data source. -/
structure Follows (log : List (Event ρ)) (w : World ρ σ) (i : ActivityId) (query : Query)
    (flight : FlightId) : Prop where
  key : ∃ state, w.flights.profile? flight = some (query.flightName, state)
  received : ∃ format, Received i query format flight log w
  unasked : w.flights.state? flight = some .abandoned ∨ ∀ asked, .asked i asked ∉ log

variable {log : List (Event ρ)} {i : ActivityId} {query : Query} {flight : FlightId}

theorem Follows.step (h : Follows log w i query flight) (led : Led w)
    (acts : w.act? action = some w') :
    Follows (log ++ w.events w' action) w' i query flight := by
  have hstep := act?_flightStep acts
  obtain ⟨state, hkey⟩ := h.key
  obtain ⟨format, hreceived⟩ := h.received
  have hnow := hreceived.step led hstep
  refine ⟨hstep.keeps_key hkey, ⟨format, hnow⟩, ?_⟩
  rcases h.unasked with habandoned | hunasked
  · exact .inl (hstep.keeps_state? led (by simp) habandoned)
  · -- who asks waits for the data source afterwards
    have hlater : ∀ stage : ReadStage ρ, w'.Reads i query format stage → stage ≠ .bypassing →
        (∀ flight, stage ≠ .fetching flight) → ∀ asked, .asked i asked ∉ log ++ w.events w' action := by
      intro stage hread hbypasses hfetches asked hmem
      rcases List.mem_append.mp hmem with hold | hnew
      · exact hunasked asked hold
      · obtain ⟨format', stage', hread', hwaits⟩ := of_asked acts hnew
        obtain ⟨-, -, rfl⟩ := hread.inj hread'
        rcases hwaits with hbypass | ⟨fetched, hfetch⟩
        · exact hbypasses hbypass
        · exact hfetches fetched hfetch
    cases hnow with
    | again left => exact .inl left
    | waiting hread => exact .inr (hlater _ hread (by simp) (by simp))
    | broken hread => exact .inr (hlater _ hread (by simp) (by simp))
    | answered outcome result left gives hread => exact .inr (hlater _ hread (by simp) (by simp))

theorem Follows.of_joined (acts : w.act? action = some w') (led : Led w')
    (obeys : Obeys (conduct .none) (log ++ w.events w' action) w')
    (joined : .joined i query (.follower flight) ∈ w.events w' action) :
    Follows (log ++ w.events w' action) w' i query flight := by
  obtain ⟨format, before, after, -, hread, -, -, -, hrole⟩ := (act?_flightStep acts).of_joined joined
  obtain rfl := ReadStage.role?_eq_follower_iff.mp hrole
  refine ⟨led.follows i query format flight hread, ⟨format, .waiting hread⟩, .inr ?_⟩
  exact obeys.reads i query format _ hread

theorem follows_of_run {admits : World ρ σ → Action ρ σ → Prop} (new : w.IsNew)
    (run : Runs admits w log w') (joined : .joined i query (.follower flight) ∈ log) :
    Follows log w' i query flight := by
  induction run with
  | refl => cases joined
  | step action run admitted acts ih =>
    have hled := (Led.of_new new).run run
    rcases List.mem_append.mp joined with hold | hnew
    · exact (ih hold).step hled acts
    · have hlater : Runs admits w _ _ := .step action run admitted acts
      exact .of_joined acts ((Led.of_new new).run hlater) (conducted_of_run new hlater) hnew

/-- A flight has one leader: flights are numbered in the order in which they start. -/
theorem leader_unique_of_run {admits : World ρ σ → Action ρ σ → Prop} (run : Runs admits w log w')
    {i j : ActivityId} {query query' : Query} (first : .joined i query (.leader flight) ∈ log)
    (second : .joined j query' (.leader flight) ∈ log) : i = j ∧ query = query' := by
  induction run with
  | refl => cases first
  | @step log w₁ w₂ action run _ acts ih =>
    have hstep := act?_flightStep acts
    have hapart : ∀ {i j query query'}, .joined i query (.leader flight) ∈ log →
        .joined j query' (.leader flight) ∉ w₁.events w₂ action := by
      intro i j query query' hold hnew
      have hlt := ((leaderJoined_of_run run).2 flight ⟨i, query, hold⟩).2
      have hnow := (hstep.of_leaderJoined ⟨j, query', hnew⟩).1
      exact absurd hlt (hnow ▸ Nat.lt_irrefl _)
    rcases List.mem_append.mp first with hold | hnew <;>
      rcases List.mem_append.mp second with hold' | hnew'
    · exact ih hold hold'
    · exact absurd hnew' (hapart hold)
    · exact absurd hnew (hapart hold')
    · generalize w₁.events w₂ action = events at hstep hnew hnew'
      cases hstep with
      | quiet => cases hnew
      | forgets => cases hnew
      | turn reads was is taken =>
        obtain ⟨rfl, rfl, -⟩ := joined_mem_events.mp hnew
        obtain ⟨rfl, rfl, -⟩ := joined_mem_events.mp hnew'
        exact ⟨rfl, rfl⟩

/-! ## Coalescing -/

/-- What a read has come to that shares a result: it returned it, or it was broken off, or its next turn
returns it without asking the data source. -/
inductive EndsWith (w : World ρ σ) (i : ActivityId) (query : Query) (format : RowFormat ρ)
    (result : ReadResult ρ) : Prop
  | returned (h : w.Reads i query format (.ended (.returned result)))
  | broken (h : w.Reads i query format (.ended .aborted))
  | next {w' : World ρ σ} (turn : w.act? (.move (.go i)) = some w')
      (h : w'.Reads i query format (.ended (.returned result)))
      (quiet : ∀ asked, .asked i asked ∉ w.events w' (.move (.go i)))

/-- What has become of all reads that joined a flight as followers, whose leader was a read of this
query in this row format and returned this result. -/
structure Shared (log : List (Event ρ)) (w : World ρ σ) (flight : FlightId) (query : Query)
    (format : RowFormat ρ) (result : ReadResult ρ) : Prop where
  alike : ∀ i query', .joined i query' (.follower flight) ∈ log →
    query'.flightName = query.flightName
  unasked : ∀ i query' asked, .joined i query' (.follower flight) ∈ log → .asked i asked ∉ log
  there : ∀ i query', .joined i query' (.follower flight) ∈ log →
    ∃ format' stage, w.Reads i query' format' stage
  ends : format.ReadsBackResult result → ∀ i query' stage,
    .joined i query' (.follower flight) ∈ log → w.Reads i query' format stage →
    EndsWith w i query' format result

/-- A follower of a completed flight returns what the flight has left, now or in its next turn. -/
theorem Follows.endsWith {format : RowFormat ρ} {stage : ReadStage ρ} {outcome : Outcome}
    {result : ReadResult ρ} (h : Follows log w i query flight) (led : Led w)
    (left : w.flights.state? flight = some (.completed outcome))
    (read : w.Reads i query format stage) (adopts : Read.adopt format outcome = result) :
    EndsWith w i query format result := by
  obtain ⟨format', hreceived⟩ := h.received
  cases hreceived with
  | again habandoned _ => cases left.symm.trans habandoned
  | broken hread =>
    obtain ⟨-, rfl, -⟩ := read.inj hread
    exact .broken hread
  | answered outcome' result' left' gives hread =>
    obtain ⟨-, rfl, -⟩ := read.inj hread
    obtain rfl := FlightState.completed.inj (Option.some.inj (left.symm.trans left'))
    obtain rfl := gives.eq_adopt.trans adopts
    exact .returned hread
  | waiting hread =>
    obtain ⟨-, rfl, rfl⟩ := read.inj hread
    rcases led.follower_goes_on hread with ⟨j, query', format', stage, hleader, hleads⟩ | ⟨w', hturn, hgoes⟩
    · have hrunning := Flights.state?_of_profile? (led.leads j _ _ _ _ hleader hleads)
      cases left.symm.trans hrunning
    · cases hgoes with
      | returns outcome' result' left' gives hends =>
        obtain rfl := FlightState.completed.inj (Option.some.inj (left.symm.trans left'))
        obtain rfl := gives.eq_adopt.trans adopts
        refine .next hturn hends fun asked hmem => ?_
        obtain ⟨format'', stage', hwaits, hstage⟩ := of_asked hturn hmem
        obtain ⟨-, -, rfl⟩ := hends.inj hwaits
        rcases hstage with hstage | ⟨fetched, hstage⟩ <;> cases hstage
      | joins habandoned => cases left.symm.trans habandoned

/-- In every run, the leaders of a key are at most one more than the times that a flight of the key was
forgotten; and when a leader has left an outcome, all its followers return what the leader returned,
without asking the data source, if they read rows in the same format and it reads back what it wrote
for the leader. -/
theorem identical_reads_coalesce {w w' : World ρ σ} {actions : List (Action ρ σ)}
    {log : List (Event ρ)} (new : w.IsNew)
    (run : w.perform? Unrestricted actions = some (w', log)) :
    (∀ key, w'.leaders key ≤ 1 + w.timesForgotten key actions) ∧
    ∀ leader query flight outcome, .joined leader query (.leader flight) ∈ log →
      w'.flights.state? flight = some (.completed outcome) →
      ∃ format result, w'.Reads leader query format (.ended (.returned result)) ∧
        Shared log w' flight query format result := by
  constructor
  · intro key
    have hbalance := leaders_le_of_perform? (Led.of_new new) run key
    have hnone : w.leaders key = 0 := by simp [leaders, new.2]
    have hone : w'.flights.joinable key ≤ 1 := Bool.toNat_le _
    omega
  · intro leader query flight outcome hjoined hleft
    have hruns : Runs Unrestricted w log w' := .of_perform? run
    have hobeys := conducted_of_run new hruns
    have hfollows : ∀ i query', .joined i query' (.follower flight) ∈ log →
        Follows log w' i query' flight := fun _ _ hjoined => follows_of_run new hruns hjoined
    rw [Flights.state?_eq_profile?] at hleft
    obtain ⟨⟨key, _⟩, hprofile, rfl⟩ := Option.map_eq_some_iff.mp hleft
    obtain ⟨i, query', format, result, rfl, hled, hread, hleaves⟩ := hobeys.left _ _ _ hprofile
    obtain ⟨rfl, rfl⟩ := leader_unique_of_run hruns hjoined hled
    refine ⟨format, result, hread, ?_, ?_, ?_, ?_⟩
    · intro i query' hfollower
      obtain ⟨state, hkey⟩ := (hfollows i query' hfollower).key
      exact (Prod.mk.inj (Option.some.inj (hkey.symm.trans hprofile))).1
    · intro i query' asked hfollower
      rcases (hfollows i query' hfollower).unasked with habandoned | hunasked
      · cases (Flights.state?_of_profile? hprofile).symm.trans habandoned
      · exact hunasked asked
    · intro i query' hfollower
      obtain ⟨_, format', stage, ⟨rfl, -⟩, hthere⟩ := hobeys.known _ hfollower
      exact ⟨format', stage, hthere⟩
    · intro hback i query' stage hfollower hthere
      exact (hfollows i query' hfollower).endsWith hobeys.led
        (Flights.state?_of_profile? hprofile) hthere (hleaves.adopt hback)

/-- Four alike reads, of which the second follows the first; the third and the fourth begin after the
flight of the key was forgotten, and then the first returns the number that it fetched. -/
def sharedReads : List (Action Row RecordingStore) :=
  twoReads 0 1 ++ [.forget usersRead, .read usersRead Row.integers, .move (.go 2),
    .forget usersRead, .read usersRead Row.integers, .move (.go 3), .move (.go 0), .move (.go 0),
    .move (.deliver 0 (.answered (some (.one (.integer 5))))), .move (.goJob 0 0), .move (.goJob 0 0),
    .move (.goJob 0 1), .move (.goJob 0 1), .move (.go 0), .move (.go 1)]

/-- The second read returned what the first did; the third and the fourth still lead. -/
theorem second_read_shares_number :
    ∃ (w : World Row RecordingStore) (log : List (Event Row)),
      atRest.IsNew ∧ atRest.perform? Unrestricted sharedReads = some (w, log) ∧
      atRest.timesForgotten usersRead.flightName sharedReads = 2 ∧
      w.leaders usersRead.flightName = 2 ∧ w.leaders usersRead.flightName ≤ 1 + 2 ∧
      Event.joined 0 usersRead (.leader 0) ∈ log ∧ Event.joined 1 usersRead (.follower 0) ∈ log ∧
      w.flights.state? 0 = some (.completed (.found "[5]" 1)) ∧
      w.EndsWith 1 usersRead Row.integers (.ok (some (.one (.integer 5)))) := by
  have hrun : (atRest.perform? Unrestricted sharedReads).map (fun last =>
      (last.1.node.activities[0]?, last.1.node.activities[1]?, last.1.leaders usersRead.flightName,
        last.1.flights.state? 0, last.2)) =
      some (some (.read usersRead Row.integers (.ended (.returned (.ok (some (.one (.integer 5))))))),
        some (.read usersRead Row.integers (.ended (.returned (.ok (some (.one (.integer 5))))))), 2,
        some (.completed (.found "[5]" 1)),
        [.joined 0 usersRead (.leader 0), .joined 1 usersRead (.follower 0),
          .joined 2 usersRead (.leader 1), .joined 3 usersRead (.leader 2), .asked 0 usersRead,
          .delivered 0 usersRead Row.integers (.answered (some (.one (.integer 5)))),
          .adopted 1 usersRead 0]) := by cbv
  have hforgotten : atRest.timesForgotten usersRead.flightName sharedReads = 2 := by cbv
  have hback : Row.integers.ReadsBackResult (.ok (some (.one (.integer 5)))) := by
    have hencoded : Row.integers.encodeAll [.integer 5] = some "[5]" := by cbv
    have hdecoded : Row.integers.decodeAll "[5]" = some [.integer 5] := by cbv
    intro found hfound payload hpayload
    obtain rfl := Option.some.inj (Except.ok.inj hfound)
    obtain rfl := Option.some.inj (hencoded.symm.trans hpayload)
    exact hdecoded
  obtain ⟨⟨w, log⟩, run, hfacts⟩ := Option.map_eq_some_iff.mp hrun
  simp only [Prod.mk.injEq] at hfacts
  obtain ⟨first, second, hleaders, hleft, hlog⟩ := hfacts
  have new : atRest.IsNew := ⟨⟨{}, "a", rfl⟩, rfl⟩
  have hled : Event.joined 0 usersRead (.leader 0) ∈ log := by simp [hlog]
  have hfollowed : Event.joined 1 usersRead (.follower 0) ∈ log := by simp [hlog]
  obtain ⟨hbound, hshared⟩ := identical_reads_coalesce new run
  obtain ⟨format, result, hread, hshares⟩ := hshared 0 usersRead 0 _ hled hleft
  obtain ⟨-, rfl, hended⟩ := World.Reads.inj first hread
  obtain rfl := Answer.returned.inj (ReadStage.ended.inj hended)
  exact ⟨w, log, new, run, hforgotten, hleaders, hforgotten ▸ hbound _, hled, hfollowed, hleft,
    hshares.ends hback 1 usersRead _ hfollowed second⟩

end World

end ReadThrough
