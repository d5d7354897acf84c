import ReadThrough.Proofs.Flights.History
import ReadThrough.Proofs.Reads.Coalescing

/-! # No orphaned reads

A flight can be joined as long as its leader is at work and nobody forgot it, and who waits for a flight
waits for a leader that is at work. So nothing has to be tidied up after reads, however they end.

* `World.forgot` says of a run which flights were forgotten in it;
* `World.registered_iff_of_perform?`: a running flight is registered exactly if it was not forgotten;
* `World.no_orphaned_reads` counts the flights that can be joined, and says who waits for whom.
-/

namespace ReadThrough
set_option autoImplicit false

variable {ρ σ : Type}

/-- The flight that an activity leads. -/
def Activity.leads? : Activity ρ → Option FlightId
  | .read _ _ stage => stage.leads?
  | _ => none

namespace World

theorem leads_iff_leads? {w : World ρ σ} {i : ActivityId} {flight : FlightId} :
    w.Leads i flight ↔
      ∃ activity, w.node.activities[i]? = some activity ∧ activity.leads? = some flight := by
  constructor
  · intro ⟨query, format, stage, hread, hleads⟩
    exact ⟨_, hread, hleads⟩
  · intro ⟨activity, found, hleads⟩
    cases activity with
    | read query format stage => exact ⟨query, format, stage, found, hleads⟩
    | change | job | request => cases hleads

/-! ## Which flights were forgotten -/

/-- The action forgets the key of the flight, which has started. -/
def forgetsFlight (w : World ρ σ) (flight : FlightId) (action : Action ρ σ) : Bool :=
  (w.flights.profile? flight).any fun profile => w.forgets profile.1 action

/-- Whether the key of a flight was forgotten after the flight had started, while actions were carried
out one after another. -/
def forgot [Medium σ] (w : World ρ σ) (flight : FlightId) : List (Action ρ σ) → Bool
  | [] => false
  | action :: rest =>
    w.forgetsFlight flight action ||
      match w.act? action with
      | some next => next.forgot flight rest
      | none => false

/-- The flight has not started yet, or can be joined under this key. -/
def Joinable (w : World ρ σ) (flight : FlightId) (key : String) : Prop :=
  w.flights.profile? flight = none ∨ w.flights.registry[key]? = some flight

theorem joinable_of_profile {w : World ρ σ} {flight : FlightId} {key : String}
    {profile : String × FlightState Outcome} (started : w.flights.profile? flight = some profile) :
    w.Joinable flight key ↔ w.flights.registry[key]? = some flight := by
  simp [Joinable, started]

end World

/-- A turn of a read forgets nothing: a running flight can be joined afterwards if it could be before, or
has just started. -/
theorem FlightTurn.registered_iff {query : Query} {format : RowFormat ρ}
    {flights flights' : Flights Outcome} {before after : ReadStage ρ}
    (turn : FlightTurn query format flights before flights' after) (exact : flights.Exact)
    (own : ∀ flight, before.leads? = some flight →
      flights.profile? flight = some (query.flightName, .running))
    {flight : FlightId} {key : String} (running : flights'.profile? flight = some (key, .running)) :
    flights'.registry[key]? = some flight ↔
      flights.profile? flight = none ∨ flights.registry[key]? = some flight := by
  cases turn with
  | goOn | adopt | quit => simp [running]
  | follow joins registered =>
    rw [Flights.profile?_join_of_registered registered] at running
    rw [Flights.join_of_registered registered]
    simp [running]
  | lead joins free leads =>
    rw [Flights.profile?_join_of_free free] at running
    rw [Flights.join_of_free free, Std.TreeMap.getElem?_insert]
    split at running
    · rename_i hnew
      have hnone : flights.profile? flight = none := by simp [Flights.profile?, hnew]
      obtain ⟨rfl, -⟩ := Prod.mk.inj (Option.some.inj running)
      rw [hnone, hnew]
      simp
    · rename_i hold
      by_cases hkey : query.flightName = key
      · subst hkey
        simp [running, free, Ne.symm hold]
      · simp [running, hkey]
  | @finish _ ended state answer leads hstate =>
    rw [Flights.profile?_finish] at running
    obtain ⟨⟨key', state'⟩, hbefore, hnow⟩ := Option.map_eq_some_iff.mp running
    have hne : ended ≠ flight := by
      intro hsame
      rw [if_pos hsame] at hnow
      exact hstate (Prod.mk.inj hnow).2
    have hboth : flights.profile? flight ≠ none := by simp [hbefore]
    constructor
    · intro hregistered
      exact .inr (Flights.registry_of_finish hregistered)
    · intro hbefore
      have hregistered := hbefore.resolve_left hboth
      obtain ⟨f, hf, hprofile⟩ := Option.map_eq_some_iff.mp (own ended leads)
      obtain ⟨hname, hrunning⟩ := Prod.mk.inj hprofile
      rw [Flights.finish_registry state hf]
      by_cases hforgotten : f.forgotten
      · rwa [if_pos hforgotten]
      · -- the flight that ends is registered under its own key, so this is another key
        have hself := (exact f.key ended).mpr ⟨f, hf, rfl, hrunning, by simpa using hforgotten⟩
        have hkeys : f.key ≠ key := by
          intro hsame
          rw [hsame, hregistered] at hself
          exact hne (Option.some.inj hself).symm
        rw [if_neg hforgotten, Std.TreeMap.getElem?_erase]
        simpa [hkeys] using hregistered

namespace World

variable [Medium σ] {w w' : World ρ σ} {action : Action ρ σ}

omit [Medium σ] in
theorem forgetsFlight_of_started {flight : FlightId} {key : String} {state : FlightState Outcome}
    (h : w.flights.profile? flight = some (key, state)) (action : Action ρ σ) :
    w.forgetsFlight flight action = w.forgets key action := by
  simp [forgetsFlight, h]

/-- A move of another activity than a read leaves the flights and forgets nothing, unless it is the first
turn of a change that has an effect. -/
theorem forgets_of_move {move : Move ρ} {activity : Activity ρ} {step : ActivityStep ρ σ}
    (found : w.node.activities[move.activity]? = some activity)
    (taken : activity.move? w.now w.node.cache w.store move = some step)
    (other : activity.isRead = false) :
    (∃ i event, move = .go i ∧ w.node.activities[i]? = some (.change event .ready) ∧
      w.node.cache.isInvalidatedBy event) ∨
    (step.cache.flights = w.flights ∧ ∀ key, w.forgets key (.move move) = false) := by
  by_cases hchange : ∃ i event, move = .go i ∧ w.node.activities[i]? = some (.change event .ready) ∧
      w.node.cache.isInvalidatedBy event
  · exact .inl hchange
  · right
    constructor
    · rcases (Activity.move?_other taken other).flights with hsame | ⟨event, rfl, heffective, -⟩
      · exact hsame
      · have hwaits : ∀ i, move ≠ .go i := by
          rintro i rfl
          exact hchange ⟨i, event, rfl, found, heffective⟩
        rw [cache_of_not_go taken rfl hwaits]
        rfl
    · intro key
      cases move with
      | goJob | deliver | abort => rfl
      | go i =>
        simp only [forgets]
        split
        · rename_i event hready
          have hidle : w.node.cache.isInvalidatedBy event = false :=
            Bool.eq_false_iff.mpr fun heffective => hchange ⟨i, event, rfl, hready, heffective⟩
          simp [hidle]
        · rfl

/-- A flight that runs after a step can be joined exactly if it could be before, or has just started, and
the step has not forgotten it. -/
theorem registered_iff_of_act? (led : Led w) (acts : w.act? action = some w') {flight : FlightId}
    {key : String} (running : w'.flights.profile? flight = some (key, .running)) :
    w'.flights.registry[key]? = some flight ↔
      w.Joinable flight key ∧ w.forgetsFlight flight action = false := by
  have hquiet : w'.flights = w.flights → w.forgets key action = false →
      (w'.flights.registry[key]? = some flight ↔
        w.Joinable flight key ∧ w.forgetsFlight flight action = false) := by
    intro hsame hkept
    rw [hsame] at running ⊢
    rw [forgetsFlight_of_started running, joinable_of_profile running, hkept]
    simp
  cases action with
  | read | change | request | wait | disturb =>
    obtain rfl := Option.some.inj acts
    exact hquiet rfl rfl
  | forget query =>
    obtain rfl := Option.some.inj acts
    have hflights : (w.forget query).flights = w.flights.forget query.flightName := rfl
    rw [hflights, Flights.profile?_forget] at running
    rw [hflights, Flights.forget_registry, forgetsFlight_of_started running,
      joinable_of_profile running, forgets]
    by_cases hkey : query.flightName = key
    · cases hregistered : w.flights.registry[key]? <;> simp [hkey]
    · simp [hkey]
  | move move =>
    obtain ⟨activity, step, found, taken, rfl⟩ := act?_move_iff.mp acts
    have hflights : (w.after move.activity step).flights = step.cache.flights := rfl
    cases hkind : activity.isRead with
    | true =>
      cases activity with
      | read query format before =>
        obtain ⟨turn, hturn, -, hcache, -⟩ :=
          Activity.move?_read (.free w.now w.node.cache w.store query format before _) taken
        have hkept : w.forgetsFlight flight (.move move) = false := by
          have hnone : ∀ key, w.forgets key (.move move) = false := by
            intro key
            cases move with
            | go i => simp only [forgets, show w.node.activities[i]? = _ from found]
            | goJob | deliver | abort => rfl
          simp [forgetsFlight, hnone]
        rw [hflights, hcache] at running ⊢
        rw [hkept, hturn.flights.registered_iff led.exact
          (fun flight hleads => led.leads _ _ _ _ _ found hleads) running]
        simp [Joinable, flights]
      | change | job | request => cases hkind
    | false =>
      rcases forgets_of_move found taken hkind with ⟨i, event, rfl, hready, heffective⟩ |
        ⟨hsame, hkept⟩
      · have hforgot := (of_change_turn hready heffective acts).1
        rw [hforgot, Flights.profile?_forgetStarting] at running
        rw [hforgot, Flights.forgetStarting_registry, forgetsFlight_of_started running,
          joinable_of_profile running]
        simp only [forgets, hready, heffective]
        by_cases hstarts : (flightsOf event.table).toList <+: key.toList
        · cases hregistered : w.flights.registry[key]? <;>
            simp [hstarts, List.isPrefixOf_iff_prefix.mpr hstarts]
        · simp [hstarts]
      · exact hquiet (hflights.trans hsame) (hkept key)

/-- A flight keeps its key in any run, and what became of it. -/
theorem profile_of_run {admits : World ρ σ → Action ρ σ → Prop} {log : List (Event ρ)} (led : Led w)
    (run : Runs admits w log w') {flight : FlightId} {key : String} {state : FlightState Outcome}
    (h : w.flights.profile? flight = some (key, state)) :
    ∃ state', w'.flights.profile? flight = some (key, state') ∧ (state ≠ .running → state' = state) := by
  induction run with
  | refl => exact ⟨state, h, fun _ => rfl⟩
  | step action run _ acts ih =>
    obtain ⟨state', hprofile, hended⟩ := ih
    have hstep := act?_flightStep acts
    by_cases hruns : state = .running
    · obtain ⟨state'', hprofile'⟩ := hstep.keeps_key hprofile
      exact ⟨state'', hprofile', fun hends => absurd hruns hends⟩
    · obtain rfl := hended hruns
      exact ⟨state', hstep.keeps_ended (led.run run) hruns hprofile, fun _ => rfl⟩

theorem running_of_run {admits : World ρ σ → Action ρ σ → Prop} {log : List (Event ρ)} (led : Led w)
    (run : Runs admits w log w') {flight : FlightId} {key : String}
    {profile : String × FlightState Outcome} (started : w.flights.profile? flight = some profile)
    (running : w'.flights.profile? flight = some (key, .running)) : profile = (key, .running) := by
  obtain ⟨state', hprofile, hended⟩ := profile_of_run led run started
  obtain ⟨hkey, hstate⟩ := Prod.mk.inj (Option.some.inj (hprofile.symm.trans running))
  refine Prod.ext hkey ?_
  by_cases hruns : profile.2 = .running
  · exact hruns
  · exact absurd ((hended hruns).symm.trans hstate) hruns

theorem registered_iff_of_perform? {actions : List (Action ρ σ)} {log : List (Event ρ)}
    (led : Led w) (run : w.perform? Unrestricted actions = some (w', log)) {flight : FlightId}
    {key : String} (running : w'.flights.profile? flight = some (key, .running)) :
    w'.flights.registry[key]? = some flight ↔
      w.Joinable flight key ∧ w.forgot flight actions = false := by
  induction actions generalizing w log with
  | nil =>
    obtain ⟨rfl, -⟩ := Prod.mk.inj (Option.some.inj run)
    simp [joinable_of_profile running, forgot]
  | cons action rest ih =>
    obtain ⟨-, next, later, hact, hrest, -⟩ := perform?_cons_iff.mp run
    have hstep := act?_flightStep hact
    have hnext := hstep.led led
    rw [ih hnext hrest, forgot, hact, Bool.or_eq_false_iff, ← and_assoc]
    refine and_congr_left fun _ => ?_
    -- the flight starts later, or it has started and runs all the time
    cases hprofile : next.flights.profile? flight with
    | none =>
      have hbefore : w.flights.profile? flight = none := by
        cases hold : w.flights.profile? flight with
        | none => rfl
        | some profile =>
          obtain ⟨state, hkept⟩ := hstep.keeps_key hold
          cases hprofile.symm.trans hkept
      simp [Joinable, hprofile, hbefore, forgetsFlight]
    | some profile =>
      obtain rfl := running_of_run hnext (Runs.of_perform? hrest) hprofile running
      rw [joinable_of_profile hprofile]
      exact registered_iff_of_act? led hact hprofile

/-! ## Counting -/

/-- The flights that are led, in the order of their leaders. -/
def ledFlights (w : World ρ σ) : List FlightId := w.node.activities.filterMap Activity.leads?

omit [Medium σ] in
theorem mem_ledFlights {w : World ρ σ} {flight : FlightId} :
    flight ∈ w.ledFlights ↔ ∃ i, w.Leads i flight := by
  rw [ledFlights, List.mem_filterMap]
  simp only [leads_iff_leads?, List.mem_iff_getElem?]
  constructor
  · intro ⟨activity, ⟨i, found⟩, hleads⟩
    exact ⟨i, activity, found, hleads⟩
  · intro ⟨i, activity, found, hleads⟩
    exact ⟨activity, ⟨i, found⟩, hleads⟩

omit [Medium σ] in
theorem Led.nodup_ledFlights {w : World ρ σ} (h : Led w) : w.ledFlights.Nodup := by
  rw [ledFlights, List.Nodup, List.pairwise_filterMap, List.pairwise_iff_getElem]
  intro i j hi hj hlt flight hleads flight' hleads' hsame
  subst hsame
  have hfirst : w.Leads i flight := leads_iff_leads?.mpr ⟨_, List.getElem?_eq_getElem hi, hleads⟩
  have hsecond : w.Leads j flight := leads_iff_leads?.mpr ⟨_, List.getElem?_eq_getElem hj, hleads'⟩
  have heq : i = j := h.unique i j flight hfirst hsecond
  omega

omit [Medium σ] in
/-- If the flights that can be joined are those that are led, but for some, then as many can be joined as
there are leaders of the others. -/
theorem Led.openCount_eq {w : World ρ σ} (h : Led w) {except : FlightId → Bool}
    (registered : ∀ flight key, w.flights.profile? flight = some (key, .running) →
      (w.flights.registry[key]? = some flight ↔ except flight = false)) :
    w.flights.openCount =
      w.node.activities.countP fun activity => activity.leads?.any fun flight => !except flight := by
  have hsame : (w.flights.registry.toList.map (·.2)).Perm
      (w.ledFlights.filter fun flight => !except flight) := by
    rw [List.perm_ext_iff_of_nodup h.exact.sound.nodup_registered (h.nodup_ledFlights.filter _)]
    intro flight
    simp only [List.mem_map, Prod.exists, exists_eq_right, List.mem_filter, mem_ledFlights,
      Std.TreeMap.mem_toList_iff_getElem?_eq_some, Bool.not_eq_true']
    constructor
    · rintro ⟨key, hregistered⟩
      obtain ⟨f, hf, rfl, hopen⟩ := h.exact.sound key flight hregistered
      have hprofile : w.flights.profile? flight = some (f.key, .running) := by
        simp [Flights.profile?, hf, hopen.1]
      exact ⟨h.led flight f.key hprofile, (registered flight f.key hprofile).mp hregistered⟩
    · rintro ⟨⟨i, query, format, stage, hread, hleads⟩, hout⟩
      have hprofile := h.leads i query format stage flight hread hleads
      exact ⟨query.flightName, (registered flight _ hprofile).mpr hout⟩
  rw [Flights.openCount, ← Std.TreeMap.length_toList, ← List.length_map (·.2), hsame.length_eq,
    ← List.countP_eq_length_filter, ledFlights, List.countP_filterMap]
  refine List.countP_congr fun activity _ => ?_
  cases activity.leads? <;> simp

/-! ## Nobody is left behind -/

/-- Who follows a flight that is led has to wait. -/
theorem Led.follower_waits (h : Led w) {i j : ActivityId} {query : Query} {format : RowFormat ρ}
    {flight : FlightId} (follows : w.Reads i query format (.following flight))
    (leads : w.Leads j flight) : w.act? (.move (.go i)) = none := by
  obtain ⟨leader, format', stage, hread, hleads⟩ := leads
  have hstate : w.node.cache.flights.state? flight = some .running :=
    Flights.state?_of_profile? (h.leads j leader format' stage flight hread hleads)
  have found : w.node.activities[i]? = some (.read query format (.following flight)) := follows
  simp [act?, Node.move?, Move.activity, found, Activity.move?, Activity.go?, Activity.goRead?,
    Read.afterFlight?, hstate]

omit [Medium σ] in
theorem Led.leader_of_follower (h : Led w) {i j : ActivityId} {query : Query} {format : RowFormat ρ}
    {flight : FlightId} (follows : w.Reads i query format (.following flight))
    (leads : w.Leads j flight) :
    ∃ leader format' stage, w.Reads j leader format' stage ∧ stage.leads? = some flight ∧
      leader.flightName = query.flightName := by
  obtain ⟨leader, format', stage, hread, hleads⟩ := leads
  obtain ⟨state, hprofile⟩ := h.follows i query format flight follows
  have hrunning := h.leads j leader format' stage flight hread hleads
  exact ⟨leader, format', stage, hread, hleads,
    (Prod.mk.inj (Option.some.inj (hrunning.symm.trans hprofile))).1⟩

/-- Who leads and who waits, when some flights were forgotten. -/
structure NoOrphans (w : World ρ σ) (forgotten : FlightId → Bool) : Prop where
  /-- As many flights can be joined as there are reads that lead one which was not forgotten. -/
  count : w.flights.openCount =
    w.node.activities.countP fun activity => activity.leads?.any fun flight => !forgotten flight
  /-- Who has to wait for a flight waits for a read of the same key that leads it. -/
  waits : ∀ i query format flight, w.Reads i query format (.following flight) →
    (w.act? (.move (.go i)) = none ↔ ∃ j leader format' stage, w.Reads j leader format' stage ∧
      stage.leads? = some flight ∧ leader.flightName = query.flightName)
  /-- Once no read leads a flight, none can be joined, and nobody has to wait for one. -/
  settled : (∀ i flight, ¬ w.Leads i flight) → w.flights.openCount = 0 ∧
    ∀ i query format flight, w.Reads i query format (.following flight) →
      ∃ next, w.act? (.move (.go i)) = some next ∧ w.GoesOn i query format flight next

theorem Led.goes_on_of_idle (h : Led w) (idle : ∀ i flight, ¬ w.Leads i flight) {i : ActivityId}
    {query : Query} {format : RowFormat ρ} {flight : FlightId}
    (follows : w.Reads i query format (.following flight)) :
    ∃ next, w.act? (.move (.go i)) = some next ∧ w.GoesOn i query format flight next := by
  rcases h.follower_goes_on follows with ⟨j, hleads⟩ | hgoes
  · exact absurd hleads (idle j flight)
  · exact hgoes

omit [Medium σ] in
theorem countP_leads_of_idle (idle : ∀ i flight, ¬ w.Leads i flight) (counted : FlightId → Bool) :
    (w.node.activities.countP fun activity => activity.leads?.any counted) = 0 := by
  rw [List.countP_eq_zero]
  intro activity hmem
  obtain ⟨i, found⟩ := List.mem_iff_getElem?.mp hmem
  have hnone : activity.leads? = none := by
    apply Option.eq_none_iff_forall_ne_some.mpr
    intro flight hleads
    exact idle i flight (leads_iff_leads?.mpr ⟨activity, found, hleads⟩)
  simp [hnone]

/-- After any actions on a new cache, whatever its store does: as many flights can be joined as reads
lead a flight that was not forgotten in the run, whoever has to wait for a flight waits for a leader at
work, and once no read leads a flight any more none can be joined and nobody has to wait. -/
theorem no_orphaned_reads {actions : List (Action ρ σ)} {log : List (Event ρ)} (new : w.IsNew)
    (run : w.perform? Unrestricted actions = some (w', log)) :
    NoOrphans w' fun flight => w.forgot flight actions := by
  have hstart : Led w := .of_new new
  have hled : Led w' := hstart.run (Runs.of_perform? run)
  have hnone : ∀ flight, w.flights.profile? flight = none := by
    intro flight
    rw [new.flights]
    rfl
  have hcount : w'.flights.openCount = w'.node.activities.countP fun activity =>
      activity.leads?.any fun flight => !w.forgot flight actions := by
    apply hled.openCount_eq
    intro flight key running
    rw [registered_iff_of_perform? hstart run running]
    simp [Joinable, hnone]
  refine ⟨hcount, ?_, ?_⟩
  · intro i query format flight follows
    constructor
    · intro hwaits
      rcases hled.follower_goes_on follows with ⟨j, hleads⟩ | ⟨next, hturn, -⟩
      · exact ⟨j, hled.leader_of_follower follows hleads⟩
      · cases hwaits.symm.trans hturn
    · rintro ⟨j, leader, format', stage, hread, hleads, -⟩
      exact hled.follower_waits follows ⟨leader, format', stage, hread, hleads⟩
  · intro idle
    refine ⟨?_, fun _ _ _ _ follows => hled.goes_on_of_idle idle follows⟩
    rw [hcount, countP_leads_of_idle idle]

/-- Two alike reads share a flight that is then forgotten, two more share another, and the leader of the
first is broken off. -/
def readsAmidForgetting : List (Action Row RecordingStore) :=
  twoReads 0 1 ++ [.forget usersRead] ++ twoReads 2 3 ++ [.move (.abort 0)]

/-- The last read waits for the third, which leads the only flight that can be joined. -/
theorem last_read_waits_for_third :
    ∃ (w : World Row RecordingStore) (log : List (Event Row)),
      atRest.IsNew ∧ atRest.perform? Unrestricted readsAmidForgetting = some (w, log) ∧
      atRest.forgot 0 readsAmidForgetting = true ∧ atRest.forgot 1 readsAmidForgetting = false ∧
      w.flights.openCount = 1 ∧ w.Reads 3 usersRead Row.integers (.following 1) ∧ w.Leads 2 1 ∧
      w.NoOrphans fun flight => atRest.forgot flight readsAmidForgetting := by
  have hrun : (atRest.perform? Unrestricted readsAmidForgetting).map (fun last =>
      (last.1.flights.openCount, last.1.node.activities[3]?,
        last.1.node.activities[2]?.bind Activity.leads?)) =
      some (1, some (.read usersRead Row.integers (.following 1)), some 1) := by cbv
  have hforgot : atRest.forgot 0 readsAmidForgetting = true ∧
      atRest.forgot 1 readsAmidForgetting = false := by constructor <;> cbv
  obtain ⟨⟨w, log⟩, run, hfacts⟩ := Option.map_eq_some_iff.mp hrun
  simp only [Prod.mk.injEq] at hfacts
  obtain ⟨hcount, hfollows, hleads⟩ := hfacts
  obtain ⟨activity, found, hled⟩ := Option.bind_eq_some_iff.mp hleads
  have new : atRest.IsNew := ⟨⟨{}, "a", rfl⟩, rfl⟩
  exact ⟨w, log, new, run, hforgot.1, hforgot.2, hcount, hfollows,
    leads_iff_leads?.mpr ⟨activity, found, hled⟩, no_orphaned_reads new run⟩

end World

end ReadThrough
