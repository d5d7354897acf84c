import ReadThrough.Proofs.Reads.Tally

/-! # Rejoining is bounded

A read whose flight was abandoned joins again, and nothing counts how often it does. But every flight that it waited
for in vain was led by another read of its key that has ended since, and no read leads twice.

* `rolesOf` are the roles that a read took on by joining, and `TookOn` says which roles they can be;
* `World.TakesRoles` is the invariant over runs;
* `World.LedBy` finds the leader that a wait in vain is charged to;
* `rejoining_is_bounded` is the theorem.
-/

namespace ReadThrough
set_option autoImplicit false

variable {ρ σ : Type}

/-! ## The roles of a read -/

def FlightRole.flight : FlightRole → FlightId
  | .leader flight | .follower flight => flight

def FlightRole.isLeader : FlightRole → Bool
  | .leader _ => true
  | .follower _ => false

/-- The activity is a read of this key. -/
def Activity.isReadOf (key : String) : Activity ρ → Bool
  | .read query _ _ => query.flightName == key
  | _ => false

/-- The role that the read of this number took on in an event. -/
def Event.roleOf? (i : ActivityId) : Event ρ → Option FlightRole
  | .joined reader _ role => if reader = i then some role else none
  | _ => none

/-- The roles that a read took on, once for each time that it joined. -/
def rolesOf (log : List (Event ρ)) (i : ActivityId) : List FlightRole := log.filterMap (Event.roleOf? i)

theorem rolesOf_append (log events : List (Event ρ)) (i : ActivityId) :
    rolesOf (log ++ events) i = rolesOf log i ++ rolesOf events i :=
  List.filterMap_append

theorem mem_rolesOf {log : List (Event ρ)} {i : ActivityId} {role : FlightRole} :
    role ∈ rolesOf log i ↔ ∃ query, .joined i query role ∈ log := by
  rw [rolesOf, List.mem_filterMap]
  constructor
  · intro ⟨event, hmem, hrole⟩
    cases event with
    | joined reader query role' =>
      rw [Event.roleOf?] at hrole
      split at hrole
      · rename_i hreader
        obtain rfl := Option.some.inj hrole
        exact ⟨query, hreader ▸ hmem⟩
      · cases hrole
    | _ => cases hrole
  · intro ⟨query, hmem⟩
    exact ⟨_, hmem, if_pos rfl⟩

theorem rolesOf_events (move : Move ρ) (query : Query) (format : RowFormat ρ) (before after : ReadStage ρ)
    (asks : Bool) (i : ActivityId) :
    rolesOf (move.events query format before after asks) i =
      if move.activity = i then (before.joined? after).toList else [] := by
  have hdelivered : (move.outcome?.toList.map fun outcome =>
      Event.delivered move.activity query format outcome).filterMap (Event.roleOf? i) = [] := by
    simp [List.filterMap_eq_nil_iff, Event.roleOf?]
  have hadopted : ((before.adopted? after).toList.map fun flight =>
      Event.adopted (ρ := ρ) move.activity query flight).filterMap (Event.roleOf? i) = [] := by
    simp [List.filterMap_eq_nil_iff, Event.roleOf?]
  have hasked : (if asks then [Event.asked (ρ := ρ) move.activity query] else []).filterMap (Event.roleOf? i) = [] := by
    cases asks <;> rfl
  rw [rolesOf, Move.events, List.filterMap_append, List.filterMap_append, List.filterMap_append, hdelivered, hadopted,
    hasked]
  cases before.joined? after with
  | none => simp
  | some role => by_cases hi : move.activity = i <;> simp [Event.roleOf?, hi]

/-! ## Which roles a read can have taken on -/

/-- Whoever joins a flight finds it running. -/
theorem Flights.profile?_join_role {flights : Flights Outcome} (exact : flights.Exact) (key : String) :
    (flights.join key).1.profile? (flights.join key).2.flight = some (key, .running) := by
  rw [join_role]
  cases hregistered : flights.registry[key]? with
  | some flight =>
    obtain ⟨f, hf, hkey, hopen⟩ := exact.sound key flight hregistered
    rw [profile?_join_of_registered hregistered]
    simp [FlightRole.flight, profile?, hf, hkey, hopen.1]
  | none =>
    rw [profile?_join_of_free hregistered]
    exact if_pos rfl

theorem Flights.state?_join_role {flights : Flights Outcome} (exact : flights.Exact) (key : String) :
    flights.state? (flights.join key).2.flight ≠ some .abandoned := by
  rw [join_role]
  cases hregistered : flights.registry[key]? with
  | some flight =>
    obtain ⟨f, hf, hkey, hopen⟩ := exact.sound key flight hregistered
    simp [FlightRole.flight, state?, hf, hopen.1]
  | none => simp [FlightRole.flight, state?]

/-- A read at this stage took on these roles: none so far, or it followed some flights that were abandoned, and then
took on a last role, which it has now unless it ended. It never joined a flight twice. -/
inductive TookOn (flights : Flights Outcome) (stage : ReadStage ρ) : List FlightRole → Prop
  | nothing (idle : stage.role? = none) : TookOn flights stage []
  | roles (waited : List FlightId) (last : FlightRole)
      (inVain : ∀ flight ∈ waited, flights.state? flight = some .abandoned)
      (now : stage.role? = some last ∨ ∃ answer, stage = .ended answer)
      (distinct : (waited ++ [last.flight]).Nodup) :
    TookOn flights stage (waited.map .follower ++ [last])

namespace TookOn

variable {flights flights' : Flights Outcome} {before after : ReadStage ρ} {taken : List FlightRole}

theorem later (h : TookOn flights before taken)
    (keeps : ∀ flight, flights.state? flight = some .abandoned → flights'.state? flight = some .abandoned)
    (same : before.role? = none → after.role? = none)
    (now : ∀ last, (before.role? = some last ∨ ∃ answer, before = .ended answer) →
      after.role? = some last ∨ ∃ answer, after = .ended answer) : TookOn flights' after taken := by
  cases h with
  | nothing idle => exact .nothing (same idle)
  | roles waited last inVain was distinct =>
    exact .roles waited last (fun flight mem => keeps flight (inVain flight mem)) (now last was) distinct

/-- A read that joins was waiting in vain, or had not joined yet. -/
theorem joins (h : TookOn flights before taken) (joins : before.Joins flights) {role : FlightRole}
    (is : after.role? = some role) (fresh : flights.state? role.flight ≠ some .abandoned)
    (keeps : ∀ flight, flights.state? flight = some .abandoned → flights'.state? flight = some .abandoned) :
    TookOn flights' after (taken ++ [role]) := by
  cases before with
  | ready =>
    cases h with
    | nothing => exact .roles [] role (fun _ mem => absurd mem List.not_mem_nil) (.inl is) (List.nodup_singleton _)
    | roles waited last inVain now =>
      rcases now with now | ⟨answer, now⟩ <;> cases now
  | following flight =>
    cases h with
    | nothing idle => cases idle
    | roles waited last inVain now distinct =>
      rcases now with now | ⟨answer, now⟩
      · obtain rfl := Option.some.inj now
        have abandoned : ∀ flight' ∈ waited ++ [flight], flights.state? flight' = some .abandoned := by
          refine List.forall_mem_append.mpr ⟨inVain, List.forall_mem_singleton.mpr joins⟩
        have apart : ∀ flight' ∈ waited ++ [flight], ∀ other ∈ [role.flight], flight' ≠ other := by
          rintro flight' mem other hother rfl
          exact fresh (List.mem_singleton.mp hother ▸ abandoned flight' mem)
        have h : TookOn flights' after ((waited ++ [flight]).map .follower ++ [role]) :=
          .roles (waited ++ [flight]) role (fun flight' mem => keeps flight' (abandoned flight' mem)) (.inl is)
            (List.nodup_append.mpr ⟨distinct, List.nodup_singleton _, apart⟩)
        rwa [List.map_append] at h
      · cases now
  | _ => cases joins

/-- A turn adds the role that the read took on in it, if it joined. -/
theorem turn {query : Query} {format : RowFormat ρ} (h : TookOn flights before taken) (exact : flights.Exact)
    (turn : FlightTurn query format flights before flights' after)
    (keeps : ∀ flight, flights.state? flight = some .abandoned → flights'.state? flight = some .abandoned) :
    TookOn flights' after (taken ++ (before.joined? after).toList) := by
  cases hjoined : before.joined? after with
  | some role =>
    obtain ⟨joins, -, hrole, is⟩ := turn.of_joined? hjoined
    refine h.joins joins is ?_ keeps
    exact hrole ▸ Flights.state?_join_role exact query.flightName
  | none =>
    rw [Option.toList_none, List.append_nil]
    cases turn with
    | goOn active alone same =>
      refine h.later keeps (same ▸ id) ?_
      rintro last (now | ⟨answer, rfl⟩)
      · exact .inl (same ▸ now)
      · cases active
    | follow joins registered =>
      cases before with
      | ready | following => cases hjoined
      | _ => cases joins
    | lead joins free leads =>
      have role := ReadStage.role?_of_leads leads
      cases before with
      | ready | following => cases role.symm.trans hjoined
      | _ => cases joins
    | finish | adopt | quit => exact h.later keeps (fun _ => rfl) fun _ _ => .inr ⟨_, rfl⟩

theorem leads_le_one (h : TookOn flights before taken) : taken.countP FlightRole.isLeader ≤ 1 := by
  cases h with
  | nothing => exact Nat.zero_le 1
  | roles waited last =>
    have none_led : (waited.map FlightRole.follower).countP FlightRole.isLeader = 0 := by
      simp [List.countP_eq_zero, FlightRole.isLeader]
    rw [List.countP_append, none_led, Nat.zero_add]
    exact List.countP_le_length

end TookOn

namespace World

variable {w w' : World ρ σ} {log events : List (Event ρ)}

/-! ## Every run -/

/-- All reads took on the roles that they can have taken on; nobody else joined. -/
structure TakesRoles (log : List (Event ρ)) (w : World ρ σ) : Prop where
  reads : ∀ i query format stage, w.Reads i query format stage → TookOn w.flights stage (rolesOf log i)
  others : ∀ i, (∀ query format stage, ¬ w.Reads i query format stage) → rolesOf log i = []

theorem TakesRoles.of_new (new : w.IsNew) : TakesRoles [] w :=
  ⟨fun i query format stage hread => absurd hread (new.not_reads i query format stage), fun _ _ => rfl⟩

/-- A read that takes no part in a step keeps its roles, and a new one has none. -/
theorem TakesRoles.of_keepsReads {except : ActivityId → Prop} (h : TakesRoles log w) (reads : KeepsReads except w w')
    (keeps : ∀ flight, w.flights.state? flight = some .abandoned → w'.flights.state? flight = some .abandoned)
    {i : ActivityId} (other : ¬ except i) :
    (∀ query format stage, w'.Reads i query format stage → TookOn w'.flights stage (rolesOf log i)) ∧
    ((∀ query format stage, ¬ w'.Reads i query format stage) → rolesOf log i = []) := by
  constructor
  · intro query format stage hread
    rcases reads.old i query format stage other hread with hold | ⟨rfl, hnew⟩
    · exact (h.reads i query format stage hold).later keeps id fun _ => id
    · have unjoined : rolesOf log i = [] := by
        apply h.others i
        intro query' format' stage' hthere
        cases hnew.symm.trans hthere
      rw [unjoined]
      exact .nothing rfl
  · intro hnone
    apply h.others i
    intro query format stage hread
    exact hnone query format stage (reads.kept i query format stage other hread)

theorem FlightStep.takesRoles (h : TakesRoles log w) (led : Led w) (step : FlightStep w events w') :
    TakesRoles (log ++ events) w' := by
  have keeps : ∀ flight, w.flights.state? flight = some .abandoned → w'.flights.state? flight = some .abandoned :=
    fun flight => step.keeps_state? led (by simp)
  cases step with
  | quiet reads | forgets reads =>
    rw [List.append_nil]
    exact ⟨fun i => (h.of_keepsReads reads keeps not_false).1, fun i => (h.of_keepsReads reads keeps not_false).2⟩
  | @turn _ move query format before after asks reads was is taken =>
    have hroles : ∀ i, rolesOf (log ++ move.events query format before after asks) i =
        rolesOf log i ++ if move.activity = i then (before.joined? after).toList else [] := by
      intro i
      rw [rolesOf_append, rolesOf_events]
    constructor
    · intro i query' format' stage hread
      rw [hroles]
      by_cases hi : move.activity = i
      · subst hi
        obtain ⟨rfl, rfl, rfl⟩ := is.inj hread
        rw [if_pos rfl]
        exact (h.reads _ query format before was).turn led.exact taken keeps
      · rw [if_neg hi, List.append_nil]
        exact (h.of_keepsReads reads keeps (Ne.symm hi)).1 query' format' stage hread
    · intro i hother
      have hi : move.activity ≠ i := by
        rintro rfl
        exact hother query format after is
      rw [hroles, if_neg hi, List.append_nil]
      exact (h.of_keepsReads reads keeps (Ne.symm hi)).2 hother

theorem takesRoles_of_run [Medium σ] {admits : World ρ σ → Action ρ σ → Prop} (new : w.IsNew)
    (run : Runs admits w log w') : TakesRoles log w' := by
  induction run with
  | refl => exact .of_new new
  | step action run _ acts ih => exact (act?_flightStep acts).takesRoles ih ((Led.of_new new).run run)

/-! ## Who led -/

/-- A read joined the flight as its leader. -/
def LedBy (log : List (Event ρ)) (flight : FlightId) (leader : ActivityId) : Prop :=
  .leader flight ∈ rolesOf log leader

theorem keyed_of_run [Medium σ] {admits : World ρ σ → Action ρ σ → Prop} (new : w.IsNew) (run : Runs admits w log w')
    {i : ActivityId} {query : Query} {role : FlightRole} (joined : .joined i query role ∈ log) :
    ∃ state, w'.flights.profile? role.flight = some (query.flightName, state) := by
  induction run with
  | refl => cases joined
  | step action run _ acts ih =>
    have hled := (Led.of_new new).run run
    have hstep := act?_flightStep acts
    rcases List.mem_append.mp joined with hold | hnew
    · obtain ⟨state, hkey⟩ := ih hold
      exact hstep.keeps_key hkey
    · obtain ⟨format, before, after, -, -, -, hflights, rfl, -⟩ := hstep.of_joined hnew
      exact ⟨.running, hflights ▸ Flights.profile?_join_role hled.exact query.flightName⟩

/-- A flight starts only when a read joins as its leader. -/
theorem FlightStep.of_started (step : FlightStep w events w') {flight : FlightId}
    (before : w.flights.all.length ≤ flight) (after : flight < w'.flights.all.length) : LeaderJoined events flight := by
  cases step with
  | quiet reads flights =>
    rw [flights] at after
    exact absurd after (Nat.not_lt.mpr before)
  | forgets reads forgot =>
    obtain ⟨start, hstart | hstart⟩ := forgot
    · rw [hstart, Flights.length_forget] at after
      exact absurd after (Nat.not_lt.mpr before)
    · rw [hstart, Flights.length_forgetStarting] at after
      exact absurd after (Nat.not_lt.mpr before)
  | @turn _ move query format stage stage' asks reads was is taken =>
    generalize w'.flights = flights' at taken after
    cases taken with
    | goOn | adopt | quit => exact absurd after (Nat.not_lt.mpr before)
    | follow joins registered =>
      rw [Flights.length_join_of_registered registered] at after
      exact absurd after (Nat.not_lt.mpr before)
    | lead joins free leads =>
      rw [Flights.length_join_of_free free] at after
      obtain rfl : flight = w.flights.all.length := Nat.le_antisymm (Nat.le_of_lt_succ after) before
      refine ⟨move.activity, query, joined_mem_events.mpr ⟨rfl, rfl, ?_⟩⟩
      rw [← ReadStage.role?_of_leads leads]
      cases stage with
      | ready | following => rfl
      | _ => cases joins
    | finish =>
      rw [Flights.length_finish] at after
      exact absurd after (Nat.not_lt.mpr before)

theorem exists_leader_of_run [Medium σ] {admits : World ρ σ → Action ρ σ → Prop} (new : w.IsNew)
    (run : Runs admits w log w') {flight : FlightId} (started : flight < w'.flights.all.length) :
    ∃ leader, LedBy log flight leader := by
  have joined : LeaderJoined log flight := by
    induction run with
    | refl =>
      rw [new.flights] at started
      exact absurd started (Nat.not_lt_zero _)
    | @step _ w₁ _ action run _ acts ih =>
      rcases Nat.lt_or_ge flight w₁.flights.all.length with hold | hnew
      · exact (ih hold).append_left _
      · exact ((act?_flightStep acts).of_started hnew started).append_right _
  obtain ⟨leader, query, hmem⟩ := joined
  exact ⟨leader, mem_rolesOf.mpr ⟨query, hmem⟩⟩

/-- A read leads in its last role only. -/
theorem last_of_leads {waited : List FlightId} {last : FlightRole} {flight : FlightId}
    (leads : .leader flight ∈ waited.map FlightRole.follower ++ [last]) : last = .leader flight := by
  have : .leader flight = last := by simpa using leads
  exact this.symm

/-- A read leads at most one flight. -/
theorem TakesRoles.leads_one (h : TakesRoles log w) {flight flight' : FlightId} {leader : ActivityId}
    (led : LedBy log flight leader) (led' : LedBy log flight' leader) : flight = flight' := by
  by_cases hread : ∃ query format stage, w.Reads leader query format stage
  · obtain ⟨query, format, stage, hread⟩ := hread
    have taken := h.reads leader query format stage hread
    rw [LedBy] at led led'
    generalize rolesOf log leader = roles at taken led led'
    cases taken with
    | nothing => cases led
    | roles => exact FlightRole.leader.inj ((last_of_leads led).symm.trans (last_of_leads led'))
  · rw [LedBy, h.others leader fun query format stage hthere => hread ⟨query, format, stage, hthere⟩] at led
    cases led

/-- Who led a flight that was abandoned has ended, and did not follow it. -/
theorem TakesRoles.leader_ended (h : TakesRoles log w) (led : Led w) {flight : FlightId} {leader : ActivityId}
    {query : Query} {format : RowFormat ρ} {stage : ReadStage ρ} (read : w.Reads leader query format stage)
    (leads : LedBy log flight leader) (abandoned : w.flights.state? flight = some .abandoned) :
    (∃ answer, stage = .ended answer) ∧ .follower flight ∉ rolesOf log leader := by
  have taken := h.reads leader query format stage read
  rw [LedBy] at leads
  generalize rolesOf log leader = roles at taken leads
  cases taken with
  | nothing => cases leads
  | roles waited last inVain now distinct =>
    obtain rfl := last_of_leads leads
    refine ⟨?_, ?_⟩
    · rcases now with now | ended
      · have running := led.leads leader query format stage flight read (ReadStage.role?_eq_leader_iff.mp now)
        cases (Flights.state?_of_profile? running).symm.trans abandoned
      · exact ended
    · intro follows
      have waits : flight ∈ waited := by simpa using follows
      exact (List.nodup_append.mp distinct).2.2 flight waits flight List.mem_cons_self rfl

/-! ## The callers of a key -/

/-- The reads of this key. -/
def callers (w : World ρ σ) (key : String) : Finset ActivityId :=
  (Finset.range w.node.activities.length).filter fun i => w.node.activities[i]?.any (Activity.isReadOf key)

theorem mem_callers {key : String} {i : ActivityId} :
    i ∈ w.callers key ↔ ∃ query format stage, w.Reads i query format stage ∧ query.flightName = key := by
  rw [callers, Finset.mem_filter, Finset.mem_range, Option.any_eq_true]
  constructor
  · rintro ⟨-, activity, found, hread⟩
    cases activity with
    | read query format stage => exact ⟨query, format, stage, found, beq_iff_eq.mp hread⟩
    | change | job | request => cases hread
  · rintro ⟨query, format, stage, hread, rfl⟩
    exact ⟨(List.getElem?_eq_some_iff.mp hread).1, _, hread, beq_self_eq_true _⟩

/-- The flight that a read followed in this role, if it has been abandoned. -/
def waitInVain? (w : World ρ σ) : FlightRole → Option FlightId
  | .follower flight => if w.flights.state? flight = some .abandoned then some flight else none
  | .leader _ => none

/-- The flights that a read followed and that were abandoned, once for each time that it joined one. -/
def waitsInVain (w : World ρ σ) (log : List (Event ρ)) (i : ActivityId) : List FlightId :=
  (rolesOf log i).filterMap w.waitInVain?

theorem mem_waitsInVain {i : ActivityId} {flight : FlightId} :
    flight ∈ w.waitsInVain log i ↔
      .follower flight ∈ rolesOf log i ∧ w.flights.state? flight = some .abandoned := by
  rw [waitsInVain, List.mem_filterMap]
  constructor
  · rintro ⟨role, mem, hwait⟩
    cases role with
    | leader => cases hwait
    | follower flight' =>
      rw [waitInVain?] at hwait
      split at hwait
      · obtain rfl := Option.some.inj hwait
        exact ⟨mem, by assumption⟩
      · cases hwait
  · intro ⟨mem, abandoned⟩
    exact ⟨.follower flight, mem, if_pos abandoned⟩

/-- All flights that a read joined but the last one were waits in vain, and they are different flights. -/
theorem waitsInVain_of_tookOn {stage : ReadStage ρ} {i : ActivityId}
    (h : TookOn w.flights stage (rolesOf log i)) :
    (w.waitsInVain log i).Nodup ∧ (rolesOf log i).length ≤ (w.waitsInVain log i).length + 1 := by
  rw [World.waitsInVain]
  generalize rolesOf log i = roles at h
  cases h with
  | nothing => exact ⟨List.nodup_nil, Nat.zero_le _⟩
  | roles waited last inVain now distinct =>
    have hwaited : (waited.map FlightRole.follower).filterMap w.waitInVain? = waited := by
      rw [List.filterMap_map]
      refine (List.filterMap_congr fun flight mem => ?_).trans List.filterMap_some
      exact if_pos (inVain flight mem)
    have hlast : ([last].filterMap w.waitInVain?).Sublist [last.flight] := by
      cases last with
      | leader => exact List.nil_sublist _
      | follower flight =>
        by_cases abandoned : w.flights.state? flight = some .abandoned
        · simp [waitInVain?, abandoned, FlightRole.flight]
        · simp [waitInVain?, abandoned]
    rw [List.filterMap_append, hwaited]
    refine ⟨distinct.sublist (List.Sublist.append_left hlast waited), ?_⟩
    simp

/-- How often a read of the key joined, led and asked the data source, and the leaders that its waits in vain are
charged to: for each wait another read of the key, which has ended. -/
structure RejoinsBoundedly (log : List (Event ρ)) (w : World ρ σ) (key : String) (i : ActivityId) : Prop where
  joins : (rolesOf log i).length ≤ (w.callers key).card
  leads : (rolesOf log i).countP FlightRole.isLeader ≤ 1
  asks : asksOf log i ≤ 1
  rejoins : (rolesOf log i).length ≤ (w.waitsInVain log i).length + 1
  distinct : (w.waitsInVain log i).Nodup
  charged : ∃ charge : FlightId → ActivityId,
    (∀ flight ∈ w.waitsInVain log i, charge flight ∈ (w.callers key).erase i ∧ LedBy log flight (charge flight) ∧
      ∃ query format answer, w.Reads (charge flight) query format (.ended answer)) ∧
    ∀ flight ∈ w.waitsInVain log i, ∀ flight' ∈ w.waitsInVain log i,
      charge flight = charge flight' → flight = flight'

variable [Medium σ] {admits : World ρ σ → Action ρ σ → Prop}

/-- Who led a flight of the key that a read followed in vain: another read of the key, which has ended. -/
theorem exists_leader_of_wait (new : w.IsNew) (run : Runs admits w log w') {key : String} {i : ActivityId}
    (caller : i ∈ w'.callers key) {flight : FlightId} (wait : flight ∈ w'.waitsInVain log i) :
    ∃ leader, leader ∈ (w'.callers key).erase i ∧ LedBy log flight leader ∧
      ∃ query format answer, w'.Reads leader query format (.ended answer) := by
  obtain ⟨follows, abandoned⟩ := mem_waitsInVain.mp wait
  obtain ⟨query, format, stage, hread, hkey⟩ := mem_callers.mp caller
  have obeys := conducted_of_run new run
  -- the flight is of the key of the read that followed it, and so is its leader
  obtain ⟨followed, hfollowed⟩ := mem_rolesOf.mp follows
  obtain ⟨_, _, _, ⟨rfl, -⟩, hthere⟩ := obeys.known _ hfollowed
  obtain ⟨rfl, -, -⟩ := hread.inj hthere
  obtain ⟨state, hprofile⟩ := keyed_of_run new run hfollowed
  obtain ⟨leader, leads⟩ := exists_leader_of_run new run (Flights.lt_length_of_profile? hprofile)
  obtain ⟨led, hled⟩ := mem_rolesOf.mp leads
  obtain ⟨_, format', stage', ⟨rfl, -⟩, hleader⟩ := obeys.known _ hled
  obtain ⟨state', hprofile'⟩ := keyed_of_run new run hled
  have alike : led.flightName = query.flightName :=
    (Prod.mk.inj (Option.some.inj (hprofile'.symm.trans hprofile))).1
  obtain ⟨⟨answer, hended⟩, apart⟩ :=
    (takesRoles_of_run new run).leader_ended obeys.led hleader leads abandoned
  refine ⟨leader, Finset.mem_erase.mpr ⟨?_, mem_callers.mpr ⟨led, format', stage', hleader, alike.trans hkey⟩⟩,
    leads, led, format', answer, hended ▸ hleader⟩
  rintro rfl
  exact apart follows

theorem rejoinsBoundedly_of_run (new : w.IsNew) (run : Runs admits w log w') {key : String} {i : ActivityId}
    (caller : i ∈ w'.callers key) : RejoinsBoundedly log w' key i := by
  have roles := takesRoles_of_run new run
  obtain ⟨query, format, stage, hread, -⟩ := mem_callers.mp caller
  have taken := roles.reads i query format stage hread
  obtain ⟨distinct, rejoins⟩ := waitsInVain_of_tookOn taken
  have charged : ∀ flight ∈ w'.waitsInVain log i, ∃ leader, leader ∈ (w'.callers key).erase i ∧
      LedBy log flight leader ∧ ∃ query format answer, w'.Reads leader query format (.ended answer) :=
    fun flight wait => exists_leader_of_wait new run caller wait
  choose! charge hcharge using charged
  have apart : ∀ flight ∈ w'.waitsInVain log i, ∀ flight' ∈ w'.waitsInVain log i,
      charge flight = charge flight' → flight = flight' := by
    intro flight wait flight' wait' same
    exact roles.leads_one (hcharge flight wait).2.1 (same ▸ (hcharge flight' wait').2.1)
  -- there are no more waits than other callers, and one more join than waits
  have waits : (w'.waitsInVain log i).length ≤ ((w'.callers key).erase i).card := by
    rw [← List.toFinset_card_of_nodup distinct]
    refine Finset.card_le_card_of_injOn charge (fun flight wait => ?_) fun flight wait flight' wait' => ?_
    · exact (hcharge flight (List.mem_toFinset.mp wait)).1
    · exact apart flight (List.mem_toFinset.mp wait) flight' (List.mem_toFinset.mp wait')
  refine ⟨?_, taken.leads_le_one, ?_, rejoins, distinct, charge, hcharge, apart⟩
  · calc (rolesOf log i).length
        ≤ (w'.waitsInVain log i).length + 1 := rejoins
      _ ≤ ((w'.callers key).erase i).card + 1 := Nat.succ_le_succ waits
      _ = (w'.callers key).card := Finset.card_erase_add_one caller
  · exact ((Asked.of_new new).run run).le_one i

/-- **Joining again is bounded.** In every run, a read joins at most as often as there are reads of its key, leads
at most once and asks the data source at most once. Each time that it waited in vain is charged to another read of
the key, which led and has ended. So all reads of the key ask at most as often as there are reads of it. -/
theorem rejoining_is_bounded (new : w.IsNew) (run : Runs Unrestricted w log w') (key : String) :
    (∀ i ∈ w'.callers key, RejoinsBoundedly log w' key i) ∧
    ∑ i ∈ w'.callers key, asksOf log i ≤ (w'.callers key).card := by
  have bounded : ∀ i ∈ w'.callers key, RejoinsBoundedly log w' key i :=
    fun i caller => rejoinsBoundedly_of_run new run caller
  refine ⟨bounded, ?_⟩
  calc ∑ i ∈ w'.callers key, asksOf log i
      ≤ ∑ i ∈ w'.callers key, 1 := Finset.sum_le_sum fun i caller => (bounded i caller).asks
    _ = (w'.callers key).card := (Finset.card_eq_sum_ones _).symm

/-- Three alike reads. The first leads and is broken off, then the second leads and is broken off, and the third waits
for both before it leads and asks. -/
def brokenOffReads : List (Action Row RecordingStore) :=
  twoReads 0 1 ++ [.read usersRead Row.integers, .move (.go 2), .move (.abort 0), .move (.go 1), .move (.go 2),
    .move (.abort 1), .move (.go 2), .move (.go 2), .move (.go 2)]

/-- The third read joined three times, as often as there are reads. -/
theorem third_read_waited_twice :
    ∃ (w : World Row RecordingStore) (log : List (Event Row)),
      atRest.IsNew ∧ Runs Unrestricted atRest log w ∧ w.callers usersRead.flightName = {0, 1, 2} ∧
      rolesOf log 2 = [.follower 0, .follower 1, .leader 2] ∧ w.waitsInVain log 2 = [0, 1] ∧
      asksOf log 2 = 1 ∧ RejoinsBoundedly log w usersRead.flightName 2 := by
  have hrun : (atRest.perform? Unrestricted brokenOffReads).map (fun last =>
      (last.1.callers usersRead.flightName, rolesOf last.2 2, last.1.waitsInVain last.2 2, asksOf last.2 2)) =
      some ({0, 1, 2}, [.follower 0, .follower 1, .leader 2], [0, 1], 1) := by cbv
  obtain ⟨⟨w, log⟩, run, hfacts⟩ := Option.map_eq_some_iff.mp hrun
  simp only [Prod.mk.injEq] at hfacts
  obtain ⟨callers, roles, waits, asks⟩ := hfacts
  have new : atRest.IsNew := ⟨⟨{}, "a", rfl⟩, rfl⟩
  have runs : Runs Unrestricted atRest log w := .of_perform? run
  refine ⟨w, log, new, runs, callers, roles, waits, asks, ?_⟩
  exact (rejoining_is_bounded new runs usersRead.flightName).1 2 (by simp [callers])

end World

end ReadThrough
