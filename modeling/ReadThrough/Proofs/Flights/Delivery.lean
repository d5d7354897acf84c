import ReadThrough.Proofs.Flights.History

/-! # What followers receive

A follower holds the receiving end of a channel. The sending end is held by the leader as long as it
is alive, and by the registry as long as the flight can be joined. Waiting gives the value that was
sent, at any time after it was sent; it fails when nothing was sent and nobody holds the sending end
any more; else it goes on.

* `HasSender` and `Gets` are these rules, applied to a history;
* `Delivers` says what they come to: a follower receives what the leader of its own flight left,
  whatever happened to the key in between;
* `followers_receive_what_their_leader_leaves` is the theorem.
-/

namespace ReadThrough
set_option autoImplicit false

variable {α : Type}

namespace Flights
open FlightHistory

/-! ## Channels -/

/-- Someone holds the sending end of the flight: its leader, or the registry under some key. -/
def HasSender (h : FlightHistory α) (flights : Flights α) (flight : FlightId) : Prop :=
  Live h flight ∨ ∃ key : String, flights.registry[key]? = some flight

/-- How a flight looks to a follower that waits for it, by the rules of a channel. -/
inductive Gets (h : FlightHistory α) (flights : Flights α) (flight : FlightId) :
    FlightState α → Prop
  | value {value : α} (sent : .completed flight value ∈ h) :
    Gets h flights flight (.completed value)
  | failure (unsent : ∀ value, .completed flight value ∉ h) (nobody : ¬ HasSender h flights flight) :
    Gets h flights flight .abandoned
  | nothing (unsent : ∀ value, .completed flight value ∉ h) (somebody : HasSender h flights flight) :
    Gets h flights flight .running

/-! ## Parts of a history -/

theorem ended_of_not_live {h : FlightHistory α} {flight : FlightId} {key : String}
    (started : Started h flight key) (dead : ¬ Live h flight) : Ended h flight :=
  Classical.byContradiction fun hopen => dead ⟨⟨key, started⟩, hopen⟩

/-- The flights at an earlier time of a history. -/
theorem Evolves.earlier {later h : FlightHistory α} {flights' : Flights α}
    (run : Evolves (later ++ h) flights') : ∃ flights, Evolves h flights := by
  induction later generalizing flights' with
  | nil => exact ⟨flights', run⟩
  | cons event later ih =>
    cases run with
    | join key run => exact ih run
    | complete flight value run => exact ih run
    | abandon flight run => exact ih run
    | leave flight run => exact ih run
    | forget key run => exact ih run
    | forgetStarting start run => exact ih run

theorem Evolves.of_followed {h : FlightHistory α} {flights : Flights α} {key : String}
    {flight : FlightId} (run : Evolves (.joined key (.follower flight) :: h) flights) :
    Holds h flight key := by
  generalize hrole : FlightRole.follower flight = role at run
  cases run with
  | join key run =>
    rw [join_role] at hrole
    split at hrole
    · rename_i registered hregistered
      obtain rfl := FlightRole.follower.inj hrole
      exact run.records.registered_iff.mp hregistered
    · cases hrole

namespace Records

variable {h : FlightHistory α} {flights : Flights α} {flight : FlightId}

theorem started_key (hr : Records h flights) {key key' : String} (hs : Started h flight key)
    (hs' : Started h flight key') : key' = key := by
  obtain ⟨f, hf, rfl⟩ := (hr.started flight key).mpr hs
  obtain ⟨f', hf', rfl⟩ := (hr.started flight key').mpr hs'
  rw [Option.some.inj (hf.symm.trans hf')]

theorem running_of_live (hr : Records h flights) :
    flights.state? flight = some .running ↔ Live h flight := by
  rw [hr.live_iff, state?, Option.map_eq_some_iff]

/-- A flight without a value was abandoned, unless its leader is alive. -/
theorem abandoned_iff (hr : Records h flights) :
    flights.state? flight = some .abandoned ↔
      Ended h flight ∧ ∀ value, .completed flight value ∉ h := by
  rw [hr.abandoned]
  constructor
  · intro habandoned
    refine ⟨.inr habandoned, fun value hcompleted => ?_⟩
    have hstate := (hr.completed flight value).mpr hcompleted
    rw [(hr.abandoned flight).mpr habandoned] at hstate
    cases hstate
  · rintro ⟨⟨value, hcompleted⟩ | habandoned, hunsent⟩
    · exact absurd hcompleted (hunsent value)
    · exact habandoned

/-- The registry holds only flights whose leaders are alive, so the last sending end goes with the
leader. -/
theorem hasSender_iff (hr : Records h flights) : HasSender h flights flight ↔ Live h flight := by
  constructor
  · rintro (hlive | ⟨key, hregistered⟩)
    · exact hlive
    · exact (hr.registered_iff.mp hregistered).2.1
  · exact .inl

theorem gets_iff (hr : Records h flights) {key : String} (started : Started h flight key)
    (state : FlightState α) : Gets h flights flight state ↔ flights.state? flight = some state := by
  constructor
  · rintro (⟨hsent⟩ | ⟨hunsent, hnobody⟩ | ⟨hunsent, hsomebody⟩)
    · exact (hr.completed flight _).mpr hsent
    · rw [hr.hasSender_iff] at hnobody
      exact hr.abandoned_iff.mpr ⟨ended_of_not_live started hnobody, hunsent⟩
    · exact hr.running_of_live.mpr (hr.hasSender_iff.mp hsomebody)
  · intro hstate
    cases state with
    | completed value => exact .value ((hr.completed flight value).mp hstate)
    | abandoned =>
      obtain ⟨hended, hunsent⟩ := hr.abandoned_iff.mp hstate
      refine .failure hunsent fun hsomebody => ?_
      exact (hr.hasSender_iff.mp hsomebody).2 hended
    | running =>
      have hlive := hr.running_of_live.mp hstate
      exact .nothing (fun value hsent => hlive.2 (.inl ⟨value, hsent⟩)) (.inl hlive)

end Records

/-! ## Delivery -/

/-- What a follower that joined under a key receives of its flight, at any time that it waits. -/
structure Delivers (h : FlightHistory α) (flights : Flights α) (key : String) (flight : FlightId) :
    Prop where
  /-- The flight has a leader, which joined under the same key before, and under no other. -/
  led : ∃ later earlier, h = later ++ .joined key (.follower flight) :: earlier ∧
    Started earlier flight key
  key_unique : ∀ key', Started h flight key' → key' = key
  /-- What the flight shows is what the rules of a channel give. -/
  channel : ∀ state, Gets h flights flight state ↔ flights.state? flight = some state
  /-- It receives a value exactly if the leader of its flight completed the flight with this value. -/
  value : ∀ value, flights.state? flight = some (.completed value) ↔ .completed flight value ∈ h
  abandoned : flights.state? flight = some .abandoned ↔
    Ended h flight ∧ ∀ value, .completed flight value ∉ h
  pending : flights.state? flight = some .running ↔ Live h flight
  /-- What it could receive once, it receives at any later time. -/
  settled : ∀ (later : FlightHistory α) (flights' : Flights α), Evolves (later ++ h) flights' →
    ¬ Live h flight → flights'.state? flight = flights.state? flight

/-- After any operations in any order, over any keys, every follower receives what the leader of its
own flight left, or waits as long as that leader is alive. -/
theorem followers_receive_what_their_leader_leaves {h : FlightHistory α} {flights : Flights α}
    (run : Evolves h flights) {key : String} {flight : FlightId}
    (joined : .joined key (.follower flight) ∈ h) : Delivers h flights key flight := by
  have hr := run.records
  obtain ⟨later, earlier, hlog⟩ := List.append_of_mem joined
  obtain ⟨flights₀, run₀⟩ := Evolves.earlier (hlog ▸ run)
  have hstarted₀ : Started earlier flight key := run₀.of_followed.1
  have hstarted : Started h flight key := by
    rw [hlog]
    exact List.mem_append_right later (List.mem_cons_of_mem _ hstarted₀)
  refine
    { led := ⟨later, earlier, hlog, hstarted₀⟩
      key_unique := fun key' hstarted' => hr.started_key hstarted hstarted'
      channel := hr.gets_iff hstarted
      value := hr.completed flight
      abandoned := hr.abandoned_iff
      pending := hr.running_of_live
      settled := ?_ }
  intro later' flights' run' hover
  have hr' := run'.records
  rcases ended_of_not_live hstarted hover with ⟨value, hcompleted⟩ | habandoned
  · rw [(hr.completed flight value).mpr hcompleted]
    exact (hr'.completed flight value).mpr (List.mem_append_right later' hcompleted)
  · rw [(hr.abandoned flight).mpr habandoned]
    exact (hr'.abandoned flight).mpr (List.mem_append_right later' habandoned)

/-- The first flight of a key is forgotten while a caller follows it, a second one is led, followed and
completed, and only then the first leader gives up: its follower gets nothing of the second flight. -/
theorem second_value_passes_first_follower :
    ∃ (h : FlightHistory Nat) (flights : Flights Nat),
      h = [.abandoned 0, .completed 1 9, .joined "users:all" (.follower 1),
        .joined "users:all" (.leader 1), .forgot "users:all", .joined "users:all" (.follower 0),
        .joined "users:all" (.leader 0)] ∧
      Evolves h flights ∧ Delivers h flights "users:all" 0 ∧ Delivers h flights "users:all" 1 ∧
      flights.state? 0 = some .abandoned ∧ flights.state? 1 = some (.completed 9) := by
  have run₂ : Evolves [.joined "users:all" (.follower 0), .joined "users:all" (.leader 0)]
      ((({} : Flights Nat).join "users:all").1.join "users:all").1 :=
    .join "users:all" (.join "users:all" .start)
  have run₅ := Evolves.join "users:all" (.join "users:all" (.forget "users:all" run₂))
  have hsecond : ((((({} : Flights Nat).join "users:all").1.join "users:all").1.forget
      "users:all").join "users:all").2 = .leader 1 := by
    rw [join_role, forget_registry, if_pos rfl, length_forget]
    simp [join]
  have hfollows : (((((({} : Flights Nat).join "users:all").1.join "users:all").1.forget
      "users:all").join "users:all").1.join "users:all").2 = .follower 1 := by
    have hfree : (((({} : Flights Nat).join "users:all").1.join "users:all").1.forget
        "users:all").registry["users:all"]? = none := by
      rw [forget_registry, if_pos rfl]
    rw [join_role, join_of_free hfree, length_forget]
    simp [join]
  rw [hsecond, hfollows] at run₅
  have run₆ := Evolves.complete 1 9 run₅ ⟨⟨"users:all", by simp [Started]⟩, by simp [Ended]⟩
  have run := Evolves.abandon 0 run₆ ⟨⟨"users:all", by simp [Started]⟩, by simp [Ended]⟩
  have first : Delivers _ _ "users:all" 0 :=
    followers_receive_what_their_leader_leaves run (by simp)
  have second : Delivers _ _ "users:all" 1 :=
    followers_receive_what_their_leader_leaves run (by simp)
  exact ⟨_, _, rfl, run, first, second, first.abandoned.mpr ⟨by simp [Ended], by simp⟩,
    (second.value 9).mpr (by simp)⟩

end Flights

end ReadThrough
