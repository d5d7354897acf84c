import ReadThrough.Proofs.Flights.Steps

/-! # Leaders

Every running flight has exactly one leader, a read of the flight's own key, and whoever follows a
flight is a read of its key too. Because only leaders end flights, a flight ends once, and what
became of it stays.

* `Led` is the invariant, `FlightStep.led` its preservation, and `Led.run` what runs make of it.
-/

namespace ReadThrough
set_option autoImplicit false

variable {ρ σ : Type}

/-! ## The invariant -/

namespace World

def Leads (w : World ρ σ) (reader : ActivityId) (flight : FlightId) : Prop :=
  ∃ query format stage, w.Reads reader query format stage ∧ stage.leads? = some flight

/-- Every running flight is led by one read, which is a read of its key; followers are reads of the
key of their flight. -/
structure Led (w : World ρ σ) : Prop where
  exact : w.flights.Exact
  leads : ∀ i query format stage flight, w.Reads i query format stage →
    stage.leads? = some flight → w.flights.profile? flight = some (query.flightName, .running)
  unique : ∀ i j flight, w.Leads i flight → w.Leads j flight → i = j
  led : ∀ flight key, w.flights.profile? flight = some (key, .running) → ∃ i, w.Leads i flight
  follows : ∀ i query format flight, w.Reads i query format (.following flight) →
    ∃ state, w.flights.profile? flight = some (query.flightName, state)

variable {w w' : World ρ σ} {log : List (Event ρ)}

theorem Led.of_new (h : w.IsNew) : Led w := by
  refine ⟨?_, ?_, ?_, ?_, ?_⟩
  · rw [h.flights]
    exact Flights.exact_empty
  · intro i query format stage flight hread
    exact absurd hread (h.not_reads _ _ _ _)
  · rintro i j flight ⟨query, format, stage, hread, -⟩
    exact absurd hread (h.not_reads _ _ _ _)
  · intro flight key hprofile
    rw [h.flights] at hprofile
    simp [Flights.profile?] at hprofile
  · intro i query format flight hread
    exact absurd hread (h.not_reads _ _ _ _)

/-! ## Steps that concern no read -/

theorem KeepsReads.leads {except : ActivityId → Prop} (h : KeepsReads except w w')
    {i : ActivityId} {flight : FlightId} (hi : ¬ except i) : w'.Leads i flight ↔ w.Leads i flight := by
  constructor
  · rintro ⟨query, format, stage, hread, hleads⟩
    rcases h.old i query format stage hi hread with hold | ⟨rfl, -⟩
    · exact ⟨query, format, stage, hold, hleads⟩
    · cases hleads
  · rintro ⟨query, format, stage, hread, hleads⟩
    exact ⟨query, format, stage, h.kept i query format stage hi hread, hleads⟩

theorem Led.of_keepsReads (h : Led w) (reads : KeepsReads (fun _ => False) w w')
    (exact : w'.flights.Exact)
    (profile : ∀ flight, w'.flights.profile? flight = w.flights.profile? flight) : Led w' := by
  refine ⟨exact, ?_, ?_, ?_, ?_⟩
  · intro i query format stage flight hread hleads
    rw [profile]
    rcases reads.old i query format stage not_false hread with hold | ⟨rfl, -⟩
    · exact h.leads i query format stage flight hold hleads
    · cases hleads
  · intro i j flight hi hj
    exact h.unique i j flight ((reads.leads not_false).mp hi) ((reads.leads not_false).mp hj)
  · intro flight key hrun
    rw [profile] at hrun
    obtain ⟨i, hi⟩ := h.led flight key hrun
    exact ⟨i, (reads.leads not_false).mpr hi⟩
  · intro i query format flight hread
    rw [profile]
    rcases reads.old i query format _ not_false hread with hold | ⟨hstage, -⟩
    · exact h.follows i query format flight hold
    · cases hstage

/-! ## Steps of reads -/

theorem Reads.leads_iff {i : ActivityId} {query : Query} {format : RowFormat ρ}
    {stage : ReadStage ρ} (h : w.Reads i query format stage) {flight : FlightId} :
    w.Leads i flight ↔ stage.leads? = some flight := by
  constructor
  · rintro ⟨query', format', stage', h', hleads⟩
    obtain ⟨-, -, rfl⟩ := h.inj h'
    exact hleads
  · intro hleads
    exact ⟨query, format, stage, h, hleads⟩

section

variable {mover : ActivityId} {query : Query} {format : RowFormat ρ} {before after : ReadStage ρ}

theorem KeepsReads.of_role {role : FlightRole} (reads : KeepsReads (· = mover) w w')
    {i : ActivityId} (hi : i ≠ mover) {query : Query} {format : RowFormat ρ} {stage : ReadStage ρ}
    (h : w'.Reads i query format stage) (hrole : stage.role? = some role) :
    w.Reads i query format stage := by
  rcases reads.old i query format stage hi h with hold | ⟨rfl, -⟩
  · exact hold
  · cases hrole

theorem Led.of_same (h : Led w) (reads : KeepsReads (· = mover) w w')
    (was : w.Reads mover query format before) (is : w'.Reads mover query format after)
    (exact : w'.flights.Exact)
    (profile : ∀ flight, w'.flights.profile? flight = w.flights.profile? flight)
    (same : after.leads? = before.leads?)
    (follows : ∀ flight, after = .following flight →
      ∃ state, w.flights.profile? flight = some (query.flightName, state)) : Led w' := by
  have hleads : ∀ i flight, w'.Leads i flight ↔ w.Leads i flight := by
    intro i flight
    by_cases hi : i = mover
    · subst hi
      rw [is.leads_iff, was.leads_iff, same]
    · exact reads.leads hi
  refine ⟨exact, ?_, ?_, ?_, ?_⟩
  · intro i query' format' stage flight hread hlead
    rw [profile]
    by_cases hi : i = mover
    · subst hi
      obtain ⟨rfl, rfl, rfl⟩ := is.inj hread
      exact h.leads i query format before flight was (same ▸ hlead)
    · exact h.leads i query' format' stage flight
        (reads.of_role hi hread (ReadStage.role?_of_leads hlead)) hlead
  · intro i j flight hi hj
    exact h.unique i j flight ((hleads i flight).mp hi) ((hleads j flight).mp hj)
  · intro flight key hrun
    rw [profile] at hrun
    obtain ⟨i, hi⟩ := h.led flight key hrun
    exact ⟨i, (hleads i flight).mpr hi⟩
  · intro i query' format' flight hread
    rw [profile]
    by_cases hi : i = mover
    · subst hi
      obtain ⟨rfl, rfl, hstage⟩ := is.inj hread
      exact follows flight hstage
    · exact h.follows i query' format' flight (reads.of_role hi hread rfl)

theorem Led.of_lead (h : Led w) (reads : KeepsReads (· = mover) w w')
    (was : w.Reads mover query format before) (is : w'.Reads mover query format after)
    (flights : w'.flights = (w.flights.join query.flightName).1)
    (free : w.flights.registry[query.flightName]? = none)
    (idle : before.leads? = none) (leads : after.leads? = some w.flights.all.length) : Led w' := by
  have hprofile := Flights.profile?_join_of_free free
  have hold : ∀ flight profile, w.flights.profile? flight = some profile →
      (w.flights.join query.flightName).1.profile? flight = some profile := by
    intro flight profile hp
    rw [hprofile, if_neg (Nat.ne_of_lt (Flights.lt_length_of_profile? hp)), hp]
  have hnew : ∀ i, ¬ w.Leads i w.flights.all.length := by
    rintro i ⟨query', format', stage, hread, hlead⟩
    exact Nat.lt_irrefl _ (Flights.lt_length_of_profile? (h.leads i _ _ _ _ hread hlead))
  have hmover : ∀ flight, w'.Leads mover flight ↔ flight = w.flights.all.length := by
    intro flight
    rw [is.leads_iff, leads, Option.some.injEq, eq_comm]
  refine ⟨flights ▸ h.exact.join _, ?_, ?_, ?_, ?_⟩
  · intro i query' format' stage flight hread hlead
    rw [flights]
    by_cases hi : i = mover
    · subst hi
      obtain ⟨rfl, rfl, rfl⟩ := is.inj hread
      obtain rfl := Option.some.inj (leads.symm.trans hlead)
      rw [hprofile, if_pos rfl]
    · exact hold _ _ (h.leads i query' format' stage flight
        (reads.of_role hi hread (ReadStage.role?_of_leads hlead)) hlead)
  · intro i j flight hi hj
    by_cases him : i = mover <;> by_cases hjm : j = mover
    · rw [him, hjm]
    · rw [him, hmover] at hi
      rw [hi, reads.leads hjm] at hj
      exact absurd hj (hnew j)
    · rw [hjm, hmover] at hj
      rw [hj, reads.leads him] at hi
      exact absurd hi (hnew i)
    · exact h.unique i j flight ((reads.leads him).mp hi) ((reads.leads hjm).mp hj)
  · intro flight key hrun
    rw [flights, hprofile] at hrun
    split at hrun
    · rename_i hlen
      exact ⟨mover, (hmover flight).mpr hlen⟩
    · obtain ⟨i, hi⟩ := h.led flight key hrun
      refine ⟨i, (reads.leads ?_).mpr hi⟩
      rintro rfl
      rw [was.leads_iff, idle] at hi
      cases hi
  · intro i query' format' flight hread
    rw [flights]
    have hi : i ≠ mover := by
      rintro rfl
      obtain ⟨-, -, rfl⟩ := is.inj hread
      cases leads
    obtain ⟨state, hstate⟩ := h.follows i query' format' flight (reads.of_role hi hread rfl)
    exact ⟨state, hold _ _ hstate⟩

theorem Led.of_finish (h : Led w) (reads : KeepsReads (· = mover) w w') {answer : Answer ρ}
    {ended : FlightId} {state : FlightState Outcome}
    (was : w.Reads mover query format before) (is : w'.Reads mover query format (.ended answer))
    (flights : w'.flights = w.flights.finish ended state) (hstate : state ≠ .running)
    (leads : before.leads? = some ended) : Led w' := by
  have hrun := h.leads mover query format before ended was leads
  have hidle : ∀ flight, ¬ w'.Leads mover flight := by
    intro flight hlead
    rw [is.leads_iff] at hlead
    cases hlead
  have hother : ∀ i flight, w'.Leads i flight → w.Leads i flight ∧ ended ≠ flight := by
    intro i flight hlead
    have hi : i ≠ mover := by
      rintro rfl
      exact hidle flight hlead
    have hold := (reads.leads hi).mp hlead
    refine ⟨hold, ?_⟩
    rintro rfl
    exact hi (h.unique i mover ended hold (was.leads_iff.mpr leads))
  refine ⟨?_, ?_, ?_, ?_, ?_⟩
  · rw [flights]
    exact h.exact.finish (Flights.state?_of_profile? hrun) hstate
  · intro i query' format' stage flight hread hlead
    obtain ⟨-, hne⟩ := hother i flight ⟨query', format', stage, hread, hlead⟩
    have hi : i ≠ mover := by
      rintro rfl
      exact hidle flight ⟨query', format', stage, hread, hlead⟩
    rw [flights, Flights.profile?_finish, h.leads i query' format' stage flight
      (reads.of_role hi hread (ReadStage.role?_of_leads hlead)) hlead]
    simp [hne]
  · intro i j flight hi hj
    exact h.unique i j flight (hother i flight hi).1 (hother j flight hj).1
  · intro flight key hnow
    rw [flights, Flights.profile?_finish] at hnow
    obtain ⟨p, hp, hpf⟩ := Option.map_eq_some_iff.mp hnow
    split at hpf
    · exact absurd (Prod.mk.inj hpf).2 hstate
    · rename_i hne
      subst hpf
      obtain ⟨i, hi⟩ := h.led flight key hp
      refine ⟨i, (reads.leads ?_).mpr hi⟩
      rintro rfl
      exact hne (Option.some.inj (leads.symm.trans (was.leads_iff.mp hi)))
  · intro i query' format' flight hread
    have hi : i ≠ mover := by
      rintro rfl
      obtain ⟨-, -, hstage⟩ := is.inj hread
      cases hstage
    obtain ⟨state', hstate'⟩ := h.follows i query' format' flight (reads.of_role hi hread rfl)
    rw [flights, Flights.profile?_finish, hstate']
    by_cases he : ended = flight
    · exact ⟨state, by simp [he]⟩
    · exact ⟨state', by simp [he]⟩

end

/-! ## Every run -/

theorem FlightStep.led (h : Led w) (step : FlightStep w log w') : Led w' := by
  cases step with
  | quiet reads flights => exact h.of_keepsReads reads (flights ▸ h.exact) (by simp [flights])
  | forgets reads forgot =>
    obtain ⟨key, hkey | hkey⟩ := forgot
    · exact h.of_keepsReads reads (hkey ▸ h.exact.forget key)
        (by simp [hkey, Flights.profile?_forget])
    · exact h.of_keepsReads reads (hkey ▸ h.exact.forgetStarting key)
        (by simp [hkey, Flights.profile?_forgetStarting])
  | turn reads was is taken =>
    rename_i move query format before after asks
    generalize hflights : w'.flights = flights' at taken
    cases taken with
    | goOn active alone same =>
      refine h.of_same reads was is (hflights ▸ h.exact) (by simp [hflights])
        (ReadStage.leads?_of_role? same) ?_
      intro flight hafter
      rw [← ReadStage.role?_eq_follower_iff, same, ReadStage.role?_eq_follower_iff] at hafter
      exact absurd hafter (alone flight)
    | follow joins registered =>
      refine h.of_same reads was is (hflights ▸ h.exact.join _) ?_ joins.leads?.symm ?_
      · intro flight
        rw [hflights, Flights.profile?_join_of_registered registered]
      · rintro flight ⟨⟩
        obtain ⟨f, hf, hkey, hopen⟩ := h.exact.sound _ _ registered
        exact ⟨.running, by simp [Flights.profile?, hf, hkey, hopen.1]⟩
    | lead joins free leads => exact h.of_lead reads was is hflights free joins.leads? leads
    | finish leads ended => exact h.of_finish reads was is hflights ended leads
    | adopt done =>
      exact h.of_same reads was is (hflights ▸ h.exact) (by simp [hflights]) rfl (by simp)
    | quit => exact h.of_same reads was is (hflights ▸ h.exact) (by simp [hflights]) rfl (by simp)

/-- What became of a flight stays, because only a leader ends a flight and a leader's flight still
runs. -/
theorem FlightStep.keeps_ended (h : Led w) (step : FlightStep w log w') {flight : FlightId}
    {key : String} {state : FlightState Outcome} (ended : state ≠ .running)
    (hp : w.flights.profile? flight = some (key, state)) :
    w'.flights.profile? flight = some (key, state) := by
  cases step with
  | quiet reads flights => rwa [flights]
  | forgets reads forgot =>
    obtain ⟨start, hstart | hstart⟩ := forgot
    · rwa [hstart, Flights.profile?_forget]
    · rwa [hstart, Flights.profile?_forgetStarting]
  | turn reads was is taken =>
    generalize w'.flights = flights' at taken
    cases taken with
    | goOn | adopt | quit => exact hp
    | follow joins registered => rwa [Flights.profile?_join_of_registered registered]
    | lead joins free leads =>
      rwa [Flights.profile?_join_of_free free,
        if_neg (Nat.ne_of_lt (Flights.lt_length_of_profile? hp))]
    | finish leads =>
      rename_i finished _ _ _
      have hrun := h.leads _ _ _ _ _ was leads
      have hne : finished ≠ flight := by
        rintro rfl
        exact ended (Prod.mk.inj (Option.some.inj (hp.symm.trans hrun))).2
      simp [Flights.profile?_finish, hp, hne]

theorem FlightStep.keeps_state? (h : Led w) (step : FlightStep w log w') {flight : FlightId}
    {state : FlightState Outcome} (ended : state ≠ .running)
    (hs : w.flights.state? flight = some state) : w'.flights.state? flight = some state := by
  rw [Flights.state?_eq_profile?] at hs
  obtain ⟨⟨key, state'⟩, hp, rfl⟩ := Option.map_eq_some_iff.mp hs
  exact Flights.state?_of_profile? (step.keeps_ended h ended hp)

/-- A flight that has left an outcome after a turn had left it before, or is a flight of the key of
the read that took the turn. -/
theorem Led.of_completed {mover : ActivityId} {query : Query} {format : RowFormat ρ}
    {before after : ReadStage ρ} {flights' : Flights Outcome} (h : Led w)
    (was : w.Reads mover query format before)
    (turn : FlightTurn query format w.flights before flights' after) {flight : FlightId}
    {key : String} {outcome : Outcome}
    (hp : flights'.profile? flight = some (key, .completed outcome)) :
    w.flights.profile? flight = some (key, .completed outcome) ∨ key = query.flightName := by
  cases turn with
  | goOn | adopt | quit => exact .inl hp
  | follow joins registered =>
    rw [Flights.profile?_join_of_registered registered] at hp
    exact .inl hp
  | lead joins free leads =>
    rw [Flights.profile?_join_of_free free] at hp
    split at hp
    · cases hp
    · exact .inl hp
  | @finish _ ended state answer leads _ =>
    rw [Flights.profile?_finish] at hp
    obtain ⟨⟨key', state'⟩, hold, hnew⟩ := Option.map_eq_some_iff.mp hp
    split at hnew
    · rename_i hsame
      subst hsame
      obtain ⟨rfl, -⟩ := Prod.mk.inj hnew
      have hrun := h.leads mover query format before ended was leads
      exact .inr (Prod.mk.inj (Option.some.inj (hold.symm.trans hrun))).1
    · exact .inl (hnew ▸ hold)

theorem Led.run [Medium σ] {admits : World ρ σ → Action ρ σ → Prop} (h : Led w)
    (run : Runs admits w log w') : Led w' := by
  induction run with
  | refl => exact h
  | step action _ _ acts ih => exact FlightStep.led ih (act?_flightStep acts)

end World

end ReadThrough
