import ReadThrough.Flights

/-! # The registry of flights

What each operation on flights does to a single flight and to a single key, and the two halves of
the registry's invariant:

* `Sound`: every registered flight stands under its own key, runs, and was not forgotten while it
  ran;
* `Exact`: moreover every such flight is registered;
* `profile?`: what never changes about a flight, its key, with how it stands.

`Sound` needs nothing of the callers. `Exact` needs that only a running flight is ended, which is
what leaders do.
-/

namespace ReadThrough
set_option autoImplicit false

variable {α : Type}

/-- A flight that later callers may still join: it runs and was not forgotten. -/
def Flight.IsOpen (flight : Flight α) : Prop :=
  flight.state = .running ∧ flight.forgotten = false

namespace Flights

/-! ## What joining does -/

theorem join_of_registered {flights : Flights α} {key : String} {flight : FlightId}
    (h : flights.registry[key]? = some flight) :
    flights.join key =
      ({ flights with
          all := flights.all.modify flight fun f => { f with followers := f.followers + 1 } },
        .follower flight) := by
  simp [join, h]

theorem join_of_free {flights : Flights α} {key : String} (h : flights.registry[key]? = none) :
    flights.join key =
      ({ all := flights.all ++ [{ key := key }]
         registry := flights.registry.insert key flights.all.length },
        .leader flights.all.length) := by
  simp [join, h]

theorem join_all_of_free {flights : Flights α} {key : String} (h : flights.registry[key]? = none)
    (i : FlightId) :
    (flights.join key).1.all[i]? =
      if i = flights.all.length then some { key := key } else flights.all[i]? := by
  rw [join_of_free h]
  grind

theorem join_role (flights : Flights α) (key : String) :
    (flights.join key).2 =
      match flights.registry[key]? with
      | some flight => .follower flight
      | none => .leader flights.all.length := by
  cases h : flights.registry[key]? with
  | none => rw [join_of_free h]
  | some flight => rw [join_of_registered h]

/-! ## What forgetting does -/

theorem markForgotten_getElem? (flights : Flights α) (ids : List FlightId) (i : FlightId) :
    (flights.markForgotten ids)[i]? =
      flights.all[i]?.map fun f => if i ∈ ids then { f with forgotten := true } else f := by
  simp [markForgotten, List.getElem?_mapIdx]

/-- The flights that `forgetStarting` marks: those registered under a key with this start. -/
def starting (flights : Flights α) (start : String) : List FlightId :=
  (flights.registry.toList.filter fun entry =>
    start.toList.isPrefixOf entry.1.toList).map (·.2)

theorem mem_starting {flights : Flights α} {start : String} {flight : FlightId} :
    flight ∈ flights.starting start ↔
      ∃ key : String, start.toList <+: key.toList ∧ flights.registry[key]? = some flight := by
  simp only [starting, List.mem_map, List.mem_filter, Prod.exists, exists_eq_right,
    Std.TreeMap.mem_toList_iff_getElem?_eq_some, List.isPrefixOf_iff_prefix]
  exact exists_congr fun key => And.comm

theorem forgetStarting_all (flights : Flights α) (start : String) :
    (flights.forgetStarting start).all = flights.markForgotten (flights.starting start) := rfl

theorem forgetStarting_registry (flights : Flights α) (start key : String) :
    (flights.forgetStarting start).registry[key]? =
      if start.toList <+: key.toList then none else flights.registry[key]? := by
  simp only [forgetStarting, Std.TreeMap.getElem?_filter']
  by_cases h : start.toList <+: key.toList
  · have hp : start.toList.isPrefixOf key.toList = true := List.isPrefixOf_iff_prefix.mpr h
    cases hr : flights.registry[key]? <;> simp [h, hp]
  · have hp : start.toList.isPrefixOf key.toList = false := by
      rw [← Bool.not_eq_true, List.isPrefixOf_iff_prefix]
      exact h
    cases hr : flights.registry[key]? <;> simp [h, hp]

theorem forget_of_free {flights : Flights α} {key : String} (h : flights.registry[key]? = none) :
    flights.forget key = flights := by
  simp [forget, h]

theorem forget_of_registered {flights : Flights α} {key : String} {flight : FlightId}
    (h : flights.registry[key]? = some flight) :
    flights.forget key =
      { all := flights.markForgotten [flight], registry := flights.registry.erase key } := by
  simp [forget, h]

theorem forget_registry (flights : Flights α) (key key' : String) :
    (flights.forget key).registry[key']? =
      if key = key' then none else flights.registry[key']? := by
  cases hr : flights.registry[key]? with
  | none =>
    rw [forget_of_free hr]
    split
    · rename_i hk
      rw [← hk, hr]
    · rfl
  | some flight =>
    rw [forget_of_registered hr, Std.TreeMap.getElem?_erase]
    simp

/-! ## What ending does -/

theorem finish_all (flights : Flights α) (flight : FlightId) (state : FlightState α)
    (i : FlightId) :
    (flights.finish flight state).all[i]? =
      flights.all[i]?.map fun f => if flight = i then { f with state := state } else f := by
  unfold finish
  split
  · rename_i hnone
    by_cases h : flight = i
    · subst h; simp [hnone]
    · simp [h]
  · simp only [List.getElem?_modify, Option.map_eq_map]

theorem finish_registry {flights : Flights α} {flight : FlightId} {f : Flight α}
    (state : FlightState α) (h : flights.all[flight]? = some f) :
    (flights.finish flight state).registry =
      if f.forgotten then flights.registry else flights.registry.erase f.key := by
  simp [finish, h]

theorem registry_of_finish {flights : Flights α} {flight flight' : FlightId}
    {state : FlightState α} {key : String}
    (h : (flights.finish flight state).registry[key]? = some flight') :
    flights.registry[key]? = some flight' := by
  unfold finish at h
  split at h
  · exact h
  · dsimp only at h
    split at h
    · exact h
    · rw [Std.TreeMap.getElem?_erase] at h
      split at h
      · cases h
      · exact h

/-! ## Registered flights are open -/

/-- Every registered flight has the key that it is registered under, and is open. -/
def Sound (flights : Flights α) : Prop :=
  ∀ (key : String) (flight : FlightId), flights.registry[key]? = some flight →
    ∃ f, flights.all[flight]? = some f ∧ f.key = key ∧ f.IsOpen

theorem Sound.lt_length {flights : Flights α} (hs : flights.Sound) {key : String}
    {flight : FlightId} (h : flights.registry[key]? = some flight) :
    flight < flights.all.length := by
  obtain ⟨f, hf, -, -⟩ := hs key flight h
  exact (List.getElem?_eq_some_iff.mp hf).1

theorem Sound.key_unique {flights : Flights α} (hs : flights.Sound) {key key' : String}
    {flight : FlightId} (h : flights.registry[key]? = some flight)
    (h' : flights.registry[key']? = some flight) : key = key' := by
  obtain ⟨f, hf, hkey, -⟩ := hs key flight h
  obtain ⟨f', hf', hkey', -⟩ := hs key' flight h'
  have hff : f = f' := Option.some.inj (hf.symm.trans hf')
  rw [← hkey, ← hkey', hff]

theorem Sound.join {flights : Flights α} (hs : flights.Sound) (key : String) :
    (flights.join key).1.Sound := by
  cases hr : flights.registry[key]? with
  | some flight =>
    rw [join_of_registered hr]
    intro key' flight' h
    obtain ⟨f, hf, hkey, hopen⟩ := hs key' flight' h
    by_cases hi : flight = flight'
    · subst hi
      exact ⟨{ f with followers := f.followers + 1 }, by simp [hf], hkey, hopen⟩
    · exact ⟨f, by simp [hf, hi], hkey, hopen⟩
  | none =>
    intro key' flight' h
    rw [join_all_of_free hr]
    simp only [join_of_free hr, Std.TreeMap.getElem?_insert] at h
    by_cases hk : key = key'
    · subst hk
      have hlen : flights.all.length = flight' := by simpa using h
      exact ⟨{ key := key }, by rw [if_pos hlen.symm], rfl, rfl, rfl⟩
    · have hold : flights.registry[key']? = some flight' := by simpa [hk] using h
      obtain ⟨f, hf, hkey, hopen⟩ := hs key' flight' hold
      have hlt : flight' < flights.all.length := hs.lt_length hold
      exact ⟨f, by rw [if_neg (Nat.ne_of_lt hlt), hf], hkey, hopen⟩

theorem Sound.forget {flights : Flights α} (hs : flights.Sound) (key : String) :
    (flights.forget key).Sound := by
  cases hr : flights.registry[key]? with
  | none => rwa [forget_of_free hr]
  | some flight =>
    rw [forget_of_registered hr]
    intro key' flight' h
    rw [Std.TreeMap.getElem?_erase] at h
    by_cases hk : key = key'
    · simp [hk] at h
    · have hold : flights.registry[key']? = some flight' := by simpa [hk] using h
      obtain ⟨f, hf, hkey, hopen⟩ := hs key' flight' hold
      have hne : flight' ≠ flight := fun he => hk (hs.key_unique hr (he ▸ hold))
      exact ⟨f, by simp [markForgotten_getElem?, hf, hne], hkey, hopen⟩

theorem Sound.forgetStarting {flights : Flights α} (hs : flights.Sound) (start : String) :
    (flights.forgetStarting start).Sound := by
  intro key flight h
  rw [forgetStarting_registry] at h
  by_cases hp : start.toList <+: key.toList
  · simp [hp] at h
  · have hold : flights.registry[key]? = some flight := by simpa [hp] using h
    obtain ⟨f, hf, hkey, hopen⟩ := hs key flight hold
    have hout : flight ∉ flights.starting start := by
      rw [mem_starting]
      rintro ⟨key', hp', hr'⟩
      exact hp (hs.key_unique hold hr' ▸ hp')
    exact ⟨f, by simp [forgetStarting_all, markForgotten_getElem?, hf, hout], hkey, hopen⟩

/-- Ending a flight that was forgotten leaves the registry alone, and ending any other takes it
out; so whatever stays registered is another flight. -/
theorem Sound.finish {flights : Flights α} (hs : flights.Sound) (flight : FlightId)
    (state : FlightState α) : (flights.finish flight state).Sound := by
  cases hf : flights.all[flight]? with
  | none => simpa [Flights.finish, hf] using hs
  | some f =>
    intro key flight' h
    obtain ⟨f', hf', hkey, hopen⟩ := hs key flight' (registry_of_finish h)
    rw [finish_registry state hf] at h
    have hne : flight ≠ flight' := by
      rintro rfl
      have hff : f = f' := Option.some.inj (hf.symm.trans hf')
      subst hff
      simp [hopen.2, hkey] at h
    exact ⟨f', by simp [finish_all, hf', hne], hkey, hopen⟩

/-! ## Open flights are registered -/

/-- The registry holds exactly the open flights, each under its own key. -/
def Exact (flights : Flights α) : Prop :=
  ∀ (key : String) (flight : FlightId), flights.registry[key]? = some flight ↔
    ∃ f, flights.all[flight]? = some f ∧ f.key = key ∧ f.IsOpen

theorem Exact.sound {flights : Flights α} (he : flights.Exact) : flights.Sound :=
  fun key flight => (he key flight).mp

theorem exact_empty : Exact ({} : Flights α) := by
  intro key flight
  simp

theorem Exact.join {flights : Flights α} (he : flights.Exact) (key : String) :
    (flights.join key).1.Exact := by
  intro key' flight'
  refine ⟨he.sound.join key key' flight', ?_⟩
  rintro ⟨f', hf', hkey, hopen⟩
  cases hr : flights.registry[key]? with
  | some flight =>
    rw [join_of_registered hr] at hf' ⊢
    by_cases hi : flight = flight'
    · subst hi
      obtain ⟨f, hf, rfl⟩ : ∃ f, flights.all[flight]? = some f ∧
          { f with followers := f.followers + 1 } = f' := by simpa using hf'
      exact (he key' flight).mpr ⟨f, hf, hkey, hopen⟩
    · exact (he key' flight').mpr ⟨f', by simpa [hi] using hf', hkey, hopen⟩
  | none =>
    rw [join_all_of_free hr] at hf'
    simp only [join_of_free hr, Std.TreeMap.getElem?_insert]
    split at hf'
    · rename_i hnew
      cases hf'
      simp [← hkey, hnew]
    · have hold := (he key' flight').mpr ⟨f', hf', hkey, hopen⟩
      have hne : key ≠ key' := by
        rintro rfl
        rw [hr] at hold
        cases hold
      simpa [hne] using hold

/-- A flight that is not marked is as it was, and one that is marked is no longer open. -/
theorem getElem?_of_markForgotten_open {flights : Flights α} {ids : List FlightId}
    {flight : FlightId} {f : Flight α} (hf : (flights.markForgotten ids)[flight]? = some f)
    (hopen : f.IsOpen) : flight ∉ ids ∧ flights.all[flight]? = some f := by
  rw [markForgotten_getElem?] at hf
  obtain ⟨g, hg, hgf⟩ := Option.map_eq_some_iff.mp hf
  by_cases hin : flight ∈ ids
  · rw [if_pos hin] at hgf
    subst hgf
    exact absurd hopen.2 (by simp)
  · rw [if_neg hin] at hgf
    exact ⟨hin, hgf ▸ hg⟩

theorem Exact.forget {flights : Flights α} (he : flights.Exact) (key : String) :
    (flights.forget key).Exact := by
  intro key' flight'
  refine ⟨he.sound.forget key key' flight', ?_⟩
  rintro ⟨f, hf, hkey, hopen⟩
  cases hr : flights.registry[key]? with
  | none =>
    rw [forget_of_free hr] at hf ⊢
    exact (he key' flight').mpr ⟨f, hf, hkey, hopen⟩
  | some flight =>
    rw [forget_of_registered hr] at hf ⊢
    obtain ⟨hout, hold⟩ := getElem?_of_markForgotten_open hf hopen
    have hreg := (he key' flight').mpr ⟨f, hold, hkey, hopen⟩
    have hne : key ≠ key' := by
      rintro rfl
      rw [hr] at hreg
      cases hreg
      simp at hout
    simpa [Std.TreeMap.getElem?_erase, hne] using hreg

theorem Exact.forgetStarting {flights : Flights α} (he : flights.Exact) (start : String) :
    (flights.forgetStarting start).Exact := by
  intro key flight
  refine ⟨he.sound.forgetStarting start key flight, ?_⟩
  rintro ⟨f, hf, hkey, hopen⟩
  rw [forgetStarting_all] at hf
  obtain ⟨hout, hold⟩ := getElem?_of_markForgotten_open hf hopen
  have hreg := (he key flight).mpr ⟨f, hold, hkey, hopen⟩
  have hp : ¬ start.toList <+: key.toList :=
    fun hp => hout (mem_starting.mpr ⟨key, hp, hreg⟩)
  rw [forgetStarting_registry, if_neg hp]
  exact hreg

/-- Only here it matters that the flight still runs: ending it a second time would take a newer
flight of the same key out of the registry. -/
theorem Exact.finish {flights : Flights α} (he : flights.Exact) {flight : FlightId}
    (hrun : flights.state? flight = some .running) {state : FlightState α}
    (hend : state ≠ .running) : (flights.finish flight state).Exact := by
  intro key flight'
  refine ⟨he.sound.finish flight state key flight', ?_⟩
  rintro ⟨f', hf', hkey, hopen⟩
  obtain ⟨f, hf, hfrun⟩ := Option.map_eq_some_iff.mp hrun
  rw [finish_all] at hf'
  obtain ⟨g, hg, hgf⟩ := Option.map_eq_some_iff.mp hf'
  have hne : flight ≠ flight' := by
    intro h
    rw [if_pos h] at hgf
    subst hgf
    exact hend hopen.1
  rw [if_neg hne] at hgf
  subst hgf
  have hreg := (he key flight').mpr ⟨g, hg, hkey, hopen⟩
  rw [finish_registry state hf]
  by_cases hforgot : f.forgotten
  · rwa [if_pos hforgot]
  · have hself := (he f.key flight).mpr ⟨f, hf, rfl, hfrun, by simpa using hforgot⟩
    have hkeys : f.key ≠ key := by
      rintro rfl
      rw [hself] at hreg
      exact hne (Option.some.inj hreg)
    simpa [hforgot, Std.TreeMap.getElem?_erase, hkeys] using hreg

/-! ## Keys and states of flights -/

def profile? (flights : Flights α) (flight : FlightId) : Option (String × FlightState α) :=
  flights.all[flight]?.map fun f => (f.key, f.state)

theorem state?_eq_profile? (flights : Flights α) (flight : FlightId) :
    flights.state? flight = (flights.profile? flight).map (·.2) := by
  simp [state?, profile?, Function.comp_def]

theorem state?_of_profile? {flights : Flights α} {flight : FlightId} {key : String}
    {state : FlightState α} (h : flights.profile? flight = some (key, state)) :
    flights.state? flight = some state := by
  simp [state?_eq_profile?, h]

theorem lt_length_of_profile? {flights : Flights α} {flight : FlightId}
    {profile : String × FlightState α} (h : flights.profile? flight = some profile) :
    flight < flights.all.length := by
  obtain ⟨f, hf, -⟩ := Option.map_eq_some_iff.mp h
  exact (List.getElem?_eq_some_iff.mp hf).1

theorem profile?_join_of_registered {flights : Flights α} {key : String} {flight : FlightId}
    (h : flights.registry[key]? = some flight) (i : FlightId) :
    (flights.join key).1.profile? i = flights.profile? i := by
  rw [join_of_registered h]
  simp only [profile?, List.getElem?_modify, Option.map_map, Option.map_eq_map]
  congr 1
  funext f
  by_cases hi : flight = i <;> simp [hi]

theorem profile?_join_of_free {flights : Flights α} {key : String}
    (h : flights.registry[key]? = none) (i : FlightId) :
    (flights.join key).1.profile? i =
      if i = flights.all.length then some (key, .running) else flights.profile? i := by
  rw [profile?, join_all_of_free h]
  split <;> rfl

theorem profile?_markForgotten (flights : Flights α) (ids : List FlightId)
    (registry : Std.TreeMap String FlightId) (i : FlightId) :
    ({ all := flights.markForgotten ids, registry := registry } : Flights α).profile? i =
      flights.profile? i := by
  simp only [profile?, markForgotten_getElem?, Option.map_map]
  congr 1
  funext f
  by_cases hi : i ∈ ids <;> simp [hi]

theorem profile?_forget (flights : Flights α) (key : String) (i : FlightId) :
    (flights.forget key).profile? i = flights.profile? i := by
  cases hr : flights.registry[key]? with
  | none => rw [forget_of_free hr]
  | some flight => rw [forget_of_registered hr, profile?_markForgotten]

theorem profile?_forgetStarting (flights : Flights α) (start : String) (i : FlightId) :
    (flights.forgetStarting start).profile? i = flights.profile? i :=
  profile?_markForgotten flights _ _ i

theorem profile?_finish (flights : Flights α) (flight : FlightId) (state : FlightState α)
    (i : FlightId) :
    (flights.finish flight state).profile? i =
      (flights.profile? i).map fun p => if flight = i then (p.1, state) else p := by
  simp only [profile?, finish_all, Option.map_map]
  congr 1
  funext f
  by_cases hi : flight = i <;> simp [hi]

theorem length_join_of_registered {flights : Flights α} {key : String} {flight : FlightId}
    (h : flights.registry[key]? = some flight) :
    (flights.join key).1.all.length = flights.all.length := by
  simp [join_of_registered h]

theorem length_forget (flights : Flights α) (key : String) :
    (flights.forget key).all.length = flights.all.length := by
  cases hr : flights.registry[key]? with
  | none => rw [forget_of_free hr]
  | some flight => simp [forget_of_registered hr, markForgotten]

theorem length_forgetStarting (flights : Flights α) (start : String) :
    (flights.forgetStarting start).all.length = flights.all.length := by
  simp [forgetStarting_all, markForgotten]

theorem length_finish (flights : Flights α) (flight : FlightId) (state : FlightState α) :
    (flights.finish flight state).all.length = flights.all.length := by
  unfold finish
  split <;> simp

theorem length_join_of_free {flights : Flights α} {key : String}
    (h : flights.registry[key]? = none) :
    (flights.join key).1.all.length = flights.all.length + 1 := by
  simp [join_of_free h]

end Flights

end ReadThrough
