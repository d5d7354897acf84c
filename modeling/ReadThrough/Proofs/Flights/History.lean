import ReadThrough.Proofs.Flights.Registry

/-! # Histories of flights

A history lists what callers did, newest first: who joined and in which role, which leaders ended
and how, which followers left, what was forgotten. Everything a registry should hold can be read off
the history alone, without looking at the registry.

* `Flights.Evolves`: the flights are what a history has made of none. A leader ends once, and only
  a follower can leave; apart from that the operations come in any order, over any keys;
* `Flights.Records`: the flights agree with a history in every respect;
* `registry_of_history`: registered are exactly the flights whose leaders are alive and which were
  not forgotten, with all that follows for counts, roles and endings.
-/

namespace ReadThrough
set_option autoImplicit false

variable {α : Type}

/-! ## Events and histories -/

/-- Something that callers did to flights. -/
inductive FlightEvent (α : Type)
  /-- A caller joined under a key and was given a role. -/
  | joined (key : String) (role : FlightRole)
  /-- The leader left a value and ended. -/
  | completed (flight : FlightId) (value : α)
  /-- The leader ended without a value. -/
  | abandoned (flight : FlightId)
  | left (flight : FlightId)
  | forgot (key : String)
  | forgotStarting (start : String)

namespace FlightEvent

/-- The event lets later callers for the key start afresh. -/
def Forgets (key : String) : FlightEvent α → Prop
  | .forgot key' => key' = key
  | .forgotStarting start => start.toList <+: key.toList
  | _ => False

def isFollowing (flight : FlightId) : FlightEvent α → Bool
  | .joined _ (.follower followed) => followed == flight
  | _ => false

def isLeaving (flight : FlightId) : FlightEvent α → Bool
  | .left followed => followed == flight
  | _ => false

end FlightEvent

abbrev FlightHistory (α : Type) := List (FlightEvent α)

namespace FlightHistory

def Started (h : FlightHistory α) (flight : FlightId) (key : String) : Prop :=
  .joined key (.leader flight) ∈ h

def Ended (h : FlightHistory α) (flight : FlightId) : Prop :=
  (∃ value, .completed flight value ∈ h) ∨ .abandoned flight ∈ h

def Live (h : FlightHistory α) (flight : FlightId) : Prop :=
  (∃ key, Started h flight key) ∧ ¬ Ended h flight

/-- The key of the flight was forgotten at some time after the flight had started. -/
def Forgotten (h : FlightHistory α) (flight : FlightId) : Prop :=
  ∃ later earlier key, h = later ++ .joined key (.leader flight) :: earlier ∧
    ∃ event ∈ later, event.Forgets key

/-- The leader of the flight holds the key: it is alive, and the key was not forgotten. -/
def Holds (h : FlightHistory α) (flight : FlightId) (key : String) : Prop :=
  Started h flight key ∧ Live h flight ∧ ¬ Forgotten h flight

def joiners (h : FlightHistory α) (flight : FlightId) : Nat :=
  h.countP (·.isFollowing flight)

def leavers (h : FlightHistory α) (flight : FlightId) : Nat :=
  h.countP (·.isLeaving flight)

theorem started_cons {e : FlightEvent α} {h : FlightHistory α} {flight : FlightId} {key : String} :
    Started (e :: h) flight key ↔ e = .joined key (.leader flight) ∨ Started h flight key := by
  simp [Started, eq_comm]

theorem not_forgotten_nil (flight : FlightId) : ¬ Forgotten ([] : FlightHistory α) flight := by
  simp [Forgotten]

theorem forgotten_cons {e : FlightEvent α} {h : FlightHistory α} {flight : FlightId} :
    Forgotten (e :: h) flight ↔
      (∃ key, Started h flight key ∧ e.Forgets key) ∨ Forgotten h flight := by
  constructor
  · rintro ⟨later, earlier, key, heq, event, hmem, hforgets⟩
    cases later with
    | nil => simp at hmem
    | cons e' later =>
      obtain ⟨rfl, rfl⟩ := List.cons.inj heq
      rcases List.mem_cons.mp hmem with rfl | hmem
      · exact .inl ⟨key, by simp [Started], hforgets⟩
      · exact .inr ⟨later, earlier, key, rfl, event, hmem, hforgets⟩
  · rintro (⟨key, hstarted, hforgets⟩ | ⟨later, earlier, key, rfl, event, hmem, hforgets⟩)
    · obtain ⟨later, earlier, rfl⟩ := List.append_of_mem hstarted
      exact ⟨e :: later, earlier, key, rfl, e, by simp, hforgets⟩
    · exact ⟨e :: later, earlier, key, rfl, event, List.mem_cons_of_mem e hmem, hforgets⟩

end FlightHistory

namespace Flights
open FlightHistory

/-- The flights are what the history has made of none. -/
inductive Evolves : FlightHistory α → Flights α → Prop
  | start : Evolves [] {}
  | join {h flights} (key : String) (run : Evolves h flights) :
    Evolves (.joined key (flights.join key).2 :: h) (flights.join key).1
  | complete {h flights} (flight : FlightId) (value : α) (run : Evolves h flights)
      (live : Live h flight) :
    Evolves (.completed flight value :: h) (flights.complete flight value)
  | abandon {h flights} (flight : FlightId) (run : Evolves h flights) (live : Live h flight) :
    Evolves (.abandoned flight :: h) (flights.abandon flight)
  | leave {h flights} (flight : FlightId) (run : Evolves h flights)
      (waiting : leavers h flight < joiners h flight) :
    Evolves (.left flight :: h) flights
  | forget {h flights} (key : String) (run : Evolves h flights) :
    Evolves (.forgot key :: h) (flights.forget key)
  | forgetStarting {h flights} (start : String) (run : Evolves h flights) :
    Evolves (.forgotStarting start :: h) (flights.forgetStarting start)

/-! ## What the flights know of their history -/

/-- The flights agree with the history. -/
structure Records (h : FlightHistory α) (flights : Flights α) : Prop where
  exact : flights.Exact
  started : ∀ flight key,
    (∃ f, flights.all[flight]? = some f ∧ f.key = key) ↔ Started h flight key
  completed : ∀ flight value,
    flights.state? flight = some (.completed value) ↔ .completed flight value ∈ h
  abandoned : ∀ flight, flights.state? flight = some .abandoned ↔ .abandoned flight ∈ h
  /-- The mark of an ended flight is of no use any more, and is not kept up. -/
  forgotten : ∀ flight f, flights.all[flight]? = some f → f.state = .running →
    (f.forgotten = true ↔ Forgotten h flight)
  followers : ∀ flight, flights.followers flight = joiners h flight

namespace Records

variable {h : FlightHistory α} {flights : Flights α}

theorem running_iff (hr : Records h flights) {flight : FlightId} {f : Flight α}
    (hf : flights.all[flight]? = some f) : f.state = .running ↔ ¬ Ended h flight := by
  have hc := hr.completed flight
  have ha := hr.abandoned flight
  simp only [state?, hf, Option.map_some, Option.some.injEq] at hc ha
  cases hs : f.state <;> simp [Ended, ← hc, ← ha, hs]

theorem live_iff (hr : Records h flights) {flight : FlightId} :
    Live h flight ↔ ∃ f, flights.all[flight]? = some f ∧ f.state = .running := by
  simp only [Live, ← hr.started]
  constructor
  · rintro ⟨⟨key, f, hf, -⟩, hlive⟩
    exact ⟨f, hf, (hr.running_iff hf).mpr hlive⟩
  · rintro ⟨f, hf, hrun⟩
    exact ⟨⟨f.key, f, hf, rfl⟩, (hr.running_iff hf).mp hrun⟩

theorem open_iff (hr : Records h flights) {flight : FlightId} {key : String} :
    (∃ f, flights.all[flight]? = some f ∧ f.key = key ∧ f.IsOpen) ↔ Holds h flight key := by
  rw [Holds, ← hr.started, hr.live_iff]
  constructor
  · rintro ⟨f, hf, hkey, hrun, hforgot⟩
    refine ⟨⟨f, hf, hkey⟩, ⟨f, hf, hrun⟩, ?_⟩
    rw [← hr.forgotten flight f hf hrun, hforgot]
    exact Bool.false_ne_true
  · rintro ⟨⟨f, hf, hkey⟩, ⟨f', hf', hrun⟩, hforgot⟩
    obtain rfl : f = f' := Option.some.inj (hf.symm.trans hf')
    refine ⟨f, hf, hkey, hrun, ?_⟩
    rw [← hr.forgotten flight f hf hrun] at hforgot
    simpa using hforgot

theorem registered_iff (hr : Records h flights) {flight : FlightId} {key : String} :
    flights.registry[key]? = some flight ↔ Holds h flight key :=
  (hr.exact key flight).trans hr.open_iff

/-! ## Every operation is recorded -/

theorem empty : Records [] ({} : Flights α) where
  exact := exact_empty
  started := by simp [Started]
  completed := by simp [state?]
  abandoned := by simp [state?]
  forgotten := by simp
  followers := by simp [Flights.followers, joiners]

/-- An event that starts no flight changes flights one by one. It is recorded when it changes each
of them as the event says. -/
theorem update (hr : Records h flights) {flights' : Flights α} {e : FlightEvent α}
    {change : FlightId → Flight α → Flight α}
    (hexact : flights'.Exact)
    (hall : ∀ i, flights'.all[i]? = flights.all[i]?.map (change i))
    (hkey : ∀ i f, (change i f).key = f.key)
    (hnew : ∀ key i, e ≠ .joined key (.leader i))
    (hcompleted : ∀ i value, flights'.state? i = some (.completed value) ↔
      e = .completed i value ∨ flights.state? i = some (.completed value))
    (habandoned : ∀ i, flights'.state? i = some .abandoned ↔
      e = .abandoned i ∨ flights.state? i = some .abandoned)
    (hforgotten : ∀ i f, flights.all[i]? = some f → f.state = .running →
      ((change i f).forgotten = true ↔ e.Forgets f.key ∨ f.forgotten = true))
    (hfollowers : ∀ i f, (change i f).followers = f.followers + if e.isFollowing i then 1 else 0)
    (hfollowed : ∀ i, flights.all[i]? = none → e.isFollowing i = false) :
    Records (e :: h) flights' where
  exact := hexact
  started i key := by
    rw [started_cons, ← hr.started, hall, or_iff_right (hnew key i)]
    simp only [Option.map_eq_some_iff]
    constructor
    · rintro ⟨f', ⟨f, hf, rfl⟩, hkey'⟩
      exact ⟨f, hf, (hkey i f).symm.trans hkey'⟩
    · rintro ⟨f, hf, rfl⟩
      exact ⟨change i f, ⟨f, hf, rfl⟩, hkey i f⟩
  completed i value := by
    rw [hcompleted, hr.completed, List.mem_cons, eq_comm (a := e)]
  abandoned i := by
    rw [habandoned, hr.abandoned, List.mem_cons, eq_comm (a := e)]
  forgotten i f' hf' hrun := by
    have hstate' : flights'.state? i = some .running := by simp [state?, hf', hrun]
    rw [hall] at hf'
    obtain ⟨f, hf, rfl⟩ := Option.map_eq_some_iff.mp hf'
    have hold : f.state = .running := by
      cases hs : f.state with
      | running => rfl
      | completed value =>
        simp [(hcompleted i value).mpr (.inr (by simp [state?, hf, hs]))] at hstate'
      | abandoned =>
        simp [(habandoned i).mpr (.inr (by simp [state?, hf, hs]))] at hstate'
    have hstarted : (∃ key, Started h i key ∧ e.Forgets key) ↔ e.Forgets f.key := by
      simp [← hr.started, hf]
    rw [forgotten_cons, hstarted, ← hr.forgotten i f hf hold, hforgotten i f hf hold]
  followers i := by
    have hold := hr.followers i
    rw [joiners, List.countP_cons, ← joiners, ← hold]
    cases hf : flights.all[i]? with
    | none => simp [Flights.followers, hall, hf, hfollowed i hf]
    | some f => simp [Flights.followers, hall, hf, hfollowers]

theorem join_follower (hr : Records h flights) {key : String} {flight : FlightId}
    (hreg : flights.registry[key]? = some flight) :
    Records (.joined key (.follower flight) :: h) (flights.join key).1 := by
  have hall : ∀ i, (flights.join key).1.all[i]? = flights.all[i]?.map fun f =>
      if flight = i then { f with followers := f.followers + 1 } else f := by
    intro i
    rw [join_of_registered hreg]
    simp only [List.getElem?_modify, Option.map_eq_map]
  have hstate : ∀ i, (flights.join key).1.state? i = flights.state? i := by
    intro i
    rw [state?, state?, hall, Option.map_map]
    congr 1
    funext f
    by_cases hi : flight = i <;> simp [hi]
  refine hr.update (hr.exact.join key) hall ?_ ?_ ?_ ?_ ?_ ?_ ?_
  · intro i f
    split <;> rfl
  · simp
  · simp [hstate]
  · simp [hstate]
  · intro i f hf hrun
    split <;> simp [FlightEvent.Forgets]
  · intro i f
    by_cases hi : flight = i <;> simp [FlightEvent.isFollowing, hi]
  · intro i hnone
    have hlt : flight < flights.all.length := hr.exact.sound.lt_length hreg
    have hne : flight ≠ i := by
      have hle : flights.all.length ≤ i := List.getElem?_eq_none_iff.mp hnone
      exact Nat.ne_of_lt (Nat.lt_of_lt_of_le hlt hle)
    simp [FlightEvent.isFollowing, hne]

/-- A new flight has no past: what the history said of it before would be about a flight that was
not there. -/
theorem join_leader (hr : Records h flights) {key : String}
    (hfree : flights.registry[key]? = none) :
    Records (.joined key (.leader flights.all.length) :: h) (flights.join key).1 := by
  have hall := join_all_of_free hfree
  have hnew : ∀ key', ¬ Started h flights.all.length key' := by
    intro key' hs
    obtain ⟨f, hf, -⟩ := (hr.started _ _).mpr hs
    simp at hf
  have hstate : ∀ i state, state ≠ .running →
      ((flights.join key).1.state? i = some state ↔ flights.state? i = some state) := by
    intro i state hend
    rw [state?, state?, hall]
    by_cases hi : i = flights.all.length
    · simp [hi, Ne.symm hend]
    · simp [hi]
  refine ⟨hr.exact.join key, ?_, ?_, ?_, ?_, ?_⟩
  · intro i key'
    rw [started_cons, hall, ← hr.started]
    by_cases hi : i = flights.all.length
    · subst hi
      simp [eq_comm]
    · simp [hi, Ne.symm hi]
  · intro i value
    have hend : FlightState.completed value ≠ .running := by simp
    rw [hstate i _ hend, hr.completed]
    simp
  · intro i
    have hend : (FlightState.abandoned : FlightState α) ≠ .running := by simp
    rw [hstate i _ hend, hr.abandoned]
    simp
  · intro i f hf hrun
    rw [forgotten_cons]
    simp only [FlightEvent.Forgets, and_false, exists_false, false_or]
    rw [hall] at hf
    by_cases hi : i = flights.all.length
    · subst hi
      rw [if_pos rfl] at hf
      obtain rfl := Option.some.inj hf
      have hnot : ¬ Forgotten h flights.all.length := by
        rintro ⟨later, earlier, key', rfl, -⟩
        exact hnew key' (by simp [Started])
      simpa using hnot
    · rw [if_neg hi] at hf
      exact hr.forgotten i f hf hrun
  · intro i
    have hold := hr.followers i
    rw [joiners, List.countP_cons, ← joiners, ← hold]
    simp only [Flights.followers, hall, FlightEvent.isFollowing]
    by_cases hi : i = flights.all.length
    · subst hi
      simp
    · simp [hi]

theorem join (hr : Records h flights) (key : String) :
    Records (.joined key (flights.join key).2 :: h) (flights.join key).1 := by
  rw [join_role]
  cases hreg : flights.registry[key]? with
  | some flight => exact hr.join_follower hreg
  | none => exact hr.join_leader hreg

theorem finish (hr : Records h flights) {flight : FlightId} (hlive : Live h flight)
    {state : FlightState α} {e : FlightEvent α}
    (he : (∃ value, state = .completed value ∧ e = .completed flight value) ∨
      (state = .abandoned ∧ e = .abandoned flight)) :
    Records (e :: h) (flights.finish flight state) := by
  obtain ⟨f, hf, hrun⟩ := hr.live_iff.mp hlive
  have hstate : ∀ i, (flights.finish flight state).state? i =
      if flight = i then some state else flights.state? i := by
    intro i
    rw [state?, finish_all]
    by_cases hi : flight = i
    · subst hi
      simp [hf]
    · cases hg : flights.all[i]? <;> simp [state?, hi, hg]
  have hbefore : flights.state? flight = some .running := by simp [state?, hf, hrun]
  have hend : state ≠ .running := by
    rcases he with ⟨value, rfl, -⟩ | ⟨rfl, -⟩ <;> simp
  refine hr.update (hr.exact.finish hbefore hend) (finish_all flights flight state)
    ?_ ?_ ?_ ?_ ?_ ?_ ?_
  · intro i f
    split <;> rfl
  · rcases he with ⟨value, -, rfl⟩ | ⟨-, rfl⟩ <;> simp
  · intro i value
    rw [hstate]
    by_cases hi : flight = i
    · subst hi
      rcases he with ⟨value', rfl, rfl⟩ | ⟨rfl, rfl⟩ <;> simp [hbefore]
    · rcases he with ⟨value', -, rfl⟩ | ⟨-, rfl⟩ <;> simp [hi]
  · intro i
    rw [hstate]
    by_cases hi : flight = i
    · subst hi
      rcases he with ⟨value, rfl, rfl⟩ | ⟨rfl, rfl⟩ <;> simp [hbefore]
    · rcases he with ⟨value, -, rfl⟩ | ⟨-, rfl⟩ <;> simp [hi]
  · intro i f hf hrun
    rcases he with ⟨value, -, rfl⟩ | ⟨-, rfl⟩ <;> split <;> simp [FlightEvent.Forgets]
  · intro i f
    rcases he with ⟨value, -, rfl⟩ | ⟨-, rfl⟩ <;> split <;> simp [FlightEvent.isFollowing]
  · rcases he with ⟨value, -, rfl⟩ | ⟨-, rfl⟩ <;> simp [FlightEvent.isFollowing]

/-- Leaving and forgetting: at most marks change, and they change as the event says for every flight
that is still open. -/
theorem mark (hr : Records h flights) (ids : List FlightId) {flights' : Flights α}
    {e : FlightEvent α} (hexact : flights'.Exact)
    (hall : flights'.all = flights.markForgotten ids)
    (he : (∃ i, e = .left i) ∨ (∃ key, e = .forgot key) ∨ ∃ start, e = .forgotStarting start)
    (hmark : ∀ i f, flights.all[i]? = some f → f.IsOpen → (i ∈ ids ↔ e.Forgets f.key)) :
    Records (e :: h) flights' := by
  have hlook : ∀ i, flights'.all[i]? = flights.all[i]?.map fun f =>
      if i ∈ ids then { f with forgotten := true } else f := by
    intro i
    rw [hall, markForgotten_getElem?]
  have hstate : ∀ i, flights'.state? i = flights.state? i := by
    intro i
    rw [state?, state?, hlook, Option.map_map]
    congr 1
    funext f
    by_cases hi : i ∈ ids <;> simp [hi]
  refine hr.update hexact hlook ?_ ?_ ?_ ?_ ?_ ?_ ?_
  · intro i f
    split <;> rfl
  · rcases he with ⟨i, rfl⟩ | ⟨key, rfl⟩ | ⟨start, rfl⟩ <;> simp
  · intro i value
    rw [hstate]
    rcases he with ⟨i, rfl⟩ | ⟨key, rfl⟩ | ⟨start, rfl⟩ <;> simp
  · intro i
    rw [hstate]
    rcases he with ⟨i, rfl⟩ | ⟨key, rfl⟩ | ⟨start, rfl⟩ <;> simp
  · intro i f hf hrun
    by_cases hforgot : f.forgotten = true
    · by_cases hi : i ∈ ids <;> simp [hi, hforgot]
    · have hopen : f.IsOpen := ⟨hrun, by simpa using hforgot⟩
      by_cases hi : i ∈ ids
      · simp [hi, (hmark i f hf hopen).mp hi]
      · simp [hi, hforgot, mt (hmark i f hf hopen).mpr hi]
  · intro i f
    rcases he with ⟨i, rfl⟩ | ⟨key, rfl⟩ | ⟨start, rfl⟩ <;> split <;>
      simp [FlightEvent.isFollowing]
  · rcases he with ⟨i, rfl⟩ | ⟨key, rfl⟩ | ⟨start, rfl⟩ <;> simp [FlightEvent.isFollowing]

theorem leave (hr : Records h flights) (flight : FlightId) :
    Records (.left flight :: h) flights := by
  refine hr.mark [] hr.exact ?_ (.inl ⟨flight, rfl⟩) ?_
  · apply List.ext_getElem?
    intro i
    simp [markForgotten_getElem?]
  · simp [FlightEvent.Forgets]

theorem forget (hr : Records h flights) (key : String) :
    Records (.forgot key :: h) (flights.forget key) := by
  have hexact := hr.exact.forget key
  cases hreg : flights.registry[key]? with
  | none =>
    rw [forget_of_free hreg] at hexact ⊢
    refine hr.mark [] hexact ?_ (.inr (.inl ⟨key, rfl⟩)) ?_
    · apply List.ext_getElem?
      intro i
      simp [markForgotten_getElem?]
    · intro i f hf hopen
      have hself := (hr.exact f.key i).mpr ⟨f, hf, rfl, hopen⟩
      have hne : key ≠ f.key := by
        rintro rfl
        rw [hreg] at hself
        cases hself
      simpa [FlightEvent.Forgets] using hne
  | some flight =>
    rw [forget_of_registered hreg] at hexact ⊢
    refine hr.mark [flight] hexact rfl (.inr (.inl ⟨key, rfl⟩)) ?_
    intro i f hf hopen
    have hself := (hr.exact f.key i).mpr ⟨f, hf, rfl, hopen⟩
    rw [List.mem_singleton]
    constructor
    · rintro rfl
      exact hr.exact.sound.key_unique hreg hself
    · intro hkey
      have hkey' : key = f.key := hkey
      rw [← hkey', hreg] at hself
      exact (Option.some.inj hself).symm

theorem forgetStarting (hr : Records h flights) (start : String) :
    Records (.forgotStarting start :: h) (flights.forgetStarting start) := by
  refine hr.mark (flights.starting start) (hr.exact.forgetStarting start)
    (forgetStarting_all flights start) (.inr (.inr ⟨start, rfl⟩)) ?_
  intro i f hf hopen
  have hself := (hr.exact f.key i).mpr ⟨f, hf, rfl, hopen⟩
  rw [mem_starting]
  constructor
  · rintro ⟨key, hp, hreg⟩
    exact hr.exact.sound.key_unique hreg hself ▸ hp
  · intro hp
    exact ⟨f.key, hp, hself⟩

end Records

theorem Evolves.records {h : FlightHistory α} {flights : Flights α} (run : Evolves h flights) :
    Records h flights := by
  induction run with
  | start => exact .empty
  | join key _ ih => exact ih.join key
  | complete flight value _ live ih => exact ih.finish live (.inl ⟨value, rfl, rfl⟩)
  | abandon flight _ live ih => exact ih.finish live (.inr ⟨rfl, rfl⟩)
  | leave flight _ _ ih => exact ih.leave flight
  | forget key _ ih => exact ih.forget key
  | forgetStarting start _ ih => exact ih.forgetStarting start

/-! ## The registry at any time -/

theorem Sound.nodup_registered {flights : Flights α} (hs : flights.Sound) :
    (flights.registry.toList.map (·.2)).Nodup := by
  rw [List.nodup_iff_pairwise_ne, List.pairwise_map]
  refine Std.TreeMap.distinct_keys_toList.imp_of_mem ?_
  rintro ⟨key, flight⟩ ⟨key', flight'⟩ hmem hmem' hdistinct heq
  have hreg := Std.TreeMap.mem_toList_iff_getElem?_eq_some.mp hmem
  have hreg' := Std.TreeMap.mem_toList_iff_getElem?_eq_some.mp hmem'
  obtain rfl : flight = flight' := heq
  have hkey : key = key' := hs.key_unique hreg hreg'
  exact hdistinct (by simp [hkey])

theorem Records.openCount_eq {h : FlightHistory α} {flights : Flights α} (hr : Records h flights) :
    ∃ holders : List FlightId, holders.Nodup ∧
      (∀ flight, flight ∈ holders ↔ Live h flight ∧ ¬ Forgotten h flight) ∧
      flights.openCount = holders.length := by
  refine ⟨flights.registry.toList.map (·.2), hr.exact.sound.nodup_registered, ?_, ?_⟩
  · intro flight
    simp only [List.mem_map, Prod.exists, exists_eq_right,
      Std.TreeMap.mem_toList_iff_getElem?_eq_some, hr.registered_iff]
    constructor
    · rintro ⟨key, -, hlive, hforgot⟩
      exact ⟨hlive, hforgot⟩
    · rintro ⟨⟨⟨key, hstarted⟩, hend⟩, hforgot⟩
      exact ⟨key, hstarted, ⟨⟨key, hstarted⟩, hend⟩, hforgot⟩
  · rw [List.length_map, Std.TreeMap.length_toList, openCount]

/-- What a history says about the registry. -/
structure Kept (h : FlightHistory α) (flights : Flights α) : Prop where
  /-- Under a key stands exactly the flight whose leader holds it. -/
  registered : ∀ (key : String) (flight : FlightId),
    flights.registry[key]? = some flight ↔ Holds h flight key
  one_for_key : ∀ (key : String) (flight flight' : FlightId),
    Holds h flight key → Holds h flight' key → flight = flight'
  /-- As many flights can be joined as there are live leaders that were not forgotten. -/
  count : ∃ holders : List FlightId, holders.Nodup ∧
    (∀ flight, flight ∈ holders ↔ Live h flight ∧ ¬ Forgotten h flight) ∧
    flights.openCount = holders.length
  /-- A caller leads exactly when no leader holds the key, and else follows that leader. -/
  leads : ∀ key : String, (∃ flight, (flights.join key).2 = .leader flight) ↔
    ¬ ∃ flight, Holds h flight key
  follows : ∀ (key : String) (flight : FlightId), (flights.join key).2 = .follower flight ↔
    Holds h flight key
  /-- The end of a forgotten flight, with a value or without, leaves the registry as it is. -/
  forgotten_end : ∀ (flight : FlightId) (state : FlightState α),
    Live h flight → Forgotten h flight →
      (flights.finish flight state).registry = flights.registry
  /-- The end of any flight leaves all others where they are. -/
  other_end : ∀ (flight other : FlightId) (state : FlightState α) (key : String),
    Live h flight → other ≠ flight →
      ((flights.finish flight state).registry[key]? = some other ↔
        flights.registry[key]? = some other)
  followers : ∀ flight : FlightId, flights.followers flight = joiners h flight

namespace Records

variable {h : FlightHistory α} {flights : Flights α}

theorem registry_of_forgotten_end (hr : Records h flights) {flight : FlightId}
    (hlive : Live h flight) (hforgot : Forgotten h flight) (state : FlightState α) :
    (flights.finish flight state).registry = flights.registry := by
  obtain ⟨f, hf, hrun⟩ := hr.live_iff.mp hlive
  rw [finish_registry state hf, if_pos ((hr.forgotten flight f hf hrun).mpr hforgot)]

theorem registry_of_other_end (hr : Records h flights) {flight other : FlightId}
    (hlive : Live h flight) (hne : other ≠ flight) (state : FlightState α) (key : String) :
    (flights.finish flight state).registry[key]? = some other ↔
      flights.registry[key]? = some other := by
  obtain ⟨f, hf, hrun⟩ := hr.live_iff.mp hlive
  rw [finish_registry state hf]
  by_cases hforgot : f.forgotten = true
  · rw [if_pos hforgot]
  · have hself := (hr.exact f.key flight).mpr ⟨f, hf, rfl, hrun, by simpa using hforgot⟩
    rw [if_neg hforgot, Std.TreeMap.getElem?_erase]
    by_cases hkey : f.key = key
    · subst hkey
      simp [hself, Ne.symm hne]
    · simp [hkey]

end Records

/-- After any operations in any order, over any keys, the registry is what the history says. -/
theorem registry_of_history {h : FlightHistory α} {flights : Flights α} (run : Evolves h flights) :
    Kept h flights := by
  have hr := run.records
  refine
    { registered := fun key flight => hr.registered_iff
      one_for_key := ?_
      count := hr.openCount_eq
      leads := ?_
      follows := ?_
      forgotten_end := fun flight state hlive hforgot =>
        hr.registry_of_forgotten_end hlive hforgot state
      other_end := fun flight other state key hlive hne =>
        hr.registry_of_other_end hlive hne state key
      followers := hr.followers }
  · intro key flight flight' h1 h2
    rw [← hr.registered_iff] at h1 h2
    exact Option.some.inj (h1.symm.trans h2)
  · intro key
    simp only [← hr.registered_iff, join_role]
    cases flights.registry[key]? <;> simp
  · intro key flight
    rw [← hr.registered_iff, join_role]
    cases flights.registry[key]? <;> simp

/-- A flight with a follower is forgotten, a second one of the same key starts, and then the first
leader ends: the second flight stays registered. -/
theorem second_flight_stays :
    ∃ (h : FlightHistory Nat) (flights : Flights Nat),
      h = [.completed 0 7, .joined "users:all" (.leader 1), .forgotStarting "users:",
        .joined "users:all" (.follower 0), .joined "users:all" (.leader 0)] ∧
      Evolves h flights ∧ Kept h flights ∧ flights.registry["users:all"]? = some 1 ∧
      flights.followers 0 = 1 := by
  have run₂ : Evolves [.joined "users:all" (.follower 0), .joined "users:all" (.leader 0)]
      ((({} : Flights Nat).join "users:all").1.join "users:all").1 :=
    .join "users:all" (.join "users:all" .start)
  have run₄ := Evolves.join "users:all" (.forgetStarting "users:" run₂)
  have hrole : ((((({} : Flights Nat).join "users:all").1.join "users:all").1.forgetStarting
      "users:").join "users:all").2 = .leader 1 := by
    have hunder : "users:".toList <+: "users:all".toList := by decide
    rw [join_role, forgetStarting_registry, if_pos hunder, length_forgetStarting]
    simp [join]
  rw [hrole] at run₄
  have run := Evolves.complete 0 7 run₄ ⟨⟨"users:all", by simp [Started]⟩, by simp [Ended]⟩
  have kept := registry_of_history run
  have holds : Holds [.completed 0 7, .joined "users:all" (.leader 1), .forgotStarting "users:",
      .joined "users:all" (.follower 0), .joined "users:all" (.leader 0)] 1 "users:all" := by
    refine ⟨by simp [Started], ⟨⟨"users:all", by simp [Started]⟩, by simp [Ended]⟩, ?_⟩
    simp [forgotten_cons, not_forgotten_nil, FlightEvent.Forgets, Started]
  exact ⟨_, _, rfl, run, kept, (kept.registered _ _).mpr holds, kept.followers 0⟩

end Flights

end ReadThrough
