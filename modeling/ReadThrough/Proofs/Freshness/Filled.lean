import ReadThrough.Proofs.Freshness.Places

/-! # Entries made of answers

As long as only reads bring something into the store, and the store belongs to the cache alone, every
entry is made of an answer that the data source gave to a read.

* `FilledIn` are the entries made of answers within a log;
* `World.Calls` are the actions that store nothing else, `filledIn_of_supplies` what they store, and
  in `World.CallsAmidLoss` entries may get lost besides;
* `Stocked` is the invariant of a store that was empty at first.
-/

namespace ReadThrough
set_option autoImplicit false

variable {ρ σ : Type}

/-! ## Entries and answers -/

theorem Read.Fills.of_same {c c' : Cache} {query : Query} {format : RowFormat ρ}
    {result : Option (ResultSet ρ)} {known : List String} {key value : String}
    (h : Read.Fills c query format result known key value) (config : c'.config = c.config)
    (space : c'.space = c.space) : Read.Fills c' query format result known key value := by
  have hkey := Cache.resultKey_of_space space query
  cases h with
  | search fills =>
    cases fills with
    | absence level nothing => exact .search (hkey ▸ .absence (config ▸ level) nothing)
    | found level answered written =>
      exact .search (hkey ▸ .found (config ▸ level) answered written)
  | primary answered mem written identified =>
    exact space ▸ .primary answered mem written identified
  | unique answered mem written identified known =>
    exact space ▸ .unique answered mem written identified known

theorem Read.Fills.grows {c c' : Cache} {query : Query} {format : RowFormat ρ}
    {result : Option (ResultSet ρ)} {known : List String} {key value : String}
    (h : Read.Fills c query format result known key value) (grows : c.Grows c') :
    Read.Fills c' query format result known key value :=
  h.of_same grows.config grows.space

/-- The entry is made of an answer of the data source within the log. -/
def FilledIn (c : Cache) (log : List (Event ρ)) (key value : String) : Prop :=
  ∃ reader query format result known,
    .delivered reader query format (.answered result) ∈ log ∧
      Read.Fills c query format result known key value

theorem FilledIn.append {c c' : Cache} {log : List (Event ρ)} {key value : String}
    (h : FilledIn c log key value) (grows : c.Grows c') (events : List (Event ρ)) :
    FilledIn c' (log ++ events) key value := by
  obtain ⟨reader, query, format, result, known, hmem, hfills⟩ := h
  exact ⟨reader, query, format, result, known, List.mem_append_left events hmem,
    hfills.grows grows⟩

theorem FilledIn.prepend {c : Cache} {events : List (Event ρ)} {key value : String}
    (h : FilledIn c events key value) (log : List (Event ρ)) :
    FilledIn c (log ++ events) key value := by
  obtain ⟨reader, query, format, result, known, hmem, hfills⟩ := h
  exact ⟨reader, query, format, result, known, List.mem_append_right log hmem, hfills⟩

/-- What an entry is made of does not depend on what the cache has learnt. -/
theorem FilledIn.of_grows {c c' : Cache} {log : List (Event ρ)} {key value : String}
    (h : FilledIn c' log key value) (grows : c.Grows c') : FilledIn c log key value := by
  obtain ⟨reader, query, format, result, known, hmem, hfills⟩ := h
  exact ⟨reader, query, format, result, known, hmem, hfills.of_same grows.config.symm grows.space.symm⟩

/-! ## Steps that store answers only -/

namespace World

variable [Medium σ] {w w' : World ρ σ} {key value : String}

/-- The store belongs to the cache alone, and no direct operation moves that stores something. -/
def Calls (w : World ρ σ) (action : Action ρ σ) : Prop :=
  action.disturbs = false ∧
    w.Moves (fun activity => activity.isRead ∨ activity.fills? = none) action

instance (w : World ρ σ) (action : Action ρ σ) : Decidable (w.Calls action) :=
  inferInstanceAs (Decidable (action.disturbs = false ∧
    w.Moves (fun activity => activity.isRead ∨ activity.fills? = none) action))

theorem filledIn_of_supplies {move : Move ρ} {activity : Activity ρ}
    (admitted : w.Calls (.move move)) (acts : w.act? (.move move) = some w')
    (found : w.node.activities[move.activity]? = some activity)
    (supplies : Activity.Supplies w.node.cache activity move w'.node.cache key value) :
    FilledIn w'.node.cache (w.events w' (.move move)) key value := by
  obtain ⟨activity', step, found', taken, rfl⟩ := act?_move_iff.mp acts
  obtain rfl := Option.some.inj (found.symm.trans found')
  obtain ⟨hgrows, -⟩ := Activity.move?_grows taken
  cases activity with
  | read query format before =>
    obtain ⟨flight, result, -, houtcome, hfills⟩ := supplies.of_read
    obtain ⟨turn, -, hactivity, -⟩ :=
      Activity.move?_read (.free w.now w.node.cache w.store query format before _) taken
    have hmover := after_activities_mover found step
    rw [hactivity] at hmover
    rw [events_of_read move found hmover]
    exact ⟨move.activity, query, format, result, _,
      delivered_mem_events.mpr ⟨rfl, rfl, rfl, houtcome⟩, hfills.grows hgrows⟩
  | change | job | request =>
    obtain ⟨table, hfills, -⟩ := supplies.places hgrows
    rcases admitted.2 _ found with hread | hidle
    · cases hread
    · cases hidle.symm.trans hfills

variable [LawfulMedium σ] {c : Cache} {log : List (Event ρ)} {action : Action ρ σ}

/-- All that the store holds, and all that activities are going to store, is made of answers within the
log, as the cache `c` stores them. -/
structure Stocked (c : Cache) (log : List (Event ρ)) (w : World ρ σ) : Prop where
  grows : c.Grows w.node.cache
  held : ∀ key value, w.Holds key value → FilledIn c log key value
  stores : ∀ (i : ActivityId) (activity : Activity ρ) (key value : String),
    w.node.activities[i]? = some activity → activity.Stores key value → FilledIn c log key value

theorem Stocked.of_new (new : w.IsNew) (empty : ∀ key value, ¬ w.Holds key value) :
    Stocked w.node.cache [] w := by
  refine ⟨.refl _, fun key value held => absurd held (empty key value), ?_⟩
  intro i activity key value found
  simp [new.2] at found

theorem Stocked.step (h : Stocked c log w) (admitted : w.Calls action)
    (acts : w.act? action = some w') : Stocked c (log ++ w.events w' action) w' := by
  have hentries := act?_entryStep admitted.1 acts
  have hgrows := h.grows.trans hentries.grows
  refine ⟨hgrows, ?_, ?_⟩
  · intro key value held
    rcases hentries.held key value held with hbefore | ⟨move, activity, -, found, hstores⟩
    · exact (h.held key value hbefore).append (.refl c) _
    · exact (h.stores _ activity key value found hstores).append (.refl c) _
  · intro i after key value found stores
    rcases hentries.stores i after key value found stores with
      ⟨before, hbefore, -, hstores⟩ | ⟨move, activity, rfl, hfound, -, hsupplies⟩
    · exact (h.stores i before key value hbefore hstores).append (.refl c) _
    · exact ((filledIn_of_supplies admitted acts hfound hsupplies).of_grows hgrows).prepend log

/-- As `Calls`, but entries may get lost, and the store may change in other ways. -/
def CallsAmidLoss (w : World ρ σ) : Action ρ σ → Prop
  | .disturb store => ∀ key value, LawfulMedium.Holds store w.now key value → w.Holds key value
  | action => w.Calls action

theorem Calls.amidLoss {w : World ρ σ} {action : Action ρ σ} (h : w.Calls action) :
    w.CallsAmidLoss action := by
  cases action with
  | disturb => exact absurd h.1 (by simp [Action.disturbs])
  | _ => exact h

theorem Stocked.stepAmidLoss (h : Stocked c log w) (admitted : w.CallsAmidLoss action)
    (acts : w.act? action = some w') : Stocked c (log ++ w.events w' action) w' := by
  cases action with
  | disturb store =>
    obtain rfl := Option.some.inj acts
    have hnone : w.events { w with store := store } (.disturb store) = [] := rfl
    rw [hnone, List.append_nil]
    exact ⟨h.grows, fun key value held => h.held key value (admitted key value held), h.stores⟩
  | _ => exact h.step admitted acts

end World

end ReadThrough
