import ReadThrough.Proofs.Flights.Leaders
import ReadThrough.Proofs.Layout
import ReadThrough.Proofs.Reads.Entries

/-! # The places of entries

A cache that waits for its fills and has a store of its own keeps order: every entry stands under a
key of some table, and if it is a key of a unique index, the cache knows the index. This is what
lets an invalidation find every index of a table.

* `Cache.Places` are the keys that a cache can give to entries of a table;
* `Tidy` is the invariant, `Tidy.step` its preservation, and `Tidy.run` what runs make of it;
* `Calm` describes the steps that concern no read and bring nothing into the store.
-/

namespace ReadThrough
set_option autoImplicit false

variable {ρ σ : Type}

/-! ## Keys of a table -/

/-- The keys of entries of a table, as far as the cache knows its indexes. -/
inductive Cache.Places (c : Cache) (table : String) : (key : String) → Prop
  | row (primary : CompositeKey) : Places c table (c.space.rowKey table primary)
  | indexed {index : String} (known : index ∈ c.knownIndexes table) (unique : CompositeKey) :
    Places c table (c.space.indexKey table index unique)
  | result (sql : String) (params : List Param) : Places c table (c.space.resultKey table sql params)

namespace Cache

variable {c c' : Cache} {table table' key : String}

theorem Places.grows (h : c.Places table key) (grows : c.Grows c') : c'.Places table key := by
  cases h with
  | row primary => exact grows.space ▸ .row primary
  | indexed known unique => exact grows.space ▸ .indexed (grows.indexes _ _ known) unique
  | result sql params => exact grows.space ▸ .result sql params

/-- A key under the unique indexes of a table is a key of an index that is known. -/
theorem Places.of_isUnder_uniquesOf (h : c.Places table key) (free : ColonFree table)
    (free' : ColonFree table') (under : isUnder key (c.space.uniquesOf table')) :
    ∃ index ∈ c.knownIndexes table', isUnder key (c.space.indexOf table' index) := by
  have hindexes := KeyLayout.uniquesOf_toList c.space table'
  cases h with
  | row primary =>
    have hletter := ((KeyLayout.isUnder_inNamespace (KeyLayout.rowKey_toList _ _ _) hindexes free
      free').mp under).1
    exact absurd hletter (by decide)
  | indexed known unique =>
    obtain ⟨-, rfl⟩ := (KeyLayout.isUnder_inNamespace (KeyLayout.indexKey_toList _ _ _ _) hindexes
      free free').mp under
    exact ⟨_, known, KeyLayout.isUnder_indexOf _ _ _ unique⟩
  | result sql params =>
    have hletter := ((KeyLayout.isUnder_inNamespace (KeyLayout.resultKey_toList _ _ _ _) hindexes
      free free').mp under).1
    exact absurd hletter (by decide)

end Cache

/-! ## Who stores -/

/-- The table that a direct operation stores entries of. -/
def Request.fills? {k : ReplyKind} : Request k → Option String
  | .putPrimaries table _ | .putUniques table _ _ | .putSearch table _ _ _ => some table
  | _ => none

namespace Activity

/-- The table that an activity may store entries of. A job sent off has none. -/
def fills? : Activity ρ → Option String
  | .read query _ _ => some query.table
  | .request asked _ => asked.fills?
  | .change _ _ | .job _ => none

/-- The table of the activity is free of colons, and the activity is no job sent off. -/
def Plain : Activity ρ → Prop
  | .read query _ _ => ColonFree query.table
  | .change event _ => ColonFree event.table
  | .request asked _ => ∀ table, asked.fills? = some table → ColonFree table
  | .job _ => False

theorem fills?_origin (activity : Activity ρ) : activity.origin.fills? = activity.fills? := by
  cases activity <;> rfl

theorem plain_origin (activity : Activity ρ) : activity.origin.Plain ↔ activity.Plain := by
  cases activity <;> exact .rfl

theorem Plain.colonFree {activity : Activity ρ} (h : activity.Plain) {table : String}
    (fills : activity.fills? = some table) : ColonFree table := by
  cases activity with
  | read query =>
    obtain rfl := Option.some.inj fills
    exact h
  | request asked => exact h table fills
  | change | job => cases fills

theorem Supplies.places {c after : Cache} {activity : Activity ρ} {move : Move ρ}
    {key value : String} (h : Supplies c activity move after key value) (grows : c.Grows after) :
    ∃ table, activity.fills? = some table ∧ after.Places table key := by
  cases h with
  | fetched fills =>
    refine ⟨_, rfl, ?_⟩
    cases fills with
    | search fills =>
      rw [fills.key_eq, Cache.resultKey, ← grows.space]
      exact .result _ _
    | primary => exact grows.space ▸ .row _
    | unique answered mem written identified known => exact grows.space ▸ .indexed known _
  | @given k asked mover _ _ stores =>
    cases asked with
    | putPrimaries table rows =>
      obtain ⟨row, -, hentry⟩ := List.mem_map.mp stores
      obtain ⟨rfl, -⟩ := Entry.mk.inj hentry
      exact ⟨table, rfl, .row row.1⟩
    | putUniques table index rows =>
      obtain ⟨row, -, hentry⟩ := List.mem_map.mp stores
      obtain ⟨rfl, -⟩ := Entry.mk.inj hentry
      have hknown : index ∈ (c.learnIndexes table [index]).knownIndexes table :=
        mem_knownIndexes_learnIndexes.mpr (.inl ⟨rfl, List.mem_singleton_self index⟩)
      exact ⟨table, rfl, grows.space ▸ .indexed hknown row.1⟩
    | putSearch table sql params value =>
      obtain ⟨rfl, -⟩ := Entry.mk.inj stores
      exact ⟨table, rfl, .result sql params⟩
    | _ => cases stores

end Activity

/-! ## Steps that bring nothing into the store -/

namespace World

/-- Table names are free of colons, and the store belongs to the cache alone. -/
def Plain (_ : World ρ σ) : Action ρ σ → Prop
  | .read query _ => ColonFree query.table
  | .change event => ColonFree event.table
  | .request asked => ∀ table, asked.fills? = some table → ColonFree table
  | .disturb _ => False
  | .forget _ | .move _ | .wait _ => True

theorem Plain.starts {w : World ρ σ} {action : Action ρ σ} (h : w.Plain action)
    {activity : Activity ρ} (starts : action.starts? = some activity) : activity.Plain := by
  cases action with
  | read | change | request =>
    obtain rfl := Option.some.inj starts
    exact h
  | forget | move | wait | disturb => cases starts

theorem Plain.owned {w : World ρ σ} {action : Action ρ σ} (h : w.Plain action) :
    action.disturbs = false := by
  cases action <;> first | rfl | exact h.elim

instance (w : World ρ σ) : (action : Action ρ σ) → Decidable (w.Plain action)
  | .read query _ => inferInstanceAs (Decidable (ColonFree query.table))
  | .change event => inferInstanceAs (Decidable (ColonFree event.table))
  | .request asked => inferInstanceAs (Decidable (∀ table ∈ asked.fills?, ColonFree table))
  | .disturb _ => .isFalse id
  | .forget _ | .move _ | .wait _ => .isTrue trivial

/-- Only activities of this kind move. -/
def Moves (may : Activity ρ → Prop) (w : World ρ σ) : Action ρ σ → Prop
  | .move move => ∀ activity, w.node.activities[move.activity]? = some activity → may activity
  | _ => True

instance (may : Activity ρ → Prop) [DecidablePred may] (w : World ρ σ) :
    (action : Action ρ σ) → Decidable (w.Moves may action)
  | .move move =>
    inferInstanceAs (Decidable (∀ activity ∈ w.node.activities[move.activity]?, may activity))
  | .read _ _ | .change _ | .request _ | .forget _ | .wait _ | .disturb _ => .isTrue trivial

variable [Medium σ] [LawfulMedium σ] {w w' : World ρ σ} {action : Action ρ σ}

/-- Entries stand in their places and come from reads and direct operations. -/
structure Tidy (w : World ρ σ) : Prop where
  waits : w.node.cache.config.detachesUpkeep = false
  reliable : LawfulMedium.Reliable w.store
  plain : ∀ (i : ActivityId) (activity : Activity ρ), w.node.activities[i]? = some activity →
    activity.Plain
  held : ∀ key value, w.Holds key value → ∃ table, ColonFree table ∧ w.node.cache.Places table key
  stores : ∀ (i : ActivityId) (activity : Activity ρ) (key value : String),
    w.node.activities[i]? = some activity → activity.Stores key value →
      ∃ table, activity.fills? = some table ∧ w.node.cache.Places table key

theorem Tidy.of_new (new : w.IsNew) (waits : w.node.cache.config.detachesUpkeep = false)
    (reliable : LawfulMedium.Reliable w.store) (empty : ∀ key value, ¬ w.Holds key value) :
    Tidy w := by
  have hnone : ∀ (i : ActivityId) (activity : Activity ρ), w.node.activities[i]? ≠ some activity := by
    simp [new.2]
  refine ⟨waits, reliable, ?_, ?_, ?_⟩
  · intro i activity found
    exact absurd found (hnone i activity)
  · intro key value held
    exact absurd held (empty key value)
  · intro i activity key value found
    exact absurd found (hnone i activity)

theorem Tidy.step (h : Tidy w) (plain : w.Plain action) (acts : w.act? action = some w') :
    Tidy w' := by
  have hentries := act?_entryStep plain.owned acts
  have hwaits : ∀ {activity}, ¬ w.SentOff activity := by
    rintro activity ⟨job, -, hdetaches⟩
    cases h.waits.symm.trans hdetaches
  refine ⟨?_, hentries.reliable h.reliable, ?_, ?_, ?_⟩
  · rw [hentries.grows.config]
    exact h.waits
  · intro i after found
    rcases hentries.old i after found with ⟨before, hbefore, horigin⟩ | hstarts | hsent
    · rw [← Activity.plain_origin, horigin, Activity.plain_origin]
      exact h.plain i before hbefore
    · exact plain.starts hstarts
    · exact absurd hsent hwaits
  · intro key value held
    rcases hentries.held key value held with hbefore | ⟨move, activity, -, hfound, hstores⟩
    · obtain ⟨table, hfree, hplaces⟩ := h.held key value hbefore
      exact ⟨table, hfree, hplaces.grows hentries.grows⟩
    · obtain ⟨table, hfills, hplaces⟩ := h.stores _ activity key value hfound hstores
      exact ⟨table, (h.plain _ activity hfound).colonFree hfills, hplaces.grows hentries.grows⟩
  · intro i after key value found stores
    rcases hentries.stores i after key value found stores with
      ⟨before, hbefore, horigin, hstores⟩ | ⟨move, activity, -, -, horigin | hsent, hsupplies⟩
    · obtain ⟨table, hfills, hplaces⟩ := h.stores i before key value hbefore hstores
      refine ⟨table, ?_, hplaces.grows hentries.grows⟩
      rw [← Activity.fills?_origin, horigin, Activity.fills?_origin, hfills]
    · obtain ⟨table, hfills, hplaces⟩ := hsupplies.places hentries.grows
      refine ⟨table, ?_, hplaces⟩
      rw [← Activity.fills?_origin, horigin, Activity.fills?_origin, hfills]
    · exact absurd hsent hwaits

theorem Tidy.run {admits : World ρ σ → Action ρ σ → Prop} {log : List (Event ρ)} (h : Tidy w)
    (plain : ∀ w action, admits w action → w.Plain action) (run : Runs admits w log w') :
    Tidy w' := by
  induction run with
  | refl => exact h
  | step action _ admitted acts ih => exact ih.step (plain _ _ admitted) acts

/-- A step that concerns no read, registers no flight and brings nothing into the store. -/
structure Calm (w w' : World ρ σ) : Prop where
  reads : KeepsReads (fun _ => False) w w'
  grows : w.node.cache.Grows w'.node.cache
  held : ∀ key value, w'.Holds key value → w.Holds key value
  registry : ∀ (key : String) (flight : FlightId), w'.flights.registry[key]? = some flight →
    w.flights.registry[key]? = some flight
  profile : ∀ flight, w'.flights.profile? flight = w.flights.profile? flight

theorem calm_enter {activity : Activity ρ} (new : activity.origin = activity) :
    Calm w (w.enter activity) := by
  refine ⟨keepsReads_enter ?_, .refl _, fun _ _ held => held, fun _ _ h => h, fun _ => rfl⟩
  rintro query format stage rfl
  exact (Activity.read.inj new).2.2.symm

theorem calm_after (h : Tidy w) {move : Move ρ} {activity : Activity ρ} {step : ActivityStep ρ σ}
    (found : w.node.activities[move.activity]? = some activity)
    (taken : activity.move? w.now w.node.cache w.store move = some step)
    (idle : activity.fills? = none) : Calm w (w.after move.activity step) := by
  have hkind : activity.isRead = false := by
    cases activity <;> first | rfl | cases idle
  have hother := Activity.move?_other taken hkind
  have hreads := (keepsReads_after w move.activity step).of_other found
    (after_activities_mover found step) hkind (hother.other hkind)
  refine ⟨hreads, hother.grows, ?_, ?_, ?_⟩
  · intro key value held
    rcases (Activity.move?_entries taken).held key value held with hbefore | hstores
    · exact hbefore
    · obtain ⟨table, hfills, -⟩ := h.stores _ activity key value found hstores
      cases idle.symm.trans hfills
  · intro key flight hregistered
    rcases hother.flights with hsame | ⟨event, -, -, hforgot⟩
    · rwa [flights, after, hsame] at hregistered
    · rw [flights, after, hforgot, Flights.forgetStarting_registry] at hregistered
      split at hregistered
      · cases hregistered
      · exact hregistered
  · intro flight
    rcases hother.flights with hsame | ⟨event, -, -, hforgot⟩
    · rw [flights, after, hsame]
      rfl
    · rw [flights, after, hforgot, Flights.profile?_forgetStarting]
      rfl

theorem act?_calm (h : Tidy w) (plain : w.Plain action) (idle : w.Moves (·.fills? = none) action)
    (acts : w.act? action = some w') : Calm w w' := by
  cases action with
  | read query format =>
    obtain rfl := Option.some.inj acts
    exact calm_enter rfl
  | change event =>
    obtain rfl := Option.some.inj acts
    exact calm_enter rfl
  | request asked =>
    obtain rfl := Option.some.inj acts
    exact calm_enter rfl
  | forget query =>
    obtain rfl := Option.some.inj acts
    refine ⟨keepsReads_of_activities rfl, .of_same rfl rfl rfl, fun _ _ held => held, ?_, ?_⟩
    · intro key flight hregistered
      have hforgot : (w.forget query).flights = w.flights.forget query.flightName := rfl
      rw [hforgot, Flights.forget_registry] at hregistered
      split at hregistered
      · cases hregistered
      · exact hregistered
    · intro flight
      exact Flights.profile?_forget _ _ _
  | move move =>
    obtain ⟨activity, step, found, taken, rfl⟩ := act?_move_iff.mp acts
    exact calm_after h found taken (idle activity found)
  | wait nanos =>
    obtain rfl := Option.some.inj acts
    refine ⟨keepsReads_of_activities rfl, .refl _, ?_, fun _ _ h => h, fun _ => rfl⟩
    intro key value held
    exact LawfulMedium.holds_earlier (Nat.le_add_right _ _) held
  | disturb => exact plain.elim

end World

end ReadThrough
