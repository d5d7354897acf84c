import ReadThrough.Proofs.Flights.LateReads
import ReadThrough.Proofs.Sharing.Moves

/-! # Caches that share a store do not notice each other

Two caches with different instance ids work on one store. If it behaves like a map, either of them fares as
if it had the store to itself: it takes the same turns, gives the same answers, counts the same, and the
same entries stand under its id.

* `World.Alike`: the same cache on two stores with the same entries under its id, and `Alike.step`: whatever
  happens on the one can happen on the other, and they stay alike;
* a `SharedWorld` is two caches on a store, and `SharedAction.withoutFirst?` takes one of them out of a run;
* `second_runs_alone` is the theorem.
-/

namespace ReadThrough
set_option autoImplicit false

variable {ρ ρ' σ : Type}

/-! ## The same cache on two stores -/

namespace World

section

variable [Medium σ] [LawfulMedium σ] [MapMedium σ] [SharedMedium σ] {w w' next : World ρ σ}
  {action : Action ρ σ}

theorem faithful_of_act? (faithful : SharedMedium.Faithful w.store) (owned : action.disturbs = false)
    (acts : w.act? action = some next) : SharedMedium.Faithful next.store := by
  cases action with
  | move move =>
    obtain ⟨activity, step, -, taken, rfl⟩ := act?_move_iff.mp acts
    exact Activity.move?_faithful taken faithful
  | disturb => cases owned
  | read | change | request | forget | wait =>
    obtain rfl := Option.some.inj acts
    exact faithful

/-- Whatever a cache does, it leaves alone all keys but its own. -/
theorem agree_of_act? {Others : String → Prop} (confined : w.Confined)
    (faithful : SharedMedium.Faithful w.store)
    (apart : ∀ key, Others key → ¬ w.node.cache.space.Owns key) (owned : action.disturbs = false)
    (acts : w.act? action = some next) : LawfulMedium.Agree Others w.now next.store w.store := by
  cases action with
  | move move =>
    obtain ⟨activity, step, found, taken, rfl⟩ := act?_move_iff.mp acts
    exact Activity.move?_agree taken faithful (confined _ activity found) apart
  | disturb => cases owned
  | read | change | request | forget | wait =>
    obtain rfl := Option.some.inj acts
    exact .refl Others w.now w.store

/-- The same cache with the same activities at the same time, on stores that hold the same under its
id. -/
structure Alike (w w' : World ρ σ) : Prop where
  node : w'.node = w.node
  now : w'.now = w.now
  entries : LawfulMedium.Agree w.node.cache.space.Owns w.now w.store w'.store

omit [MapMedium σ] [SharedMedium σ] in
theorem Alike.symm (h : Alike w w') : Alike w' w where
  node := h.node.symm
  now := h.now.symm
  entries := by
    rw [h.node, h.now]
    exact h.entries.symm

omit [MapMedium σ] [SharedMedium σ] in
theorem Alike.confined (h : Alike w w') (confined : w.Confined) : w'.Confined := by
  rw [Confined, h.node]
  exact confined

/-- Whatever happens to a cache on the one store can happen on the other, and both stay alike. -/
theorem Alike.step (h : Alike w w') (confined : w.Confined) (faithful : SharedMedium.Faithful w.store)
    (faithful' : SharedMedium.Faithful w'.store) (owned : action.disturbs = false)
    (acts : w.act? action = some next) : ∃ next', w'.act? action = some next' ∧ Alike next next' := by
  have hstart : ∀ activity, Alike (w.enter activity) (w'.enter activity) := by
    intro activity
    refine ⟨?_, h.now, h.entries⟩
    rw [enter, enter, h.node]
  cases action with
  | read query format =>
    obtain rfl := Option.some.inj acts
    exact ⟨_, rfl, hstart _⟩
  | change event =>
    obtain rfl := Option.some.inj acts
    exact ⟨_, rfl, hstart _⟩
  | request asked =>
    obtain rfl := Option.some.inj acts
    exact ⟨_, rfl, hstart _⟩
  | forget query =>
    obtain rfl := Option.some.inj acts
    refine ⟨_, rfl, ?_, h.now, h.entries⟩
    rw [forget, forget, h.node]
  | move move =>
    obtain ⟨activity, step, found, taken, rfl⟩ := act?_move_iff.mp acts
    obtain ⟨step', htaken', halike⟩ :=
      Activity.move?_alike taken faithful faithful' (confined _ activity found) h.entries
    have hspace : step.cache.space = w.node.cache.space := (Activity.move?_grows taken).1.space
    refine ⟨w'.after move.activity step', act?_move_iff.mpr ⟨activity, step', ?_, ?_, rfl⟩, ?_,
      h.now, ?_⟩
    · rw [h.node, found]
    · rw [h.node, h.now, htaken']
    · simp only [after, h.node, halike.cache, halike.activity, halike.spawned, halike.fetches]
    · change LawfulMedium.Agree step.cache.space.Owns w.now step.store step'.store
      rw [hspace]
      exact halike.stores
  | wait nanos =>
    obtain rfl := Option.some.inj acts
    refine ⟨_, rfl, h.node, congrArg (· + nanos) h.now, ?_⟩
    exact h.entries.wait (SharedMedium.dependable faithful) (SharedMedium.dependable faithful')
  | disturb => cases owned

end

end World

/-! ## Two caches on one store -/

/-- Two caches at work on one store, at a time. -/
structure SharedWorld (ρ ρ' σ : Type) where
  first : Node ρ
  second : Node ρ'
  store : σ
  now : Nat := 0

/-- What happens next, and to which of two caches. -/
inductive SharedAction (ρ ρ' σ : Type)
  | ofFirst (action : Action ρ σ)
  | ofSecond (action : Action ρ' σ)

namespace SharedAction

/-- Whether the action changes the store behind the backs of both caches. -/
def disturbs : SharedAction ρ ρ' σ → Bool
  | .ofFirst action => action.disturbs
  | .ofSecond action => action.disturbs

/-- What is left of an action for the second cache if the first one is not there. Time passes all the
same. -/
def withoutFirst? : SharedAction ρ ρ' σ → Option (Action ρ' σ)
  | .ofFirst (.wait nanos) => some (.wait nanos)
  | .ofFirst _ => none
  | .ofSecond action => some action

end SharedAction

namespace SharedWorld

/-- The world as the first cache sees it. -/
def ofFirst (s : SharedWorld ρ ρ' σ) : World ρ σ := ⟨s.first, s.store, s.now⟩

/-- The world as the second cache sees it. -/
def ofSecond (s : SharedWorld ρ ρ' σ) : World ρ' σ := ⟨s.second, s.store, s.now⟩

def act? [Medium σ] (s : SharedWorld ρ ρ' σ) : SharedAction ρ ρ' σ → Option (SharedWorld ρ ρ' σ)
  | .ofFirst action => (s.ofFirst.act? action).map fun w =>
    { s with first := w.node, store := w.store, now := w.now }
  | .ofSecond action => (s.ofSecond.act? action).map fun w =>
    { s with second := w.node, store := w.store, now := w.now }

/-- Carry out a list of actions. -/
def perform? [Medium σ] (s : SharedWorld ρ ρ' σ) :
    List (SharedAction ρ ρ' σ) → Option (SharedWorld ρ ρ' σ)
  | [] => some s
  | action :: rest => do
    let next ← s.act? action
    next.perform? rest

section

variable [Medium σ] [LawfulMedium σ] [MapMedium σ] [SharedMedium σ] {s s' : SharedWorld ρ ρ' σ}
  {alone : World ρ' σ} {action : SharedAction ρ ρ' σ}

/-- The second cache sees the same as if it were alone, and neither cache goes near the keys of the
other. -/
structure Isolated (s : SharedWorld ρ ρ' σ) (alone : World ρ' σ) : Prop where
  apart : ∀ key, s.second.cache.space.Owns key → ¬ s.first.cache.space.Owns key
  first : s.ofFirst.Confined
  second : s.ofSecond.Confined
  shared : SharedMedium.Faithful s.store
  faithful : SharedMedium.Faithful alone.store
  alike : s.ofSecond.Alike alone

omit [LawfulMedium σ] [MapMedium σ] [SharedMedium σ] in
/-- What the second cache is left with, it does in the shared world, too. -/
theorem ofSecond_act? {kept : Action ρ' σ} (acts : s.act? action = some s')
    (keeps : action.withoutFirst? = some kept) : s.ofSecond.act? kept = some s'.ofSecond := by
  cases action with
  | ofSecond action =>
    obtain rfl := Option.some.inj keeps
    obtain ⟨w, hw, rfl⟩ := Option.map_eq_some_iff.mp acts
    exact hw
  | ofFirst action =>
    cases action with
    | wait nanos =>
      obtain rfl := Option.some.inj keeps
      obtain rfl := Option.some.inj acts
      rfl
    | read | change | request | forget | move | disturb => cases keeps

/-- No action brings a cache near the keys of the other. -/
theorem Isolated.apart_step (h : s.Isolated alone) (owned : action.disturbs = false)
    (acts : s.act? action = some s') :
    (∀ key, s'.second.cache.space.Owns key → ¬ s'.first.cache.space.Owns key) ∧
      s'.ofFirst.Confined ∧ s'.ofSecond.Confined ∧ SharedMedium.Faithful s'.store := by
  cases action with
  | ofFirst action =>
    obtain ⟨w, hw, rfl⟩ := Option.map_eq_some_iff.mp acts
    have hspace : w.node.cache.space = s.first.cache.space := (World.act?_grows hw).space
    refine ⟨?_, h.first.step h.shared hw, h.second, World.faithful_of_act? h.shared owned hw⟩
    rw [hspace]
    exact h.apart
  | ofSecond action =>
    obtain ⟨w, hw, rfl⟩ := Option.map_eq_some_iff.mp acts
    have hspace : w.node.cache.space = s.second.cache.space := (World.act?_grows hw).space
    refine ⟨?_, h.first, h.second.step h.shared hw, World.faithful_of_act? h.shared owned hw⟩
    rw [hspace]
    exact h.apart

/-- What the first cache does, the second does not notice. -/
theorem Isolated.step_of_dropped (h : s.Isolated alone) (owned : action.disturbs = false)
    (acts : s.act? action = some s') (dropped : action.withoutFirst? = none) :
    s'.Isolated alone := by
  obtain ⟨apart, first, second, shared⟩ := h.apart_step owned acts
  refine ⟨apart, first, second, shared, h.faithful, ?_⟩
  cases action with
  | ofSecond => cases dropped
  | ofFirst action =>
    obtain ⟨w, hw, rfl⟩ := Option.map_eq_some_iff.mp acts
    have hagree := World.agree_of_act? h.first h.shared h.apart owned hw
    have hnow : w.now = s.now := by
      cases action with
      | wait => cases dropped
      | move =>
        obtain ⟨-, -, -, -, rfl⟩ := World.act?_move_iff.mp hw
        rfl
      | read | change | request | forget | disturb =>
        obtain rfl := Option.some.inj hw
        rfl
    refine ⟨h.alike.node, h.alike.now.trans hnow.symm, ?_⟩
    change LawfulMedium.Agree s.second.cache.space.Owns w.now w.store alone.store
    rw [hnow]
    exact hagree.trans h.alike.entries

/-- What the second cache does, it can do alone. -/
theorem Isolated.step_of_kept (h : s.Isolated alone) (owned : action.disturbs = false)
    (acts : s.act? action = some s') {kept : Action ρ' σ} (keeps : action.withoutFirst? = some kept) :
    ∃ alone', alone.act? kept = some alone' ∧ s'.Isolated alone' := by
  obtain ⟨apart, first, second, shared⟩ := h.apart_step owned acts
  have hkept : kept.disturbs = false := by
    cases action with
    | ofSecond action =>
      obtain rfl := Option.some.inj keeps
      exact owned
    | ofFirst action =>
      cases action with
      | wait =>
        obtain rfl := Option.some.inj keeps
        rfl
      | read | change | request | forget | move | disturb => cases keeps
  obtain ⟨alone', hacts, halike⟩ :=
    h.alike.step h.second h.shared h.faithful hkept (ofSecond_act? acts keeps)
  exact ⟨alone', hacts, apart, first, second, shared,
    World.faithful_of_act? h.faithful hkept hacts, halike⟩

theorem Isolated.run {actions : List (SharedAction ρ ρ' σ)} (h : s.Isolated alone)
    (owned : ∀ action ∈ actions, action.disturbs = false) (run : s.perform? actions = some s') :
    ∃ alone' log, alone.perform? Unrestricted (actions.filterMap SharedAction.withoutFirst?) =
      some (alone', log) ∧ s'.Isolated alone' := by
  induction actions generalizing s alone with
  | nil =>
    obtain rfl := Option.some.inj run
    exact ⟨alone, [], rfl, h⟩
  | cons action rest ih =>
    obtain ⟨hnow, hrest⟩ := List.forall_mem_cons.mp owned
    obtain ⟨next, hacts, hlater⟩ := Option.bind_eq_some_iff.mp run
    cases hkeeps : action.withoutFirst? with
    | none =>
      rw [List.filterMap_cons_none hkeeps]
      exact ih (h.step_of_dropped hnow hacts hkeeps) hrest hlater
    | some kept =>
      rw [List.filterMap_cons_some hkeeps]
      obtain ⟨between, hkept, hisolated⟩ := h.step_of_kept hnow hacts hkeeps
      obtain ⟨alone', log, hrun, hends⟩ := ih hisolated hrest hlater
      exact ⟨alone', _, World.perform?_cons_iff.mpr ⟨trivial, between, log, hkept, hrun, rfl⟩, hends⟩

theorem Isolated.of_new (first : s.ofFirst.IsNew) (second : s.ofSecond.IsNew)
    (valid : Configuration.isInstanceId s.first.cache.space.id)
    (valid' : Configuration.isInstanceId s.second.cache.space.id)
    (differ : s.first.cache.space.id ≠ s.second.cache.space.id)
    (faithful : SharedMedium.Faithful s.store) : s.Isolated s.ofSecond where
  apart _ := KeyLayout.not_owns_of_owns (.of_isInstanceId valid') (.of_isInstanceId valid) differ.symm
  first := .of_new first
  second := .of_new second
  shared := faithful
  faithful := faithful
  alike := ⟨rfl, rfl, .refl _ _ _⟩

/-- Two new caches with valid ids that differ, even if one id begins with the other, share a store that
never fails and forgets nothing. Whatever the two do, in any order, the second one can do all it does in a
world without the first. There it comes to the same: its activities stand where they stand, with the same
answers, its counters and flights are the same, and the store holds the same under its id. It can also go
on in the same ways. -/
theorem second_runs_alone {actions : List (SharedAction ρ ρ' σ)} (first : s.ofFirst.IsNew)
    (second : s.ofSecond.IsNew) (valid : Configuration.isInstanceId s.first.cache.space.id)
    (valid' : Configuration.isInstanceId s.second.cache.space.id)
    (differ : s.first.cache.space.id ≠ s.second.cache.space.id)
    (faithful : SharedMedium.Faithful s.store)
    (owned : ∀ action ∈ actions, action.disturbs = false) (run : s.perform? actions = some s') :
    ∃ (w : World ρ' σ) (log : List (Event ρ')),
      s.ofSecond.perform? Unrestricted (actions.filterMap SharedAction.withoutFirst?) = some (w, log) ∧
      w.node = s'.second ∧ w.now = s'.now ∧
      (∀ key, s.second.cache.space.Owns key → ∀ value,
        s'.ofSecond.Holds key value ↔ w.Holds key value) ∧
      ∀ action : Action ρ' σ, action.disturbs = false →
        ((s'.ofSecond.act? action).isSome ↔ (w.act? action).isSome) := by
  have hstart : s.Isolated s.ofSecond := .of_new first second valid valid' differ faithful
  obtain ⟨w, log, halone, h⟩ := hstart.run owned run
  have hspace : s'.second.cache.space = s.second.cache.space := by
    have hkept : w.node.cache.space = s.second.cache.space :=
      (World.grows_of_run (Runs.of_perform? halone)).space
    rw [h.alike.node] at hkept
    exact hkept
  have hnow : w.now = s'.now := h.alike.now
  refine ⟨w, log, halone, h.alike.node, hnow, ?_, ?_⟩
  · intro key own value
    have hentries := h.alike.entries key (hspace ▸ own) value
    rw [World.Holds, World.Holds, hnow]
    exact hentries
  · intro action hundisturbed
    constructor
    · intro goes
      obtain ⟨next, hnext⟩ := Option.isSome_iff_exists.mp goes
      obtain ⟨next', hnext', -⟩ := h.alike.step h.second h.shared h.faithful hundisturbed hnext
      exact Option.isSome_iff_exists.mpr ⟨next', hnext'⟩
    · intro goes
      obtain ⟨next, hnext⟩ := Option.isSome_iff_exists.mp goes
      obtain ⟨next', hnext', -⟩ :=
        h.alike.symm.step (h.alike.confined h.second) h.faithful h.shared hundisturbed hnext
      exact Option.isSome_iff_exists.mpr ⟨next', hnext'⟩

end

/-- Two caches on an empty store. The id of the one begins with that of the other. -/
def neighbours : SharedWorld Row Row RecordingStore :=
  { first := { cache := { config := {}, space := ⟨"app"⟩ } }
    second := { cache := { config := {}, space := ⟨"app2"⟩ } }
    store := {} }

/-- The second cache stores a row, the first drops all its entries, and the second gets the row. -/
def resetBetween : List (SharedAction Row Row RecordingStore) :=
  [.ofSecond (.request (.putPrimaries "users" [(.single "1", "Ann")])), .ofSecond (.move (.go 0)),
    .ofFirst (.request .reset), .ofSecond (.move (.go 0)), .ofSecond (.move (.go 0)),
    .ofFirst (.move (.go 0)), .ofFirst (.move (.go 0)), .ofFirst (.move (.go 0)),
    .ofSecond (.request (.getPrimaries "users" [.single "1"])),
    .ofSecond (.move (.go 1)), .ofSecond (.move (.go 1)), .ofSecond (.move (.go 1))]

/-- The reset of `app` leaves the row of `app2` alone. -/
theorem neighbours_keep_apart :
    ∃ (s' : SharedWorld Row Row RecordingStore) (w : World Row RecordingStore) (log : List (Event Row)),
      neighbours.ofFirst.IsNew ∧ neighbours.ofSecond.IsNew ∧
      Configuration.isInstanceId neighbours.first.cache.space.id ∧
      Configuration.isInstanceId neighbours.second.cache.space.id ∧
      neighbours.first.cache.space.id ≠ neighbours.second.cache.space.id ∧
      SharedMedium.Faithful neighbours.store ∧
      (∀ action ∈ resetBetween, action.disturbs = false) ∧
      neighbours.perform? resetBetween = some s' ∧
      s'.first.activities = [.request .reset (.ended (.ok ()))] ∧
      neighbours.ofSecond.perform? Unrestricted
        (resetBetween.filterMap SharedAction.withoutFirst?) = some (w, log) ∧
      w.node.activities[1]? =
        some (.request (.getPrimaries "users" [.single "1"]) (.ended (.ok [some "Ann"]))) ∧
      w.node = s'.second := by
  have hrun : (neighbours.perform? resetBetween).map (fun last =>
      (last.first.activities, last.second.activities[1]?)) =
      some ([.request .reset (.ended (.ok ()))],
        some (.request (.getPrimaries "users" [.single "1"]) (.ended (.ok [some "Ann"])))) := by cbv
  obtain ⟨s', run, hfacts⟩ := Option.map_eq_some_iff.mp hrun
  obtain ⟨hreset, hgot⟩ := Prod.mk.inj hfacts
  have first : neighbours.ofFirst.IsNew := ⟨⟨{}, "app", rfl⟩, rfl⟩
  have second : neighbours.ofSecond.IsNew := ⟨⟨{}, "app2", rfl⟩, rfl⟩
  have valid : Configuration.isInstanceId neighbours.first.cache.space.id := by decide
  have valid' : Configuration.isInstanceId neighbours.second.cache.space.id := by decide
  have differ : neighbours.first.cache.space.id ≠ neighbours.second.cache.space.id := by decide
  have faithful : SharedMedium.Faithful neighbours.store := ⟨⟨fun _ => rfl, rfl⟩, rfl⟩
  have owned : ∀ action ∈ resetBetween, action.disturbs = false := by decide
  obtain ⟨w, log, halone, hnode, -⟩ :=
    second_runs_alone first second valid valid' differ faithful owned run
  exact ⟨s', w, log, first, second, valid, valid', differ, faithful, owned, run, hreset, halone,
    hnode ▸ hgot, hnode⟩

end SharedWorld

end ReadThrough
