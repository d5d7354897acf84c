import ReadThrough.Proofs.Reads.Answers
import ReadThrough.Proofs.Sharing.Tables

/-! # A cache keeps to the tables that it caches

In any run, what the store is asked for a read or a change concerns keys of its table, in the namespaces that
the level selects, and the table is cached. For a table that is not, nothing is asked of the store, and
nothing in the cache changes.

* `World.Tabled` is the invariant: all reads, changes and jobs keep to their tables, and a job is for the table
  of a call;
* `Cache.MayAsk` is what the store may be asked for a table;
* `store_is_asked_for_cached_tables` is the theorem.
-/

namespace ReadThrough
set_option autoImplicit false

variable {ρ σ : Type}

/-! ## The invariant -/

namespace World

/-- A read or a change of this table has been called. -/
def Called (w : World ρ σ) (table : String) : Prop :=
  ∃ (i : ActivityId) (activity : Activity ρ), w.node.activities[i]? = some activity ∧
    activity.calledOn? = some table

/-- All reads called so far write their rows as JSON. -/
def WritesJson (w : World ρ σ) : Prop :=
  ∀ i query format stage, w.Reads i query format stage → format.WritesJson

/-- All reads, changes and jobs keep to their tables, and for each of them there is a call. -/
def Tabled (w : World ρ σ) : Prop :=
  ∀ (i : ActivityId) (activity : Activity ρ) (table : String), w.node.activities[i]? = some activity →
    activity.table? = some table →
    activity.KeepsTable w.WritesJson w.node.cache table ∧ w.Called table

theorem Tabled.of_new {w : World ρ σ} (new : w.IsNew) : w.Tabled := by
  intro i activity table found
  simp [new.2] at found

section

variable [Medium σ] {w w' : World ρ σ} {action : Action ρ σ}

/-- An activity is there for good, and stays the same but for its stage. -/
theorem origin_of_act? {i : ActivityId} {activity : Activity ρ}
    (found : w.node.activities[i]? = some activity) (acts : w.act? action = some w') :
    ∃ later, w'.node.activities[i]? = some later ∧ later.origin = activity.origin := by
  rcases keeps_or_moves found acts with hkept | ⟨move, step, taken, rfl⟩
  · exact ⟨activity, hkept, rfl⟩
  · exact ⟨step.activity, after_activities_mover found step, Activity.move?_origin taken⟩

theorem Called.step {table : String} (h : w.Called table) (acts : w.act? action = some w') :
    w'.Called table := by
  obtain ⟨i, activity, hfound, htable⟩ := h
  obtain ⟨later, hlater, horigin⟩ := origin_of_act? hfound acts
  refine ⟨i, later, hlater, ?_⟩
  rw [← Activity.calledOn?_origin, horigin, Activity.calledOn?_origin, htable]

theorem WritesJson.earlier (h : w'.WritesJson) (acts : w.act? action = some w') : w.WritesJson := by
  intro i query format stage read
  obtain ⟨later, hlater, horigin⟩ := origin_of_act? read acts
  cases later with
  | read query' format' stage' =>
    obtain ⟨rfl, rfl, -⟩ := Activity.read.inj horigin
    exact h i _ _ stage' hlater
  | change | job | request => cases horigin

theorem Tabled.enter {activity : Activity ρ} (h : w.Tabled) (new : activity.origin = activity)
    (acts : w.act? action = some (w.enter activity)) : (w.enter activity).Tabled := by
  intro i later table hfound hfor
  rcases of_enter_activities hfound with ⟨-, rfl⟩ | hold
  · refine ⟨.of_origin new _ _ table, i, later, hfound, ?_⟩
    rw [← new] at hfor ⊢
    cases later with
    | read | change => exact hfor
    | job | request => cases hfor
  · obtain ⟨hkeeps, hcalled⟩ := h i later table hold hfor
    exact ⟨hkeeps.grows (·.earlier acts) (.refl _), hcalled.step acts⟩

variable [LawfulMedium σ]

theorem Tabled.step [KeyedMedium σ] (h : w.Tabled) (acts : w.act? action = some w') : w'.Tabled := by
  have hgrows : w.node.cache.Grows w'.node.cache := act?_grows acts
  cases action with
  | read | change | request =>
    obtain rfl := Option.some.inj acts
    exact h.enter rfl acts
  | forget | wait | disturb =>
    obtain rfl := Option.some.inj acts
    intro i activity table hfound hfor
    obtain ⟨hkeeps, hcalled⟩ := h i activity table hfound hfor
    exact ⟨hkeeps.grows (·.earlier acts) hgrows, hcalled.step acts⟩
  | move move =>
    obtain ⟨activity, step, found, taken, rfl⟩ := act?_move_iff.mp acts
    -- the mover keeps to its table, if it is for one; else it sends nothing off
    have hmoved : ∀ own, activity.table? = some own →
        Activity.StepKeepsTable w.WritesJson w.node.cache own step ∧ w.Called own := by
      intro own hown
      obtain ⟨hkeeps, hcalled⟩ := h _ activity own found hown
      refine ⟨Activity.move?_keepsTable taken (KeyedMedium.keepsKeys _ _) ?_ hown hkeeps, hcalled⟩
      rintro hjson query format stage rfl
      exact hjson _ query format stage found
    intro i later table hfound hfor
    rcases of_after_activities hfound with ⟨-, rfl⟩ | ⟨-, hold⟩ | ⟨job, hjob, rfl⟩
    · cases hown : activity.table? with
      | none => cases (Activity.of_tableless taken hown).1.symm.trans hfor
      | some own =>
        obtain ⟨hstep, hcalled⟩ := hmoved own hown
        obtain rfl := hstep.table_eq table hfor
        exact ⟨hstep.activity.grows (·.earlier acts) hgrows, hcalled.step acts⟩
    · obtain ⟨hkeeps, hcalled⟩ := h i later table hold hfor
      exact ⟨hkeeps.grows (·.earlier acts) hgrows, hcalled.step acts⟩
    · cases hown : activity.table? with
      | none =>
        have hnone : job ∈ ([] : List Job) := (Activity.of_tableless taken hown).2 ▸ hjob
        cases hnone
      | some own =>
        obtain ⟨hstep, hcalled⟩ := hmoved own hown
        obtain ⟨rfl, hkeeps⟩ := hstep.spawned job hjob
        obtain rfl := Activity.table?_ofJob hfor
        exact ⟨hkeeps.grows (·.earlier acts) hgrows, hcalled.step acts⟩

theorem Tabled.run [KeyedMedium σ] {log : List (Event ρ)} (h : w.Tabled)
    (run : Runs Unrestricted w log w') : w'.Tabled := by
  induction run with
  | refl => exact h
  | step action run admitted acts ih => exact ih.step acts

end

/-! ## What the store is asked -/

end World

/-- What the store may be asked for a table: the table is cached; the operation concerns keys under the
instance id, of the table, in the namespaces that the level selects; and it stores the mark of absence only
where that may stand, if rows are written as JSON. -/
structure Cache.MayAsk (c : Cache) (table : String) {k : ReplyKind} (operation : Operation k)
    (json : Prop) : Prop where
  cached : c.config.level ≠ .off ∧ (c.config.tables = [] ∨ table ∈ c.config.tables)
  concerns : operation.Concerns fun key => c.space.Owns key ∧ c.Serves table key
  marks : json → ∀ key, operation.Stores key SearchEntry.absenceMark → c.MayMark table key

namespace World

/-- What the store is asked in a move, it may be asked for a table of which there is a call. For a table that
is not cached, it is asked nothing, and the cache stays as it is. -/
structure MoveKeepsTable [Medium σ] (c : Cache) (w next : World ρ σ) (activity : Activity ρ)
    (move : Move ρ) : Prop where
  asks : (activity.asks? move = none ∧ next.store = w.store) ∨
    ∃ (k : ReplyKind) (operation : Operation k) (step : StoreStep σ k) (table : String),
      activity.asks? move = some ⟨k, operation⟩ ∧
      Medium.step? w.now w.store operation = some step ∧ next.store = step.store ∧
      activity.table? = some table ∧ w.Called table ∧ c.MayAsk table operation w.WritesJson
  untouched : ∀ table, activity.table? = some table →
    (c.config.level = .off ∨ (c.config.tables ≠ [] ∧ table ∉ c.config.tables)) →
    activity.asks? move = none ∧ next.store = w.store ∧ next.node.cache = w.node.cache ∧
      next.node.activities.length = w.node.activities.length

/-- Whatever calls there are, and however they interleave: what the store is asked for a read, a change or a
job concerns keys of its table that the level serves, the table is cached, and the mark of absence goes only
where a search may be remembered. For any other table nothing is asked, and nothing changes. -/
theorem store_is_asked_for_cached_tables [Medium σ] [LawfulMedium σ] [KeyedMedium σ]
    {w w' next : World ρ σ} {log : List (Event ρ)} {activity : Activity ρ} {move : Move ρ}
    (new : w.IsNew) (run : Runs Unrestricted w log w')
    (found : w'.node.activities[move.activity]? = some activity)
    (indirect : ∀ {k : ReplyKind} (asked : Request k) stage, activity ≠ .request asked stage)
    (acts : w'.act? (.move move) = some next) :
    MoveKeepsTable w.node.cache w' next activity move := by
  have htabled : w'.Tabled := (Tabled.of_new new).run run
  have hgrows : w.node.cache.Grows w'.node.cache := grows_of_run run
  obtain ⟨_, step, found', taken, rfl⟩ := act?_move_iff.mp acts
  obtain rfl := Option.some.inj (found.symm.trans found')
  constructor
  · cases (Activity.move?_kind w'.now w'.node.cache activity move : Activity.MoveKind σ _ _ activity move) with
    | turn unasked turn moves =>
      rw [moves, Option.map_eq_some_iff] at taken
      obtain ⟨turn, -, rfl⟩ := taken
      exact .inl ⟨unasked, rfl⟩
    | step operation asked waits within moves =>
      rw [moves] at taken
      obtain ⟨moved, hmoved, rfl⟩ := Option.map_eq_some_iff.mp taken
      obtain ⟨table, hfor, huses⟩ := Activity.uses_of_asks indirect asked
      obtain ⟨hkeeps, hcalled⟩ := htabled _ activity table found hfor
      refine .inr ⟨_, operation, moved, table, asked, hmoved, rfl, hfor, hcalled, ?_, ?_, ?_⟩
      · rw [← hgrows.config]
        exact Configuration.caches_iff.mp (hkeeps.cached huses)
      · refine (within _ hkeeps.concerns).mono fun key serves => ?_
        have hserves := hgrows.serves_iff.mp serves
        exact ⟨hserves.owns, hserves⟩
      · intro hjson key hstores
        obtain ⟨hlevel, hremembers, hplace⟩ := hkeeps.marks hjson key (Activity.stores_of_asks asked hstores)
        rw [hgrows.config] at hlevel hremembers
        rw [hgrows.space] at hplace
        exact ⟨hlevel, hremembers, hplace⟩
  · intro table hfor hexcluded
    obtain ⟨hkeeps, -⟩ := htabled _ activity table found hfor
    have huncached : w'.node.cache.config.caches table = false := by
      rw [hgrows.config, Bool.eq_false_iff]
      intro hcaches
      obtain ⟨hlevel, hlisted⟩ := Configuration.caches_iff.mp hcaches
      rcases hexcluded with hoff | ⟨hlimited, hunlisted⟩
      · exact hlevel hoff
      · exact hlisted.elim hlimited hunlisted
    have hidle : ¬ activity.UsesCache := by
      intro huses
      cases huncached.symm.trans (hkeeps.cached huses)
    have hunasked := Activity.asks?_of_idle hfor hidle move
    obtain ⟨hcache, hspawned⟩ := Activity.untouched_of_uncached taken hfor hidle huncached
    refine ⟨hunasked, ?_, hcache, ?_⟩
    · exact Activity.store_of_unasked taken hunasked
    · simp [after, hspawned]

/-! ## A run on a listed and an unlisted table -/

theorem bits_writesJson : bits.WritesJson := by
  intro bit text written
  obtain rfl := Option.some.inj written
  cases bit <;> exact ⟨0, by cbv⟩

/-- A new cache of the table of users only. -/
def usersListed : World Bool RecordingStore :=
  { node := { cache := { config := { tables := ["users"] }, space := ⟨"a"⟩ } }, store := {} }

def ordersRead : Query := ⟨"orders", "select", [], .many, none⟩

def usersAbsent : Job :=
  .putNotFound "users" ⟨usersListed.node.cache.resultKey usersRead, SearchEntry.absenceMark⟩

/-- A read of users that finds nothing, and a read of orders that has not begun. -/
def readBoth : List (Action Bool RecordingStore) :=
  [.read usersRead bits, .read ordersRead bits, .move (.go 0), .move (.go 0), .move (.go 0),
    .move (.deliver 0 (.answered none))]

/-- The absence of users is marked under the key of the search, and a read of orders asks nothing of the
store. -/
theorem users_marked_orders_unasked :
    ∃ (w next next' : World Bool RecordingStore) (log : List (Event Bool)),
      usersListed.IsNew ∧ Runs Unrestricted usersListed log w ∧ w.WritesJson ∧
      w.Reads 0 usersRead bits (.filling 0 none .notFound [.start usersAbsent]) ∧
      w.act? (.move (.goJob 0 0)) = some next ∧
      MoveKeepsTable usersListed.node.cache w next
        (.read usersRead bits (.filling 0 none .notFound [.start usersAbsent])) (.goJob 0 0) ∧
      w.Reads 1 ordersRead bits .ready ∧ w.act? (.move (.go 1)) = some next' ∧
      MoveKeepsTable usersListed.node.cache w next' (.read ordersRead bits .ready) (.go 1) := by
  have hrun : (usersListed.perform? Unrestricted readBoth).map (fun last =>
        (last.1.node.activities, (last.1.act? (.move (.goJob 0 0))).isSome,
          (last.1.act? (.move (.go 1))).isSome)) =
      some ([.read usersRead bits (.filling 0 none .notFound [.start usersAbsent]),
        .read ordersRead bits .ready], true, true) := by cbv
  obtain ⟨⟨w, log⟩, hlast, hfacts⟩ := Option.map_eq_some_iff.mp hrun
  simp only [Prod.mk.injEq] at hfacts
  obtain ⟨hactivities, hmarks, hbypasses⟩ := hfacts
  obtain ⟨next, hnext⟩ := Option.isSome_iff_exists.mp hmarks
  obtain ⟨next', hnext'⟩ := Option.isSome_iff_exists.mp hbypasses
  have new : usersListed.IsNew := ⟨⟨{ tables := ["users"] }, "a", rfl⟩, rfl⟩
  have run : Runs Unrestricted usersListed log w := .of_perform? hlast
  have users : w.Reads 0 usersRead bits (.filling 0 none .notFound [.start usersAbsent]) := by
    rw [Reads, hactivities]
    rfl
  have orders : w.Reads 1 ordersRead bits .ready := by
    rw [Reads, hactivities]
    rfl
  have json : w.WritesJson := by
    intro i query format stage read
    rw [Reads, hactivities] at read
    rcases i with _ | _ | i
    · obtain ⟨-, rfl, -⟩ := Activity.read.inj (Option.some.inj read)
      exact bits_writesJson
    · obtain ⟨-, rfl, -⟩ := Activity.read.inj (Option.some.inj read)
      exact bits_writesJson
    · cases read
  exact ⟨w, next, next', log, new, run, json, users, hnext,
    store_is_asked_for_cached_tables new run users (fun _ _ => by simp) hnext, orders, hnext',
    store_is_asked_for_cached_tables new run orders (fun _ _ => by simp) hnext'⟩

end World

end ReadThrough
