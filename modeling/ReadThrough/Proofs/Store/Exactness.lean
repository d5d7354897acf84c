import ReadThrough.Proofs.Store.Media

/-! # Exact deletions

The laws of a medium say that deletions leave nothing behind. On an exact medium they take nothing else
away, either.

* `ExactMedium` lists the laws, which all stores keep;
* `Clearing` describes deletions on the way to take what is held under certain keys and nothing else,
  `Clearing.operation` and `Clearing.jobs` their steps, and `Clearing.ended` what has become of the store.
-/

namespace ReadThrough
set_option autoImplicit false

/-- A medium on which a deletion only takes away what it is to delete. -/
class ExactMedium (σ : Type) [Medium σ] [LawfulMedium σ] : Prop where
  spares {k : ReplyKind} {now : Nat} {store : σ} {operation : Operation k} {step : StoreStep σ k}
    {key value : String} (taken : Medium.step? now store operation = some step)
    (deletion : operation.IsDeletion) (held : LawfulMedium.Holds store now key value)
    (spared : ¬ operation.Deletes key) : LawfulMedium.Holds step.store now key value
  of_deletes {k : ReplyKind} {now : Nat} {store : σ} {operation : Operation k} {step : StoreStep σ k}
    {key : String} (taken : Medium.step? now store operation = some step)
    (deletion : operation.IsDeletion) (deletes : step.operation.Deletes key) : operation.Deletes key

/-! ## Jobs -/

namespace JobRun

variable {σ : Type} [Medium σ] [LawfulMedium σ] [ExactMedium σ] {now : Nat} {store : σ}
  {run : JobRun} {step : JobStep σ} {key value : String}

theorem step_spares (taken : run.step? now store = some step) (deletion : run.IsDeletion)
    (held : LawfulMedium.Holds store now key value) (spared : ¬ run.Deletes key) :
    LawfulMedium.Holds step.store now key value := by
  rcases step?_cases taken with ⟨job, reply, onFailure, rest, rfl, hstore, -⟩ |
    ⟨job, operation, onFailure, rest, moved, rfl, hmoved, hstore, -⟩
  · rwa [hstore]
  · rw [hstore]
    exact ExactMedium.spares hmoved deletion.1 held fun h => spared (.inl h)

theorem of_step_deletes (taken : run.step? now store = some step) (deletion : run.IsDeletion)
    (deletes : step.run.Deletes key) : run.Deletes key := by
  rcases step?_cases taken with ⟨job, reply, onFailure, rest, rfl, -, hnext | ⟨-, hbroken⟩⟩ |
    ⟨job, operation, onFailure, rest, moved, rfl, hmoved, -, hrun⟩
  · rw [hnext, next_deletes] at deletes
    exact .inr deletes
  · rw [hbroken] at deletes
    exact deletes.elim
  · rw [hrun] at deletes
    exact deletes.imp (ExactMedium.of_deletes hmoved deletion.1) id

end JobRun

/-! ## Deletions on their way -/

section

variable {σ : Type} [Medium σ] [LawfulMedium σ] {now : Nat} {store store' : σ}
  {Targets Pending Pending' : String → Prop} {Before : String → String → Prop}

/-- The store is on the way from one that held these entries to one that has lost those under the given
keys, and what is pending is still to be deleted. -/
structure Clearing (Targets : String → Prop) (Before : String → String → Prop) (now : Nat) (store : σ)
    (Pending : String → Prop) : Prop where
  reliable : LawfulMedium.Reliable store
  covers : ∀ key value, LawfulMedium.Holds store now key value → Targets key → Pending key
  targets : ∀ key, Pending key → Targets key
  kept : ∀ key value, Before key value → ¬ Targets key → LawfulMedium.Holds store now key value
  old : ∀ key value, LawfulMedium.Holds store now key value → Before key value

/-- When nothing is pending, the entries under the keys are gone, and all others are still there. -/
theorem Clearing.ended (h : Clearing Targets Before now store Pending) (ended : ∀ key, ¬ Pending key)
    (key value : String) : LawfulMedium.Holds store now key value ↔ Before key value ∧ ¬ Targets key := by
  constructor
  · intro held
    exact ⟨h.old key value held, fun target => ended key (h.covers key value held target)⟩
  · rintro ⟨hbefore, hspared⟩
    exact h.kept key value hbefore hspared

/-- A step takes away only what is pending, and what is pending is gone after it or still pending. -/
theorem Clearing.next (h : Clearing Targets Before now store Pending)
    (reliable : LawfulMedium.Reliable store')
    (old : ∀ key value, LawfulMedium.Holds store' now key value → LawfulMedium.Holds store now key value)
    (spares : ∀ key value, LawfulMedium.Holds store now key value → ¬ Pending key →
      LawfulMedium.Holds store' now key value)
    (deletes : ∀ key value, LawfulMedium.Holds store' now key value → Pending key → Pending' key)
    (only : ∀ key, Pending' key → Pending key) : Clearing Targets Before now store' Pending' where
  reliable := reliable
  covers key value held target := deletes key value held (h.covers key value (old key value held) target)
  targets key pending := h.targets key (only key pending)
  kept key value before spared :=
    spares key value (h.kept key value before spared) fun pending => spared (h.targets key pending)
  old key value held := h.old key value (old key value held)

variable [ExactMedium σ]

theorem Clearing.operation {operation : Operation .done} {step : StoreStep σ .done}
    (h : Clearing Targets Before now store operation.Deletes) (deletion : operation.IsDeletion)
    (taken : Medium.step? now store operation = some step) :
    Clearing Targets Before now step.store step.operation.Deletes := by
  refine h.next (LawfulMedium.reliable h.reliable taken) ?_ ?_ ?_ ?_
  · intro key value held
    rcases LawfulMedium.of_holds taken held with hheld | hstores
    · exact hheld
    · exact absurd hstores (Operation.not_stores_of_isDeletion deletion key value)
  · exact fun key value held => ExactMedium.spares taken deletion held
  · exact fun key value held deletes => LawfulMedium.deletes h.reliable taken deletes held
  · exact fun key deletes => ExactMedium.of_deletes taken deletion deletes

theorem Clearing.jobs {jobs : List JobRun} {index : Nat} {run : JobRun} {step : JobStep σ}
    (h : Clearing Targets Before now store fun key => ∃ job ∈ jobs, job.Deletes key)
    (deletion : ∀ job ∈ jobs, job.IsDeletion) (found : jobs[index]? = some run)
    (taken : run.step? now store = some step) :
    (∀ job ∈ jobs.set index step.run, job.IsDeletion) ∧
      Clearing Targets Before now step.store
        fun key => ∃ job ∈ jobs.set index step.run, job.Deletes key := by
  have hmem := List.mem_of_getElem? found
  have hrun := deletion run hmem
  have hnext := (JobRun.Covering.mk deletion fun _ _ _ pending => pending :
    JobRun.Covering _ now store jobs).set h.reliable found taken
  refine ⟨hnext.deletion, h.next (JobRun.step_reliable h.reliable taken) ?_ ?_ hnext.covers ?_⟩
  · intro key value held
    rcases JobRun.of_holds taken held with hheld | hstores
    · exact hheld
    · exact absurd hstores (JobRun.not_stores_of_isDeletion hrun key value)
  · intro key value held spared
    exact JobRun.step_spares taken hrun held fun hdeletes => spared ⟨run, hmem, hdeletes⟩
  · rintro key ⟨job, hjob, hdeletes⟩
    rcases List.mem_or_eq_of_mem_set hjob with hold | rfl
    · exact ⟨job, hold, hdeletes⟩
    · exact ⟨run, hmem, JobRun.of_step_deletes taken hrun hdeletes⟩

end

/-! ## In-process stores -/

/-- For a store that carries calls out in one go, two laws of deletions and two of the portions of a
sweep are enough. -/
theorem InOneGo.exact {σ : Type} [Medium σ] (s : InOneGo σ)
    (start_spares : ∀ {k : ReplyKind} {store : σ} {now : Nat} {call : Call k} {key value : String},
      call.IsDeletion → s.Holds store now key value → ¬ call.Deletes key →
      s.Holds (s.start store now call).store now key value)
    (of_start_deletes : ∀ {k : ReplyKind} {store : σ} {now : Nat} {call : Call k} {key : String},
      call.IsDeletion → (s.start store now call).operation.Deletes key → call.Deletes key)
    (sweepOn_spares : ∀ {store : σ} {now : Nat} {keys : List String} {key value : String},
      s.Holds store now key value → key ∉ keys → s.Holds (s.sweepOn store keys).store now key value)
    (sweepOn_operation : ∀ (store : σ) (keys : List String),
      (s.sweepOn store keys).operation = .afterPortion keys) :
    @ExactMedium σ _ s.lawful := by
  let _ := s.lawful
  constructor
  · intro k now store operation step key value taken deletion held spared
    cases operation with
    | asked call => exact s.eq_start (.inl rfl) taken ▸ start_spares deletion held spared
    | held call => exact s.eq_start (.inr rfl) taken ▸ start_spares deletion held spared
    | sweeping rest => exact s.eq_sweepOn taken ▸ sweepOn_spares held spared
    | answered => exact absurd taken s.ne_answered
  · intro k now store operation step key taken deletion deletes
    cases operation with
    | asked call =>
      rw [s.eq_start (.inl rfl) taken] at deletes
      exact of_start_deletes deletion deletes
    | held call =>
      rw [s.eq_start (.inr rfl) taken] at deletes
      exact of_start_deletes deletion deletes
    | sweeping rest =>
      rw [s.eq_sweepOn taken, sweepOn_operation] at deletes
      exact Operation.mem_of_afterPortion_deletes deletes
    | answered => exact absurd taken s.ne_answered

namespace ExpiringStore

variable {store : ExpiringStore} {now : Nat} {keys : List String} {key value : String}

theorem sweepOn_spares (held : store.get? now key = some value) (spared : key ∉ keys) :
    (store.sweepOn keys).store.get? now key = some value := by
  rw [sweepOn_store, get?_deleteAll, if_neg fun hmem => spared (List.mem_of_mem_take hmem), held]

instance : ExactMedium ExpiringStore :=
  inOneGo.exact
    (by
      intro k store now call key value deletion held spared
      have hheld : store.get? now key = some value := held
      cases call with
      | delete deleted => exact (get?_delete store deleted).trans ((if_neg spared).trans hheld)
      | deleteAll keys => exact (get?_deleteAll store keys).trans ((if_neg spared).trans hheld)
      | sweep segments => exact sweepOn_spares hheld fun hmem => spared (mem_sweepKeys.mp hmem).1
      | _ => exact deletion.elim)
    (by
      intro k store now call key deletion deletes
      cases call with
      | delete | deleteAll => exact deletes.elim
      | sweep segments =>
        simp only [inOneGo, start, sweepOn_operation] at deletes
        exact (mem_sweepKeys.mp (Operation.mem_of_afterPortion_deletes deletes)).1
      | _ => exact deletion.elim)
    sweepOn_spares sweepOn_operation

end ExpiringStore

namespace RecencyStore

variable {store : RecencyStore} {now : Nat} {keys : List String} {key value : String}

theorem holds_deleteAll (held : store.Holds now key value) (spared : key ∉ keys) :
    (store.deleteAll keys).Holds now key value := by
  obtain ⟨slot, hslot, hlive⟩ := held
  exact ⟨slot, mem_deleteAll.mpr ⟨hslot, spared⟩, hlive⟩

theorem sweepOn_spares (held : store.Holds now key value) (spared : key ∉ keys) :
    (store.sweepOn keys).store.Holds now key value := by
  rw [sweepOn_store]
  exact holds_deleteAll held fun hmem => spared (List.mem_of_mem_take hmem)

instance : ExactMedium RecencyStore :=
  inOneGo.exact
    (by
      intro k store now call key value deletion held spared
      have hheld : store.Holds now key value := held
      cases call with
      | delete deleted =>
        obtain ⟨slot, hslot, hlive⟩ := hheld
        exact ⟨slot, mem_without.mpr ⟨hslot, fun h => spared h.symm⟩, hlive⟩
      | deleteAll keys => exact holds_deleteAll hheld spared
      | sweep segments => exact sweepOn_spares hheld fun hmem => spared (mem_sweepKeys.mp hmem).1
      | _ => exact deletion.elim)
    (by
      intro k store now call key deletion deletes
      cases call with
      | delete | deleteAll => exact deletes.elim
      | sweep segments =>
        simp only [inOneGo, start, sweepOn_operation] at deletes
        exact (mem_sweepKeys.mp (Operation.mem_of_afterPortion_deletes deletes)).1
      | _ => exact deletion.elim)
    sweepOn_spares sweepOn_operation

end RecencyStore

/-! ## The recording store, and stores of any kind -/

namespace RecordingStore

variable {store : RecordingStore} {key value : String} {k : ReplyKind} {call : Call k}

theorem act_spares (deletion : call.IsDeletion) (held : store.entries[key]? = some value)
    (spared : ¬ call.Deletes key) : (store.act call).store.entries[key]? = some value := by
  cases call with
  | delete deleted =>
    have hne : ¬ deleted = key := spared
    simp [act, StoreStep.answer, Std.TreeMap.getElem?_erase, hne, held]
  | deleteAll keys => exact (eraseAll_entries store keys key).trans ((if_neg spared).trans held)
  | sweep segments =>
    have hnot : isUnder key segments = false := by simpa [Call.Deletes] using spared
    have hfilter : (store.entries.filter fun key _ => !isUnder key segments)[key]? = some value := by
      rw [Std.TreeMap.getElem?_filter', held]
      simp [hnot]
    exact hfilter
  | _ => exact deletion.elim

theorem act_not_deletes (deletion : call.IsDeletion) :
    ¬ (store.act call).operation.Deletes key := by
  cases call with
  | delete | deleteAll | sweep => exact id
  | _ => exact deletion.elim

namespace Taken

variable {step : StoreStep RecordingStore k}

theorem spares (h : Taken store call step) (deletion : call.IsDeletion)
    (held : store.entries[key]? = some value) (spared : ¬ call.Deletes key) :
    step.store.entries[key]? = some value := by
  cases h with
  | waits operation entries => rwa [entries]
  | fails armed entries => rwa [entries]
  | acts next entries failures acts =>
    subst acts
    exact act_spares deletion (entries ▸ held) spared

theorem of_deletes (h : Taken store call step) (deletion : call.IsDeletion)
    (deletes : step.operation.Deletes key) : call.Deletes key := by
  cases h with
  | waits operation => rwa [operation] at deletes
  | fails armed entries fault operation =>
    rw [operation] at deletes
    exact deletes.elim
  | acts next entries failures acts =>
    subst acts
    exact absurd deletes (act_not_deletes deletion)

end Taken

instance : ExactMedium RecordingStore where
  spares {_ _ _ operation} _ _ _ taken deletion held spared := by
    cases operation with
    | asked call => exact (taken_of_step? (.inl rfl) taken).spares deletion held spared
    | held call => exact (taken_of_step? (.inr rfl) taken).spares deletion held spared
    | sweeping rest =>
      obtain rfl := Option.some.inj taken
      exact (eraseAll_entries _ rest _).trans ((if_neg spared).trans held)
    | answered => cases taken
  of_deletes {_ _ _ operation} _ _ taken deletion deletes := by
    cases operation with
    | asked call => exact (taken_of_step? (.inl rfl) taken).of_deletes deletion deletes
    | held call => exact (taken_of_step? (.inr rfl) taken).of_deletes deletion deletes
    | sweeping rest =>
      obtain rfl := Option.some.inj taken
      exact deletes.elim
    | answered => cases taken

end RecordingStore

namespace Store

instance : ExactMedium Store where
  spares {_ now store _} _ key value taken deletion held spared := by
    cases store
    all_goals
      rename_i inner
      obtain ⟨step, hstep, rfl⟩ := Option.map_eq_some_iff.mp taken
      have hheld : LawfulMedium.Holds inner now key value := held
      have hspared := ExactMedium.spares hstep deletion hheld spared
      exact hspared
  of_deletes {_ _ store _} _ _ taken deletion deletes := by
    cases store
    all_goals
      obtain ⟨step, hstep, rfl⟩ := Option.map_eq_some_iff.mp taken
      have hdeletes := ExactMedium.of_deletes hstep deletion deletes
      exact hdeletes

end Store

end ReadThrough
