import ReadThrough.Proofs.Store.Progress

/-! # Deletions that are refused

A store need not be reliable for a deletion to be relied on: if it did not do what it was asked, it said
so.

* `CandidMedium` has the law, which all stores keep;
* `JobRun.Covering.set_of_unfailed`: jobs that delete go on to cover what they covered, as long as none of
  their calls has failed;
* `DecisiveMedium`: a deletion is refused before it has done anything, or not at all. All stores keep this law,
  too.
-/

namespace ReadThrough
set_option autoImplicit false

/-- A medium on which a key that was to be deleted is gone after a step, or still to be deleted, or the
deletion has failed. -/
class CandidMedium (σ : Type) [Medium σ] [LawfulMedium σ] : Prop where
  deletes {k : ReplyKind} {now : Nat} {store : σ} {operation : Operation k} {step : StoreStep σ k}
    {key value : String} (taken : Medium.step? now store operation = some step)
    (unfailed : step.operation.IsDeletion) (deletes : operation.Deletes key)
    (held : LawfulMedium.Holds step.store now key value) : step.operation.Deletes key

/-! ## Jobs -/

namespace JobRun

variable {σ : Type} [Medium σ] [LawfulMedium σ] [CandidMedium σ] {now : Nat} {store : σ}
  {run : JobRun} {step : JobStep σ} {key value : String}

theorem step_deletes_of_unfailed (taken : run.step? now store = some step)
    (unfailed : step.run.IsDeletion) (deletes : run.Deletes key)
    (held : LawfulMedium.Holds step.store now key value) : step.run.Deletes key := by
  rcases step?_cases taken with ⟨job, reply, onFailure, rest, rfl, -, hnext | ⟨-, hbroken⟩⟩ |
    ⟨job, operation, onFailure, rest, moved, rfl, hmoved, hstore, hrun⟩
  · rw [hnext, next_deletes]
    exact deletes.resolve_left id
  · rw [hbroken] at unfailed
    exact unfailed.elim
  · rw [hrun] at unfailed ⊢
    rw [hstore] at held
    exact deletes.imp (fun h => CandidMedium.deletes hmoved unfailed.1 h held) id

theorem Covering.set_of_unfailed {Targets : String → Prop} {jobs : List JobRun} {index : Nat}
    (h : Covering Targets now store jobs) (found : jobs[index]? = some run)
    (taken : run.step? now store = some step) (unfailed : step.run.IsDeletion) :
    Covering Targets now step.store (jobs.set index step.run) :=
  h.set_of found taken unfailed fun _ _ hdeletes held =>
    step_deletes_of_unfailed taken unfailed hdeletes held

end JobRun

/-! ## All stores are candid -/

instance : CandidMedium ExpiringStore where
  deletes taken _ deletes held := LawfulMedium.deletes trivial taken deletes held

instance : CandidMedium RecencyStore where
  deletes taken _ deletes held := LawfulMedium.deletes trivial taken deletes held

namespace RecordingStore

theorem Taken.deletes_of_unfailed {store : RecordingStore} {k : ReplyKind} {call : Call k}
    {step : StoreStep RecordingStore k} {key value : String} (h : Taken store call step)
    (unfailed : step.operation.IsDeletion) (deletes : call.Deletes key)
    (held : step.store.entries[key]? = some value) : step.operation.Deletes key := by
  cases h with
  | waits operation =>
    rw [operation]
    exact deletes
  | fails armed entries fault operation =>
    rw [operation] at unfailed
    obtain ⟨value, hok⟩ := unfailed
    cases hok
  | acts next entries failures acts =>
    subst acts
    exact absurd deletes (act_spec held).2

instance : CandidMedium RecordingStore where
  deletes {_ _ store operation} _ key value taken unfailed deletes held := by
    cases operation with
    | asked call => exact (taken_of_step? (.inl rfl) taken).deletes_of_unfailed unfailed deletes held
    | held call => exact (taken_of_step? (.inr rfl) taken).deletes_of_unfailed unfailed deletes held
    | sweeping rest =>
      obtain rfl := Option.some.inj taken
      have hgone : (store.eraseAll rest).entries[key]? = some value := held
      have hmem : key ∈ rest := deletes
      rw [eraseAll_entries, if_pos hmem] at hgone
      cases hgone
    | answered => cases taken

end RecordingStore

instance : CandidMedium Store where
  deletes {_ _ store _} _ _ _ taken unfailed deletes held := by
    cases store <;> obtain ⟨inner, hinner, rfl⟩ := Option.map_eq_some_iff.mp taken <;>
      exact (CandidMedium.deletes hinner unfailed deletes held : inner.operation.Deletes _)

/-! ## Refusals without effect -/

/-- The operation has begun to act: it is a sweep with keys left, or it has succeeded. -/
def Operation.IsActing {k : ReplyKind} : Operation k → Prop
  | .sweeping _ | .answered (.ok _) => True
  | .asked _ | .held _ | .answered (.error _) => False

/-- What becomes of a deletion in a step: it waits, it is refused before it has done anything, or it acts. -/
inductive Medium.DeletionStep {σ : Type} [Medium σ] [LawfulMedium σ] {k : ReplyKind} (now : Nat) (store : σ)
    (operation : Operation k) (step : StoreStep σ k) : Prop
  | waits {call : Call k} (asks : operation.Asks call) (later : step.operation.Asks call)
      (same : ∀ key value, LawfulMedium.Holds step.store now key value ↔
        LawfulMedium.Holds store now key value)
  | refused {call : Call k} {failure : Failure} (asks : operation.Asks call)
      (failed : step.operation = .answered (.error (.failed failure)))
      (same : ∀ key value, LawfulMedium.Holds step.store now key value ↔
        LawfulMedium.Holds store now key value)
  | acts (acting : step.operation.IsActing)

/-- A medium that refuses a deletion as a whole, or carries it out. -/
class DecisiveMedium (σ : Type) [Medium σ] [LawfulMedium σ] : Prop where
  deletionStep {k : ReplyKind} {now : Nat} {store : σ} {operation : Operation k} {step : StoreStep σ k}
    (taken : Medium.step? now store operation = some step) (deletion : operation.IsDeletion) :
    Medium.DeletionStep now store operation step

theorem Operation.isActing_of_isDeletion {k : ReplyKind} {operation : Operation k}
    (deletion : operation.IsDeletion) (unasked : ∀ call, ¬ operation.Asks call) : operation.IsActing := by
  cases operation with
  | asked call => exact absurd (.inl rfl) (unasked call)
  | held call => exact absurd (.inr rfl) (unasked call)
  | sweeping => trivial
  | answered =>
    obtain ⟨value, rfl⟩ := deletion
    trivial

/-- A store that carries calls out in one go never refuses to delete. -/
theorem InOneGo.decisive {σ : Type} [Medium σ] (s : InOneGo σ)
    (start : ∀ {k : ReplyKind} (store : σ) (now : Nat) (call : Call k),
      (s.start store now call).operation.IsUnderWay)
    (sweepOn_operation : ∀ (store : σ) (keys : List String),
      (s.sweepOn store keys).operation = .afterPortion keys) :
    @DecisiveMedium σ _ s.lawful := by
  let _ := s.lawful
  have hunder : ∀ {k : ReplyKind} {operation : Operation k}, operation.IsUnderWay →
      ∀ call, ¬ operation.Asks call := by
    rintro k operation h call (rfl | rfl) <;> exact h
  constructor
  intro k now store operation step taken deletion
  refine .acts (Operation.isActing_of_isDeletion (s.lawful.isDeletion trivial taken deletion) (hunder ?_))
  cases operation with
  | asked call => exact s.eq_start (.inl rfl) taken ▸ start store now call
  | held call => exact s.eq_start (.inr rfl) taken ▸ start store now call
  | sweeping rest =>
    rw [s.eq_sweepOn taken, sweepOn_operation]
    exact Operation.afterPortion_isUnderWay rest
  | answered => exact absurd taken s.ne_answered

instance : DecisiveMedium ExpiringStore :=
  ExpiringStore.inOneGo.decisive ExpiringStore.start_isUnderWay ExpiringStore.sweepOn_operation

instance : DecisiveMedium RecencyStore :=
  RecencyStore.inOneGo.decisive RecencyStore.start_isUnderWay RecencyStore.sweepOn_operation

namespace RecordingStore

variable {next : RecordingStore} {k : ReplyKind} {call : Call k}

theorem act_isActing (deletion : call.IsDeletion) (store : RecordingStore) :
    (store.act call).operation.IsActing := by
  cases call with
  | delete | deleteAll | sweep => trivial
  | _ => exact deletion.elim

/-- A deletion that is tried on a store with the same entries is refused, or acts. -/
theorem attempt_deletionStep (now : Nat) (store : RecordingStore) {operation : Operation k}
    (asks : operation.Asks call) (deletion : call.IsDeletion) (entries : next.entries = store.entries) :
    Medium.DeletionStep now store operation (next.attempt call) := by
  unfold attempt
  split
  · exact .acts (act_isActing deletion next)
  · refine .refused asks rfl fun key value => ?_
    change next.entries[key]? = some value ↔ store.entries[key]? = some value
    rw [entries]

instance : DecisiveMedium RecordingStore where
  deletionStep {_ now store operation} _ taken deletion := by
    cases operation with
    | asked call =>
      simp only [Medium.step?, step?] at taken
      split at taken
      · obtain rfl := Option.some.inj taken
        exact .acts (act_isActing deletion store)
      · split at taken
        · obtain rfl := Option.some.inj taken
          exact .waits (.inl rfl) (.inr rfl) fun _ _ => .rfl
        · obtain rfl := Option.some.inj taken
          exact attempt_deletionStep now store (.inl rfl) deletion rfl
    | held call =>
      simp only [Medium.step?, step?] at taken
      split at taken
      · cases taken
      · obtain rfl := Option.some.inj taken
        exact attempt_deletionStep now store (.inr rfl) deletion rfl
    | sweeping =>
      obtain rfl := Option.some.inj taken
      exact .acts trivial
    | answered => cases taken

end RecordingStore

instance : DecisiveMedium Store where
  deletionStep {_ now store _ step} taken deletion := by
    cases store <;> obtain ⟨inner, hinner, rfl⟩ := Option.map_eq_some_iff.mp taken <;>
      cases DecisiveMedium.deletionStep hinner deletion with
      | waits asks later same => exact .waits asks later same
      | refused asks failed same => exact .refused asks failed same
      | acts acting => exact .acts acting

end ReadThrough
