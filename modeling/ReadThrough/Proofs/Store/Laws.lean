import Mathlib.Data.List.Forall2
import ReadThrough.Job

/-! # What a store can be relied on for

A `LawfulMedium` holds entries, and it holds only what puts have brought there. On a medium of this
kind a sweep need not be atomic: what matters is that a key is gone, or still to be deleted by the
operation.

* `Operation.Stores` and `Operation.Deletes` say what an operation is still going to do;
* `LawfulMedium` lists the laws of single steps;
* `Operation.LooksUp` says what a lookup finds, now or later;
* the lemmas on `JobRun` carry them over to jobs, and `JobRun.Covering` to jobs that together are going
  to delete certain keys.
-/

namespace ReadThrough
set_option autoImplicit false

/-! ## Calls and operations -/

def Call.Stores {k : ReplyKind} (call : Call k) (key value : String) : Prop :=
  match call with
  | .put entry => entry = ⟨key, value⟩
  | .putAll entries => ⟨key, value⟩ ∈ entries
  | _ => False

def Call.Deletes {k : ReplyKind} (call : Call k) (key : String) : Prop :=
  match call with
  | .delete deleted => deleted = key
  | .deleteAll keys => key ∈ keys
  | .sweep segments => isUnder key segments
  | _ => False

/-- The call names keys to delete, or a prefix. -/
def Call.IsDeletion {k : ReplyKind} : Call k → Prop
  | .delete _ | .deleteAll _ | .sweep _ => True
  | _ => False

namespace Operation

variable {k : ReplyKind}

def Asks (operation : Operation k) (call : Call k) : Prop :=
  operation = .asked call ∨ operation = .held call

/-- The operation may still store this value under this key. -/
def Stores (operation : Operation k) (key value : String) : Prop :=
  match operation with
  | .asked call | .held call => call.Stores key value
  | _ => False

/-- The operation is still going to delete this key. -/
def Deletes (operation : Operation k) (key : String) : Prop :=
  match operation with
  | .asked call | .held call => call.Deletes key
  | .sweeping rest => key ∈ rest
  | .answered _ => False

/-- The operation is a deletion that has not failed. -/
def IsDeletion (operation : Operation k) : Prop :=
  match operation with
  | .asked call | .held call => call.IsDeletion
  | .sweeping _ => True
  | .answered reply => ∃ value, reply = .ok value

end Operation

theorem Call.not_stores_of_isDeletion {k : ReplyKind} {call : Call k} (h : call.IsDeletion)
    (key value : String) : ¬ call.Stores key value := by
  cases call <;> first | exact id | cases h

theorem Operation.not_stores_of_isDeletion {k : ReplyKind} {operation : Operation k}
    (h : operation.IsDeletion) (key value : String) : ¬ operation.Stores key value := by
  cases operation with
  | asked call | held call => exact Call.not_stores_of_isDeletion h key value
  | sweeping | answered => exact id

/-! ## Laws of a medium -/

/-- A medium with what it holds: at a time, under a key, a value. -/
class LawfulMedium (σ : Type) [Medium σ] where
  Holds : σ → Nat → String → String → Prop
  /-- The store does not refuse to delete. -/
  Reliable : σ → Prop
  /-- What is held at some time was held before, if the store is the same. -/
  holds_earlier {store : σ} {now later : Nat} {key value : String} (h : now ≤ later)
    (held : Holds store later key value) : Holds store now key value
  /-- What is held after a step was held before, or the operation stored it. -/
  of_holds {k : ReplyKind} {now : Nat} {store : σ} {operation : Operation k} {step : StoreStep σ k}
    {key value : String} (taken : Medium.step? now store operation = some step)
    (held : Holds step.store now key value) : Holds store now key value ∨ operation.Stores key value
  of_stores {k : ReplyKind} {now : Nat} {store : σ} {operation : Operation k} {step : StoreStep σ k}
    {key value : String} (taken : Medium.step? now store operation = some step)
    (stores : step.operation.Stores key value) : operation.Stores key value
  /-- A key that was to be deleted is gone after a step, or still to be deleted. -/
  deletes {k : ReplyKind} {now : Nat} {store : σ} {operation : Operation k} {step : StoreStep σ k}
    {key value : String} (reliable : Reliable store)
    (taken : Medium.step? now store operation = some step) (deletes : operation.Deletes key)
    (held : Holds step.store now key value) : step.operation.Deletes key
  isDeletion {k : ReplyKind} {now : Nat} {store : σ} {operation : Operation k}
    {step : StoreStep σ k} (reliable : Reliable store)
    (taken : Medium.step? now store operation = some step) (deletion : operation.IsDeletion) :
    step.operation.IsDeletion
  reliable {k : ReplyKind} {now : Nat} {store : σ} {operation : Operation k} {step : StoreStep σ k}
    (reliable : Reliable store) (taken : Medium.step? now store operation = some step) :
    Reliable step.store
  /-- A value that answers a call was held under the key asked for. -/
  get {now : Nat} {store : σ} {operation : Operation .text} {step : StoreStep σ .text} {key : String}
    (asks : operation.Asks (.get key)) (taken : Medium.step? now store operation = some step) :
    step.operation.Asks (.get key) ∨ ∃ reply, step.operation = .answered reply ∧
      ∀ value, reply = .ok value → Holds store now key value
  getAll {now : Nat} {store : σ} {operation : Operation .slots} {step : StoreStep σ .slots}
    {keys : List String} (asks : operation.Asks (.getAll keys))
    (taken : Medium.step? now store operation = some step) :
    step.operation.Asks (.getAll keys) ∨ ∃ reply, step.operation = .answered reply ∧
      ∀ slots, reply = .ok slots → ∀ (i : Nat) value, slots[i]? = some (some value) →
        ∃ key, keys[i]? = some key ∧ Holds store now key value

/-! ## Lookups -/

namespace Operation

/-- The operation looks up a key, or has a reply: a value found has this property. -/
def LooksUp (operation : Operation .text) (key : String) (P : String → Prop) : Prop :=
  operation.Asks (.get key) ∨ ∃ reply, operation = .answered reply ∧
    ∀ value, reply = .ok value → P value

/-- The operation looks up keys, or has a reply: the values found have this property, each with the key
in its place. -/
def LooksUpAll (operation : Operation .slots) (keys : List String) (P : String → String → Prop) :
    Prop :=
  operation.Asks (.getAll keys) ∨ ∃ reply, operation = .answered reply ∧
    ∀ slots, reply = .ok slots → ∀ (i : Nat) value, slots[i]? = some (some value) →
      ∃ key, keys[i]? = some key ∧ P key value

variable {key : String} {keys : List String}

theorem LooksUp.mono {operation : Operation .text} {P Q : String → Prop}
    (h : operation.LooksUp key P) (imp : ∀ value, P value → Q value) : operation.LooksUp key Q := by
  rcases h with hasks | ⟨reply, hreply, hvalue⟩
  · exact .inl hasks
  · exact .inr ⟨reply, hreply, fun value hok => imp value (hvalue value hok)⟩

theorem LooksUpAll.mono {operation : Operation .slots} {P Q : String → String → Prop}
    (h : operation.LooksUpAll keys P) (imp : ∀ key value, P key value → Q key value) :
    operation.LooksUpAll keys Q := by
  rcases h with hasks | ⟨reply, hreply, hslots⟩
  · exact .inl hasks
  · refine .inr ⟨reply, hreply, fun slots hok i value hvalue => ?_⟩
    obtain ⟨key, hkey, hholds⟩ := hslots slots hok i value hvalue
    exact ⟨key, hkey, imp key value hholds⟩

theorem LooksUp.found {P : String → Prop} {value : String}
    (h : (Operation.answered (.ok value)).LooksUp key P) : P value := by
  obtain (hasks | hasks) | ⟨reply, hreply, hvalue⟩ := h
  · cases hasks
  · cases hasks
  · obtain rfl := Operation.answered.inj hreply
    exact hvalue value rfl

theorem LooksUpAll.found {P : String → String → Prop} {slots : List (Option String)}
    (h : (Operation.answered (.ok slots)).LooksUpAll keys P) {i : Nat} {value : String}
    (slot : slots[i]? = some (some value)) : ∃ key, keys[i]? = some key ∧ P key value := by
  obtain (hasks | hasks) | ⟨reply, hreply, hslots⟩ := h
  · cases hasks
  · cases hasks
  · obtain rfl := Operation.answered.inj hreply
    exact hslots slots rfl i value slot

/-- When something was found under all keys, each value has the property with its key. -/
theorem LooksUpAll.forall₂ {P : String → String → Prop} {values : List String}
    (h : (Operation.answered (.ok (values.map some))).LooksUpAll keys P)
    (length : values.length = keys.length) :
    List.Forall₂ (fun key value => key ∈ keys ∧ P key value) keys values := by
  refine List.forall₂_iff_get.mpr ⟨length.symm, fun i hi hi' => ?_⟩
  obtain ⟨key, hkey, hholds⟩ := @found _ _ _ h i (values.get ⟨i, hi'⟩) (by simp)
  obtain rfl : keys.get ⟨i, hi⟩ = key := (List.getElem?_eq_some_iff.mp hkey).2
  exact ⟨List.get_mem _ _, hholds⟩

variable {σ : Type} [Medium σ] [LawfulMedium σ] {now : Nat} {store : σ}

/-- A lookup finds what the store holds. -/
theorem LooksUp.step {operation : Operation .text} {step : StoreStep σ .text} {P : String → Prop}
    (h : operation.LooksUp key P) (held : ∀ value, LawfulMedium.Holds store now key value → P value)
    (unanswered : ∀ reply, operation ≠ .answered reply)
    (taken : Medium.step? now store operation = some step) : step.operation.LooksUp key P := by
  rcases h with hasks | ⟨reply, hreply, -⟩
  · rcases LawfulMedium.get hasks taken with hlater | ⟨reply, hreply, hvalue⟩
    · exact .inl hlater
    · exact .inr ⟨reply, hreply, fun value hok => held value (hvalue value hok)⟩
  · exact absurd hreply (unanswered reply)

theorem LooksUpAll.step {operation : Operation .slots} {step : StoreStep σ .slots}
    {P : String → String → Prop} (h : operation.LooksUpAll keys P)
    (held : ∀ key value, key ∈ keys → LawfulMedium.Holds store now key value → P key value)
    (unanswered : ∀ reply, operation ≠ .answered reply)
    (taken : Medium.step? now store operation = some step) : step.operation.LooksUpAll keys P := by
  rcases h with hasks | ⟨reply, hreply, -⟩
  · rcases LawfulMedium.getAll hasks taken with hlater | ⟨reply, hreply, hslots⟩
    · exact .inl hlater
    · refine .inr ⟨reply, hreply, fun slots hok i value hvalue => ?_⟩
      obtain ⟨key, hkey, hheld⟩ := hslots slots hok i value hvalue
      exact ⟨key, hkey, held key value (List.mem_of_getElem? hkey) hheld⟩
  · exact absurd hreply (unanswered reply)

end Operation

/-! ## Jobs -/

def Job.Stores (job : Job) (key value : String) : Prop :=
  ∃ later ∈ job.steps, later.1.Stores key value

namespace JobRun

/-- The job under way may still store this value under this key. -/
def Stores (run : JobRun) (key value : String) : Prop :=
  match run with
  | .working _ operation _ rest =>
    operation.Stores key value ∨ ∃ later ∈ rest, later.1.Stores key value
  | .finished | .brokeDown => False

/-- The job under way is still going to delete this key. -/
def Deletes (run : JobRun) (key : String) : Prop :=
  match run with
  | .working _ operation _ rest => operation.Deletes key ∨ ∃ later ∈ rest, later.1.Deletes key
  | .finished | .brokeDown => False

/-- The job under way only deletes, and no deletion of it has failed. -/
def IsDeletion (run : JobRun) : Prop :=
  match run with
  | .working _ operation _ rest => operation.IsDeletion ∧ ∀ later ∈ rest, later.1.IsDeletion
  | .finished => True
  | .brokeDown => False

theorem next_stores {job : Job} {rest : List (Call .done × Notice)} {key value : String} :
    (next job rest).Stores key value ↔ ∃ later ∈ rest, later.1.Stores key value := by
  cases rest <;> simp [next, Stores, Operation.Stores]

theorem next_deletes {job : Job} {rest : List (Call .done × Notice)} {key : String} :
    (next job rest).Deletes key ↔ ∃ later ∈ rest, later.1.Deletes key := by
  cases rest <;> simp [next, Deletes, Operation.Deletes]

theorem next_isDeletion {job : Job} {rest : List (Call .done × Notice)} :
    (next job rest).IsDeletion ↔ ∀ later ∈ rest, later.1.IsDeletion := by
  cases rest <;> simp [next, IsDeletion, Operation.IsDeletion]

theorem start_stores {job : Job} {key value : String} :
    (start job).Stores key value ↔ job.Stores key value := next_stores

theorem not_stores_of_isDeletion {run : JobRun} (h : run.IsDeletion) (key value : String) :
    ¬ run.Stores key value := by
  cases run with
  | working job operation onFailure rest =>
    rintro (hnow | ⟨later, hmem, hlater⟩)
    · exact Operation.not_stores_of_isDeletion h.1 key value hnow
    · exact Call.not_stores_of_isDeletion (h.2 later hmem) key value hlater
  | finished | brokeDown => exact id

theorem not_deletes_of_ended {run : JobRun} (ended : run.isFinished ∨ run.isBroken) (key : String) :
    ¬ run.Deletes key := by
  cases run with
  | working => simp [isFinished, isBroken] at ended
  | finished | brokeDown => exact id

section

variable {σ : Type} [Medium σ] {now : Nat} {store : σ} {run : JobRun} {step : JobStep σ}

/-- A step of a job is a step of the store on its call, or the job takes in the reply. -/
theorem step?_cases (taken : run.step? now store = some step) :
    (∃ job reply onFailure rest, run = .working job (.answered reply) onFailure rest ∧
      step.store = store ∧
      (step.run = next job rest ∨ (reply = .error .brokeDown ∧ step.run = .brokeDown))) ∨
    ∃ job operation onFailure rest, ∃ taken : StoreStep σ .done,
      run = .working job operation onFailure rest ∧
      Medium.step? now store operation = some taken ∧ step.store = taken.store ∧
      step.run = .working job taken.operation onFailure rest := by
  unfold step? at taken
  split at taken
  · rename_i job reply onFailure rest
    obtain rfl := Option.some.inj taken
    refine .inl ⟨job, reply, onFailure, rest, rfl, ?_⟩
    unfold receive
    split
    · exact ⟨rfl, .inr ⟨rfl, rfl⟩⟩
    · exact ⟨rfl, .inl rfl⟩
    · exact ⟨rfl, .inl rfl⟩
  · rename_i job operation onFailure rest _
    obtain ⟨moved, hmoved, rfl⟩ := Option.map_eq_some_iff.mp taken
    exact .inr ⟨job, operation, onFailure, rest, moved, rfl, hmoved, rfl, rfl⟩
  · cases taken
  · cases taken

variable [LawfulMedium σ] {key value : String}

theorem of_holds (taken : run.step? now store = some step)
    (held : LawfulMedium.Holds step.store now key value) :
    LawfulMedium.Holds store now key value ∨ run.Stores key value := by
  rcases step?_cases taken with ⟨job, reply, onFailure, rest, rfl, hstore, -⟩ |
    ⟨job, operation, onFailure, rest, moved, rfl, hmoved, hstore, -⟩
  · exact .inl (hstore ▸ held)
  · rw [hstore] at held
    exact (LawfulMedium.of_holds hmoved held).imp id .inl

theorem of_stores (taken : run.step? now store = some step) (stores : step.run.Stores key value) :
    run.Stores key value := by
  rcases step?_cases taken with ⟨job, reply, onFailure, rest, rfl, -, hnext | ⟨-, hbroken⟩⟩ |
    ⟨job, operation, onFailure, rest, moved, rfl, hmoved, -, hrun⟩
  · rw [hnext, next_stores] at stores
    exact .inr stores
  · rw [hbroken] at stores
    exact stores.elim
  · rw [hrun] at stores
    exact stores.imp (LawfulMedium.of_stores hmoved) id

theorem step_isDeletion (reliable : LawfulMedium.Reliable store)
    (taken : run.step? now store = some step) (deletion : run.IsDeletion) : step.run.IsDeletion := by
  rcases step?_cases taken with ⟨job, reply, onFailure, rest, rfl, -, hnext | ⟨hreply, -⟩⟩ |
    ⟨job, operation, onFailure, rest, moved, rfl, hmoved, -, hrun⟩
  · rw [hnext, next_isDeletion]
    exact deletion.2
  · obtain ⟨⟨value, hok⟩, -⟩ := deletion
    cases hreply.symm.trans hok
  · rw [hrun]
    exact ⟨LawfulMedium.isDeletion reliable hmoved deletion.1, deletion.2⟩

/-- What a job was to delete is gone after a step, or still to be deleted, unless it broke down. -/
theorem step_deletes (reliable : LawfulMedium.Reliable store)
    (taken : run.step? now store = some step) (unbroken : step.run ≠ .brokeDown)
    (deletes : run.Deletes key) (held : LawfulMedium.Holds step.store now key value) :
    step.run.Deletes key := by
  rcases step?_cases taken with ⟨job, reply, onFailure, rest, rfl, -, hnext | ⟨-, hbroken⟩⟩ |
    ⟨job, operation, onFailure, rest, moved, rfl, hmoved, hstore, hrun⟩
  · rw [hnext, next_deletes]
    exact deletes.resolve_left id
  · exact absurd hbroken unbroken
  · rw [hrun]
    rw [hstore] at held
    exact deletes.imp (fun h => LawfulMedium.deletes reliable hmoved h held) id

theorem step_reliable (reliable : LawfulMedium.Reliable store)
    (taken : run.step? now store = some step) : LawfulMedium.Reliable step.store := by
  rcases step?_cases taken with ⟨job, reply, onFailure, rest, -, hstore, -⟩ |
    ⟨job, operation, onFailure, rest, moved, -, hmoved, hstore, -⟩
  · rwa [hstore]
  · rw [hstore]
    exact LawfulMedium.reliable reliable hmoved

/-- The jobs delete, and what the store holds under these keys one of them is still going to delete. -/
structure Covering (Targets : String → Prop) (now : Nat) (store : σ) (jobs : List JobRun) : Prop where
  deletion : ∀ job ∈ jobs, job.IsDeletion
  covers : ∀ key value, LawfulMedium.Holds store now key value → Targets key →
    ∃ job ∈ jobs, job.Deletes key

/-- A job takes a step among others, and what it was to delete is gone then, or still to be deleted. -/
theorem Covering.set_of {Targets : String → Prop} {jobs : List JobRun} {index : Nat}
    (h : Covering Targets now store jobs) (found : jobs[index]? = some run)
    (taken : run.step? now store = some step) (after : step.run.IsDeletion)
    (deletes : ∀ key value, run.Deletes key → LawfulMedium.Holds step.store now key value →
      step.run.Deletes key) : Covering Targets now step.store (jobs.set index step.run) := by
  have hrun := h.deletion run (List.mem_of_getElem? found)
  constructor
  · intro job hjob
    rcases List.mem_or_eq_of_mem_set hjob with hold | rfl
    · exact h.deletion job hold
    · exact after
  · intro key value held target
    have hbefore : LawfulMedium.Holds store now key value := by
      rcases of_holds taken held with hbefore | hstores
      · exact hbefore
      · exact absurd hstores (not_stores_of_isDeletion hrun key value)
    obtain ⟨job, hjob, hdeletes⟩ := h.covers key value hbefore target
    obtain ⟨place, hplace⟩ := List.getElem?_of_mem hjob
    by_cases hsame : index = place
    · subst hsame
      obtain rfl := Option.some.inj (found.symm.trans hplace)
      have hlt : index < jobs.length := (List.getElem?_eq_some_iff.mp found).1
      exact ⟨step.run, List.mem_set hlt step.run, deletes key value hdeletes held⟩
    · refine ⟨job, List.mem_of_getElem? (i := place) ?_, hdeletes⟩
      rw [List.getElem?_set_ne hsame, hplace]

theorem Covering.set {Targets : String → Prop} {jobs : List JobRun} {index : Nat}
    (h : Covering Targets now store jobs) (reliable : LawfulMedium.Reliable store)
    (found : jobs[index]? = some run) (taken : run.step? now store = some step) :
    Covering Targets now step.store (jobs.set index step.run) := by
  have hafter : step.run.IsDeletion :=
    step_isDeletion reliable taken (h.deletion run (List.mem_of_getElem? found))
  have hunbroken : step.run ≠ .brokeDown := by
    intro hbroken
    rw [hbroken] at hafter
    exact hafter
  exact h.set_of found taken hafter fun _ _ hdeletes held =>
    step_deletes reliable taken hunbroken hdeletes held

/-- When all jobs have ended, nothing is held under these keys. -/
theorem Covering.ended {Targets : String → Prop} {jobs : List JobRun}
    (h : Covering Targets now store jobs) (ended : ∀ job ∈ jobs, job.isFinished ∨ job.isBroken)
    (held : LawfulMedium.Holds store now key value) : ¬ Targets key := by
  intro target
  obtain ⟨job, hjob, hdeletes⟩ := h.covers key value held target
  exact not_deletes_of_ended (ended job hjob) key hdeletes

end

end JobRun

end ReadThrough
