import ReadThrough.Proofs.Store.Dependable

/-! # Stores that answer

A store that holds nothing back answers every call after finitely many steps, whatever it answers: a sweep
takes one step for each portion of its keys, and asking for several keys at most one for each.

* `Medium.Answers` says that an operation comes to an answer, taken up again and again;
* `AnsweringMedium` has the law; the in-process stores always answer, and the recording store does so when it
  holds no method back;
* `JobRun.ends`: every job on such a store comes to its end.
-/

namespace ReadThrough
set_option autoImplicit false

/-! ## Operations that come to an answer -/

/-- Taken up again and again at this time, the operation comes to an answer. -/
inductive Medium.Answers {σ : Type} [Medium σ] {k : ReplyKind} (now : Nat) : σ → Operation k → Prop
  | answered {store reply} : Answers now store (.answered reply)
  | step {store operation step} (taken : Medium.step? now store operation = some step)
      (later : Answers now step.store step.operation) : Answers now store operation

/-- A medium that answers every call in finitely many steps, as long as it is in a certain state. -/
class AnsweringMedium (σ : Type) [Medium σ] where
  Answering : σ → Prop
  answering {k : ReplyKind} {now : Nat} {store : σ} {operation : Operation k} {step : StoreStep σ k}
    (h : Answering store) (taken : Medium.step? now store operation = some step) : Answering step.store
  answers {k : ReplyKind} {store : σ} (now : Nat) (h : Answering store) (operation : Operation k) :
    Medium.Answers now store operation

/-! ## The in-process stores -/

/-- The operation is answered, or a sweep with keys left. -/
def Operation.IsUnderWay {k : ReplyKind} : Operation k → Prop
  | .asked _ | .held _ => False
  | .sweeping _ | .answered _ => True

namespace Operation

theorem afterPortion_isUnderWay (keys : List String) : (afterPortion keys).IsUnderWay := by
  cases keys <;> trivial

/-- A portion of a sweep leaves fewer keys to later ones. -/
theorem afterPortion_shortens (keys : List String) :
    (∃ reply, afterPortion keys = .answered reply) ∨
      ∃ rest, afterPortion keys = .sweeping rest ∧ rest.length < keys.length := by
  cases keys with
  | nil => exact .inl ⟨_, rfl⟩
  | cons first rest =>
    refine .inr ⟨_, rfl, ?_⟩
    simp only [List.length_drop, List.length_cons, sweepPortion]
    omega

end Operation

/-- A store that carries calls out in one go, and sweeps in portions, answers everything. -/
theorem InOneGo.answers {σ : Type} [Medium σ] (s : InOneGo σ)
    (sweepOn_operation : ∀ (store : σ) (keys : List String),
      (s.sweepOn store keys).operation = .afterPortion keys)
    (start : ∀ {k : ReplyKind} (store : σ) (now : Nat) (call : Call k),
      (s.start store now call).operation.IsUnderWay)
    {k : ReplyKind} (now : Nat) (store : σ) (operation : Operation k) :
    Medium.Answers now store operation := by
  -- the number of keys left goes down
  have hsweep : ∀ (count : Nat) (keys : List String) (store : σ), keys.length ≤ count →
      Medium.Answers now store (.sweeping keys) := by
    intro count
    induction count with
    | zero =>
      intro keys store hcount
      refine .step s.step_sweeping ?_
      rw [sweepOn_operation]
      rcases Operation.afterPortion_shortens keys with ⟨reply, hreply⟩ | ⟨rest, -, hlt⟩
      · rw [hreply]
        exact .answered
      · omega
    | succ count ih =>
      intro keys store hcount
      refine .step s.step_sweeping ?_
      rw [sweepOn_operation]
      rcases Operation.afterPortion_shortens keys with ⟨reply, hreply⟩ | ⟨rest, hrest, hlt⟩
      · rw [hreply]
        exact .answered
      · rw [hrest]
        exact ih rest _ (by omega)
  have hunder : ∀ {k : ReplyKind} (store : σ) (operation : Operation k), operation.IsUnderWay →
      Medium.Answers now store operation := by
    intro k store operation h
    cases operation with
    | asked | held => exact h.elim
    | sweeping keys => exact hsweep keys.length keys store (Nat.le_refl _)
    | answered => exact .answered
  cases operation with
  | asked call => exact .step (s.step_asks (.inl rfl)) (hunder _ _ (start store now call))
  | held call => exact .step (s.step_asks (.inr rfl)) (hunder _ _ (start store now call))
  | sweeping => exact hunder store _ trivial
  | answered => exact .answered

namespace ExpiringStore

theorem start_isUnderWay {k : ReplyKind} (store : ExpiringStore) (now : Nat) (call : Call k) :
    (store.start now call).operation.IsUnderWay := by
  cases call with
  | get =>
    simp only [start]
    split <;> trivial
  | sweep => exact sweepOn_operation store _ ▸ Operation.afterPortion_isUnderWay _
  | clear =>
    simp only [start]
    split
    · trivial
    · exact sweepOn_operation store _ ▸ Operation.afterPortion_isUnderWay _
  | _ => trivial

instance : AnsweringMedium ExpiringStore where
  Answering _ := True
  answering _ _ := trivial
  answers now _ operation := inOneGo.answers sweepOn_operation start_isUnderWay now _ operation

end ExpiringStore

namespace RecencyStore

theorem start_isUnderWay {k : ReplyKind} (store : RecencyStore) (now : Nat) (call : Call k) :
    (store.start now call).operation.IsUnderWay := by
  cases call with
  | get =>
    simp only [start]
    split <;> trivial
  | sweep => exact sweepOn_operation store _ ▸ Operation.afterPortion_isUnderWay _
  | clear =>
    simp only [start]
    split
    · trivial
    · exact sweepOn_operation store _ ▸ Operation.afterPortion_isUnderWay _
  | _ => trivial

instance : AnsweringMedium RecencyStore where
  Answering _ := True
  answering _ _ := trivial
  answers now _ operation := inOneGo.answers sweepOn_operation start_isUnderWay now _ operation

end RecencyStore

/-! ## The recording store, and stores of any kind -/

/-- How many keys a call is going to ask about one after another. -/
def Call.keysLeft {k : ReplyKind} : Call k → Nat
  | .containsAll keys => keys.length
  | _ => 0

namespace RecordingStore

variable {store : RecordingStore} {k : ReplyKind}

theorem attempt_heldMethods (store : RecordingStore) (call : Call k) :
    (store.attempt call).store.heldMethods = store.heldMethods := by
  unfold attempt
  split
  · exact (act_instructions store call).2
  · rfl

theorem step?_of_free {call : Call k} {step : StoreStep RecordingStore k} {operation : Operation k}
    (free : store.heldMethods = []) (asks : operation.Asks call)
    (taken : store.step? operation = some step) :
    ∃ next : RecordingStore, next.heldMethods = [] ∧ (step = next.act call ∨ step = next.attempt call) := by
  rcases asks with rfl | rfl
  · simp only [step?] at taken
    split at taken
    · exact ⟨store, free, .inl (Option.some.inj taken).symm⟩
    · rename_i record _
      rw [if_neg (by simp [free])] at taken
      exact ⟨{ store with log := record :: store.log }, free, .inr (Option.some.inj taken).symm⟩
  · simp only [step?] at taken
    rw [if_neg (by simp [free])] at taken
    exact ⟨store, free, .inr (Option.some.inj taken).symm⟩

theorem free_of_step? {operation : Operation k} {step : StoreStep RecordingStore k}
    (free : store.heldMethods = []) (taken : store.step? operation = some step) :
    step.store.heldMethods = [] := by
  have hasks : ∀ call, operation.Asks call → step.store.heldMethods = [] := by
    intro call asks
    obtain ⟨next, hfree, rfl | rfl⟩ := step?_of_free free asks taken
    · exact (act_instructions next call).2.trans hfree
    · exact (attempt_heldMethods next call).trans hfree
  cases operation with
  | asked call => exact hasks call (.inl rfl)
  | held call => exact hasks call (.inr rfl)
  | sweeping =>
    obtain rfl := Option.some.inj taken
    exact free
  | answered => cases taken

theorem exists_step? (free : store.heldMethods = []) {operation : Operation k} {call : Call k}
    (asks : operation.Asks call) : ∃ step, store.step? operation = some step := by
  rcases asks with rfl | rfl
  · simp only [step?, free, List.not_mem_nil, if_false]
    split <;> exact ⟨_, rfl⟩
  · simp only [step?, free, List.not_mem_nil, if_false]
    exact ⟨_, rfl⟩

/-- A call that is carried out is answered, or it asks for the keys that are left. -/
theorem act_answers (store : RecordingStore) (call : Call k) :
    (∃ reply, (store.act call).operation = .answered reply) ∨
      ∃ later : Call k, (store.act call).operation = .asked later ∧ later.keysLeft < call.keysLeft := by
  cases call with
  | containsAll keys =>
    cases keys with
    | nil => exact .inl ⟨_, rfl⟩
    | cons first rest =>
      simp only [act]
      split
      · exact .inr ⟨.containsAll rest, rfl, Nat.lt_succ_self _⟩
      · exact .inl ⟨_, rfl⟩
  | get key =>
    simp only [act]
    split <;> exact .inl ⟨_, rfl⟩
  | _ => exact .inl ⟨_, rfl⟩

theorem attempt_answers (store : RecordingStore) (call : Call k) :
    (∃ reply, (store.attempt call).operation = .answered reply) ∨
      ∃ later : Call k, (store.attempt call).operation = .asked later ∧
        later.keysLeft < call.keysLeft := by
  unfold attempt
  split
  · exact act_answers store call
  · exact .inl ⟨_, rfl⟩

theorem step?_answers {call : Call k} {step : StoreStep RecordingStore k} {operation : Operation k}
    (free : store.heldMethods = []) (asks : operation.Asks call)
    (taken : store.step? operation = some step) :
    (∃ reply, step.operation = .answered reply) ∨
      ∃ later : Call k, step.operation = .asked later ∧ later.keysLeft < call.keysLeft := by
  obtain ⟨next, -, rfl | rfl⟩ := step?_of_free free asks taken
  · exact act_answers next call
  · exact attempt_answers next call

theorem answers_of_asks (now count : Nat) (free : store.heldMethods = []) {call : Call k}
    (bound : call.keysLeft = count) {operation : Operation k} (asks : operation.Asks call) :
    Medium.Answers now store operation := by
  -- asking for several keys, one of them is looked at in each step
  induction count using Nat.strongRecOn generalizing store call operation with
  | ind count ih =>
    obtain ⟨step, htaken⟩ := exists_step? free asks
    refine .step htaken ?_
    rcases step?_answers free asks htaken with ⟨reply, hreply⟩ | ⟨later, hlater, hlt⟩
    · rw [hreply]
      exact .answered
    · exact ih later.keysLeft (bound ▸ hlt) (free_of_step? free htaken) rfl (.inl hlater)

instance : AnsweringMedium RecordingStore where
  Answering store := store.heldMethods = []
  answering free taken := free_of_step? free taken
  answers now free operation := by
    cases operation with
    | asked call => exact answers_of_asks now _ free rfl (.inl rfl)
    | held call => exact answers_of_asks now _ free rfl (.inr rfl)
    | sweeping => exact .step rfl .answered
    | answered => exact .answered

end RecordingStore

namespace Store

def Answering : Store → Prop
  | .expiring store => AnsweringMedium.Answering store
  | .recency store => AnsweringMedium.Answering store
  | .recording store => AnsweringMedium.Answering store

/-- What comes to an answer on a store does so on the store in its wrapping. -/
theorem answers_wrap {σ : Type} [Medium σ] (embed : σ → Store)
    (steps : ∀ {k : ReplyKind} (now : Nat) (store : σ) (operation : Operation k),
      Medium.step? now (embed store) operation = (Medium.step? now store operation).map (wrap embed))
    {k : ReplyKind} {now : Nat} {store : σ} {operation : Operation k}
    (h : Medium.Answers now store operation) : Medium.Answers now (embed store) operation := by
  induction h with
  | answered => exact .answered
  | @step store operation step taken later ih =>
    have htaken : Medium.step? now (embed store) operation = some (wrap embed step) := by
      rw [steps, taken]
      rfl
    exact .step htaken ih

instance : AnsweringMedium Store where
  Answering := Answering
  answering {_ _ store _ _} h taken := by
    cases store <;> obtain ⟨inner, hinner, rfl⟩ := Option.map_eq_some_iff.mp taken <;>
      exact (AnsweringMedium.answering h hinner : AnsweringMedium.Answering inner.store)
  answers {_ store} now h operation := by
    cases store with
    | expiring store => exact answers_wrap .expiring (fun _ _ _ => rfl) (AnsweringMedium.answers now h operation)
    | recency store => exact answers_wrap .recency (fun _ _ _ => rfl) (AnsweringMedium.answers now h operation)
    | recording store =>
      exact answers_wrap .recording (fun _ _ _ => rfl) (AnsweringMedium.answers now h operation)

end Store

/-! ## Jobs -/

namespace JobRun

variable {σ : Type} [Medium σ] {now : Nat} {store : σ}

/-- Taken up again and again at this time, the job comes to its end, or breaks down. -/
inductive Ends (now : Nat) : σ → JobRun → Prop
  | ended {store run} (last : run.isFinished ∨ run.isBroken) : Ends now store run
  | step {store run step} (taken : run.step? now store = some step)
      (later : Ends now step.store step.run) : Ends now store run

theorem answering_of_step? [AnsweringMedium σ] {run : JobRun} {step : JobStep σ}
    (answering : AnsweringMedium.Answering store) (taken : run.step? now store = some step) :
    AnsweringMedium.Answering step.store := by
  rcases step?_cases taken with ⟨job, reply, onFailure, rest, rfl, hstore, -⟩ |
    ⟨job, operation, onFailure, rest, moved, rfl, hmoved, hstore, -⟩
  · rw [hstore]
    exact answering
  · rw [hstore]
    exact AnsweringMedium.answering answering hmoved

theorem ends_of_answered {job : Job} {onFailure : Notice} {rest : List (Call .done × Notice)}
    (reply : Reply .done) (others : (next job rest).Ends now store) :
    (working job (.answered reply) onFailure rest).Ends now store := by
  have hstep : (working job (.answered reply) onFailure rest).step? now store =
      some (receive store job onFailure rest reply) := rfl
  refine .step hstep ?_
  rcases reply with (_ | _) | _
  · exact others
  · exact .ended (.inr rfl)
  · exact others

/-- When the call in progress is answered, the job goes on with the others. -/
theorem ends_of_answers [AnsweringMedium σ] {operation : Operation .done} {job : Job} {onFailure : Notice}
    {rest : List (Call .done × Notice)} (answers : Medium.Answers now store operation)
    (answering : AnsweringMedium.Answering store)
    (others : ∀ store : σ, AnsweringMedium.Answering store → (next job rest).Ends now store) :
    (working job operation onFailure rest).Ends now store := by
  induction answers with
  | answered => exact ends_of_answered _ (others _ answering)
  | @step store operation step taken later ih =>
    cases operation with
    | answered => exact ends_of_answered _ (others _ answering)
    | asked | held | sweeping =>
      exact .step (congrArg (Option.map _) taken) (ih (AnsweringMedium.answering answering taken))

theorem ends_next [AnsweringMedium σ] (job : Job) (rest : List (Call .done × Notice)) (store : σ)
    (answering : AnsweringMedium.Answering store) : (next job rest).Ends now store := by
  induction rest generalizing store with
  | nil => exact .ended (.inl rfl)
  | cons first rest ih => exact ends_of_answers (AnsweringMedium.answers now answering _) answering ih

theorem ends [AnsweringMedium σ] (run : JobRun) (answering : AnsweringMedium.Answering store) :
    run.Ends now store := by
  cases run with
  | working job operation onFailure rest =>
    exact ends_of_answers (AnsweringMedium.answers now answering _) answering fun store =>
      ends_next job rest store
  | finished => exact .ended (.inl rfl)
  | brokeDown => exact .ended (.inr rfl)

end JobRun

end ReadThrough
