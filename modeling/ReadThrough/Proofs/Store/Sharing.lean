import ReadThrough.Proofs.Store.Dependable

/-! # Stores that can be shared

What an operation on a map does, and what it answers, depends on the entries under the keys it concerns, and
it leaves all others alone.

* `Operation.Concerns` says that an operation has to do with keys of a certain kind only; on a `KeyedMedium`,
  and that is every store here, an operation never comes to concern others;
* `LawfulMedium.Agree` compares two stores by what they hold under these keys;
* `SharedMedium` lists the laws of a medium on which each operation minds its own keys; the recording store
  keeps them, when it has no instructions;
* `JobRun.Concerns` are the jobs all of whose calls concern such keys.
-/

namespace ReadThrough
set_option autoImplicit false

/-! ## What an operation concerns -/

/-- The call asks about, stores and deletes only keys of this kind. Setting up and clearing concern the
store as a whole. -/
def Call.Concerns {k : ReplyKind} (call : Call k) (Own : String → Prop) : Prop :=
  match call with
  | .init _ | .clear => False
  | .contains key | .get key | .delete key => Own key
  | .containsAll keys | .getAll keys | .deleteAll keys => ∀ key ∈ keys, Own key
  | .put entry => Own entry.key
  | .putAll entries => ∀ entry ∈ entries, Own entry.key
  | .sweep segments => ∀ key, isUnder key segments → Own key

def Operation.Concerns {k : ReplyKind} (operation : Operation k) (Own : String → Prop) : Prop :=
  match operation with
  | .asked call | .held call => call.Concerns Own
  | .sweeping rest => ∀ key ∈ rest, Own key
  | .answered _ => True

namespace Operation

variable {k : ReplyKind} {operation : Operation k} {Own : String → Prop} {key value : String}

theorem Concerns.of_stores (h : operation.Concerns Own) (stores : operation.Stores key value) :
    Own key := by
  have hcall : ∀ call : Call k, call.Concerns Own → call.Stores key value → Own key := by
    intro call hconcerns hstores
    cases call with
    | put entry =>
      obtain rfl : entry = ⟨key, value⟩ := hstores
      exact hconcerns
    | putAll entries => exact hconcerns _ hstores
    | _ => exact hstores.elim
  cases operation with
  | asked call | held call => exact hcall call h stores
  | sweeping | answered => exact stores.elim

theorem Concerns.of_deletes (h : operation.Concerns Own) (deletes : operation.Deletes key) :
    Own key := by
  have hcall : ∀ call : Call k, call.Concerns Own → call.Deletes key → Own key := by
    intro call hconcerns hdeletes
    cases call with
    | delete deleted =>
      obtain rfl : deleted = key := hdeletes
      exact hconcerns
    | deleteAll keys => exact hconcerns key hdeletes
    | sweep segments => exact hconcerns key hdeletes
    | _ => exact hdeletes.elim
  cases operation with
  | asked call | held call => exact hcall call h deletes
  | sweeping rest => exact h key deletes
  | answered => exact deletes.elim

end Operation

theorem Call.Concerns.mono {k : ReplyKind} {call : Call k} {Own Own' : String → Prop}
    (h : call.Concerns Own) (imp : ∀ key, Own key → Own' key) : call.Concerns Own' := by
  cases call with
  | init | clear => exact h
  | contains key | get key | delete key => exact imp key h
  | put entry => exact imp entry.key h
  | containsAll keys | getAll keys | deleteAll keys => exact fun key hkey => imp key (h key hkey)
  | putAll entries => exact fun entry hentry => imp entry.key (h entry hentry)
  | sweep segments => exact fun key under => imp key (h key under)

theorem Operation.Concerns.mono {k : ReplyKind} {operation : Operation k} {Own Own' : String → Prop}
    (h : operation.Concerns Own) (imp : ∀ key, Own key → Own' key) : operation.Concerns Own' := by
  cases operation with
  | asked call | held call => exact Call.Concerns.mono h imp
  | sweeping rest => exact fun key hkey => imp key (h key hkey)
  | answered => trivial

/-! ## Operations that keep to their keys -/

/-- On this store, at this time, what is left of an operation after a step concerns no other keys. -/
def Medium.KeepsKeys {σ : Type} [Medium σ] (now : Nat) (store : σ) : Prop :=
  ∀ {Own : String → Prop} {k : ReplyKind} {operation : Operation k} {step : StoreStep σ k},
    operation.Concerns Own → Medium.step? now store operation = some step → step.operation.Concerns Own

/-- A medium on which an operation keeps to its keys. -/
class KeyedMedium (σ : Type) [Medium σ] : Prop where
  keepsKeys (now : Nat) (store : σ) : Medium.KeepsKeys now store

theorem Operation.afterPortion_concerns {Own : String → Prop} {keys : List String} (own : ∀ key ∈ keys, Own key) :
    (afterPortion keys).Concerns Own := by
  cases keys with
  | nil => trivial
  | cons first rest => exact fun key hkey => own key (List.mem_of_mem_drop hkey)

/-- For a store that carries calls out in one go, and sweeps in portions, it is enough to look at a call. -/
theorem InOneGo.keyed {σ : Type} [Medium σ] (s : InOneGo σ)
    (start : ∀ {Own : String → Prop} {k : ReplyKind} {store : σ} {now : Nat} {call : Call k},
      call.Concerns Own → (s.start store now call).operation.Concerns Own)
    (sweepOn_operation : ∀ (store : σ) (keys : List String),
      (s.sweepOn store keys).operation = .afterPortion keys) : KeyedMedium σ := by
  constructor
  intro now store Own k operation step own taken
  cases operation with
  | asked call => exact s.eq_start (.inl rfl) taken ▸ start own
  | held call => exact s.eq_start (.inr rfl) taken ▸ start own
  | sweeping rest =>
    rw [s.eq_sweepOn taken, sweepOn_operation]
    exact Operation.afterPortion_concerns own
  | answered => exact absurd taken s.ne_answered

namespace ExpiringStore

instance : KeyedMedium ExpiringStore :=
  inOneGo.keyed
    (by
      intro Own k store now call own
      cases call with
      | sweep segments =>
        simp only [inOneGo, start, sweepOn_operation]
        exact Operation.afterPortion_concerns fun key hkey => own key (mem_sweepKeys.mp hkey).1
      | init | clear => exact own.elim
      | get =>
        simp only [inOneGo, start]
        split <;> trivial
      | _ => trivial)
    sweepOn_operation

end ExpiringStore

namespace RecencyStore

instance : KeyedMedium RecencyStore :=
  inOneGo.keyed
    (by
      intro Own k store now call own
      cases call with
      | sweep segments =>
        simp only [inOneGo, start, sweepOn_operation]
        exact Operation.afterPortion_concerns fun key hkey => own key (mem_sweepKeys.mp hkey).1
      | init | clear => exact own.elim
      | get =>
        simp only [inOneGo, start]
        split <;> trivial
      | _ => trivial)
    sweepOn_operation

end RecencyStore

/-! ## Stores compared -/

/-- The two stores hold the same under all keys of this kind. -/
def LawfulMedium.Agree {σ : Type} [Medium σ] [LawfulMedium σ] (Own : String → Prop) (now : Nat)
    (store store' : σ) : Prop :=
  ∀ key, Own key → ∀ value, Holds store now key value ↔ Holds store' now key value

/-- A medium on which each operation minds its own keys, as long as it is faithful: it never fails, and
forgets nothing. -/
class SharedMedium (σ : Type) [Medium σ] [LawfulMedium σ] [MapMedium σ] where
  Faithful : σ → Prop
  dependable {store : σ} (h : Faithful store) : MapMedium.Dependable store
  faithful {k : ReplyKind} {now : Nat} {store : σ} {operation : Operation k} {step : StoreStep σ k}
    (h : Faithful store) (taken : Medium.step? now store operation = some step) : Faithful step.store
  concerns {Own : String → Prop} {k : ReplyKind} {now : Nat} {store : σ} {operation : Operation k}
    {step : StoreStep σ k} (h : Faithful store) (own : operation.Concerns Own)
    (taken : Medium.step? now store operation = some step) : step.operation.Concerns Own
  /-- Stores that hold the same under the keys of an operation take the same step. -/
  same {Own : String → Prop} {k : ReplyKind} {now : Nat} {store store' : σ} {operation : Operation k}
    {step : StoreStep σ k} (h : Faithful store) (h' : Faithful store') (own : operation.Concerns Own)
    (agree : LawfulMedium.Agree Own now store store')
    (taken : Medium.step? now store operation = some step) :
    ∃ step', Medium.step? now store' operation = some step' ∧ step'.operation = step.operation ∧
      LawfulMedium.Agree Own now step.store step'.store

theorem SharedMedium.keepsKeys {σ : Type} [Medium σ] [LawfulMedium σ] [MapMedium σ] [SharedMedium σ]
    {now : Nat} {store : σ} (faithful : Faithful store) : Medium.KeepsKeys now store :=
  fun own taken => SharedMedium.concerns faithful own taken

namespace LawfulMedium

variable {σ : Type} [Medium σ] [LawfulMedium σ] {Own Other : String → Prop} {now later : Nat}
  {store store' store'' : σ}

theorem Agree.refl (Own : String → Prop) (now : Nat) (store : σ) : Agree Own now store store :=
  fun _ _ _ => .rfl

theorem Agree.symm (h : Agree Own now store store') : Agree Own now store' store :=
  fun key own value => (h key own value).symm

theorem Agree.trans (h : Agree Own now store store') (h' : Agree Own now store' store'') :
    Agree Own now store store'' :=
  fun key own value => (h key own value).trans (h' key own value)

variable [MapMedium σ]

theorem Agree.wait (h : Agree Own now store store') (dependable : MapMedium.Dependable store)
    (dependable' : MapMedium.Dependable store') : Agree Own later store store' := by
  intro key own value
  calc LawfulMedium.Holds store later key value
    _ ↔ LawfulMedium.Holds store now key value := MapMedium.timeless_iff dependable
    _ ↔ LawfulMedium.Holds store' now key value := h key own value
    _ ↔ LawfulMedium.Holds store' later key value := MapMedium.timeless_iff dependable'

/-- What an operation does not concern is the same after its step. -/
theorem agree_of_step {k : ReplyKind} {operation : Operation k} {step : StoreStep σ k}
    (dependable : MapMedium.Dependable store) (own : operation.Concerns Other)
    (apart : ∀ key, Own key → ¬ Other key)
    (taken : Medium.step? now store operation = some step) : Agree Own now step.store store := by
  intro key hown value
  constructor
  · intro held
    rcases LawfulMedium.of_holds taken held with hbefore | hstores
    · exact hbefore
    · exact absurd (own.of_stores hstores) (apart key hown)
  · intro held
    apply MapMedium.keeps dependable taken held
    · intro other hstores
      exact apart key hown (own.of_stores hstores)
    · intro hdeletes
      exact apart key hown (own.of_deletes hdeletes)

end LawfulMedium

/-! ## Jobs -/

namespace JobRun

/-- All calls of the job, the one in progress and those to come, concern only keys of this kind. -/
def Concerns (run : JobRun) (Own : String → Prop) : Prop :=
  match run with
  | .working _ operation _ rest => operation.Concerns Own ∧ ∀ later ∈ rest, later.1.Concerns Own
  | .finished | .brokeDown => True

theorem Concerns.mono {run : JobRun} {Own Own' : String → Prop} (h : run.Concerns Own)
    (imp : ∀ key, Own key → Own' key) : run.Concerns Own' := by
  cases run with
  | working => exact ⟨h.1.mono imp, fun later hlater => (h.2 later hlater).mono imp⟩
  | finished | brokeDown => trivial

theorem next_concerns {Own : String → Prop} {job : Job} {rest : List (Call .done × Notice)} :
    (next job rest).Concerns Own ↔ ∀ later ∈ rest, later.1.Concerns Own := by
  cases rest <;> simp [next, Concerns, Operation.Concerns]

theorem start_concerns {Own : String → Prop} {job : Job} :
    (start job).Concerns Own ↔ ∀ step ∈ job.steps, step.1.Concerns Own := next_concerns

theorem step_concerns {σ : Type} [Medium σ] {Own : String → Prop} {now : Nat} {store : σ} {run : JobRun}
    {step : JobStep σ} (keeps : Medium.KeepsKeys now store) (own : run.Concerns Own)
    (taken : run.step? now store = some step) : step.run.Concerns Own := by
  rcases step?_cases taken with ⟨job, reply, onFailure, rest, rfl, -, hnext | ⟨-, hbroken⟩⟩ |
    ⟨job, operation, onFailure, rest, moved, rfl, hmoved, -, hrun⟩
  · rw [hnext, next_concerns]
    exact own.2
  · rw [hbroken]
    trivial
  · rw [hrun]
    exact ⟨keeps own.1 hmoved, own.2⟩

end JobRun

/-! ## The recording store -/

namespace RecordingStore

variable {store store' : RecordingStore} {Own : String → Prop} {k : ReplyKind} {call : Call k}

/-- The store has no instructions to fail calls, to hold them back, or to shorten its answers. -/
structure Faithful (store : RecordingStore) : Prop extends store.Dependable where
  whole : store.shortAnswers = 0

/-- The two stores have the same entries under all keys of this kind. -/
def AgreeOn (Own : String → Prop) (store store' : RecordingStore) : Prop :=
  ∀ key, Own key → store.entries[key]? = store'.entries[key]?

theorem agreeOn_iff {now : Nat} :
    AgreeOn Own store store' ↔ LawfulMedium.Agree Own now store store' := by
  constructor
  · intro h key own value
    change store.entries[key]? = some value ↔ store'.entries[key]? = some value
    rw [h key own]
  · intro h key own
    exact Option.ext fun value => h key own value

theorem AgreeOn.contains (h : AgreeOn Own store store') {key : String} (own : Own key) :
    store.entries.contains key = store'.entries.contains key := by
  rw [Std.TreeMap.contains_eq_isSome_getElem?, Std.TreeMap.contains_eq_isSome_getElem?, h key own]

theorem slots_of_whole (whole : store.shortAnswers = 0) (keys : List String) :
    store.slots keys = (store, keys.map fun key => store.entries[key]?) := by
  simp [slots, whole]

theorem AgreeOn.insert (h : AgreeOn Own store store') (entry : Entry) :
    AgreeOn Own { store with entries := store.entries.insert entry.key entry.value }
      { store' with entries := store'.entries.insert entry.key entry.value } := by
  intro key own
  simp only [Std.TreeMap.getElem?_insert, h key own]

theorem AgreeOn.insertAll (h : AgreeOn Own store store') (entries : List Entry) :
    AgreeOn Own
      { store with entries :=
          entries.foldl (fun map entry => map.insert entry.key entry.value) store.entries }
      { store' with entries :=
          entries.foldl (fun map entry => map.insert entry.key entry.value) store'.entries } := by
  induction entries generalizing store store' with
  | nil => exact h
  | cons entry rest ih => exact ih (h.insert entry)

theorem AgreeOn.eraseAll (h : AgreeOn Own store store') (keys : List String) :
    AgreeOn Own (store.eraseAll keys) (store'.eraseAll keys) := by
  intro key own
  rw [eraseAll_entries, eraseAll_entries, h key own]

theorem AgreeOn.sweep (h : AgreeOn Own store store') (segments : String) :
    AgreeOn Own { store with entries := store.entries.filter fun key _ => !isUnder key segments }
      { store' with entries := store'.entries.filter fun key _ => !isUnder key segments } := by
  intro key own
  simp only [Std.TreeMap.getElem?_filter', h key own]

/-- Calls are carried out alike, if they concern keys under which the stores have the same entries. -/
theorem act_same (whole : store.shortAnswers = 0) (whole' : store'.shortAnswers = 0)
    (own : call.Concerns Own) (agree : AgreeOn Own store store') :
    (store'.act call).operation = (store.act call).operation ∧
      AgreeOn Own (store.act call).store (store'.act call).store := by
  cases call with
  | init | clear => exact own.elim
  | contains key =>
    refine ⟨?_, agree⟩
    simp only [act, StoreStep.answer, agree.contains own]
  | containsAll keys =>
    cases keys with
    | nil => exact ⟨rfl, agree⟩
    | cons first rest =>
      have hfirst := agree.contains (own first List.mem_cons_self)
      simp only [act, hfirst]
      split <;> exact ⟨rfl, agree⟩
  | get key =>
    simp only [act, agree key own]
    split <;> exact ⟨rfl, agree⟩
  | getAll keys =>
    have hvalues : (keys.map fun key => store'.entries[key]?) =
        keys.map fun key => store.entries[key]? :=
      List.map_congr_left fun key hkey => (agree key (own key hkey)).symm
    simp only [act, slots_of_whole whole, slots_of_whole whole', StoreStep.answer, hvalues]
    exact ⟨trivial, agree⟩
  | put entry => exact ⟨rfl, agree.insert entry⟩
  | putAll entries => exact ⟨rfl, agree.insertAll entries⟩
  | delete key => exact ⟨rfl, agree.eraseAll [key]⟩
  | deleteAll keys => exact ⟨rfl, agree.eraseAll keys⟩
  | sweep segments => exact ⟨rfl, agree.sweep segments⟩

theorem act_concerns (own : call.Concerns Own) (store : RecordingStore) :
    (store.act call).operation.Concerns Own := by
  cases call with
  | containsAll keys =>
    cases keys with
    | nil => trivial
    | cons first rest =>
      simp only [act]
      split
      · exact fun key hkey => own key (List.mem_cons_of_mem first hkey)
      · trivial
  | get key =>
    simp only [act]
    split <;> trivial
  | _ => trivial

theorem act_shortAnswers (whole : store.shortAnswers = 0) (call : Call k) :
    (store.act call).store.shortAnswers = 0 := by
  cases call with
  | containsAll keys =>
    cases keys with
    | nil => exact whole
    | cons first rest =>
      simp only [act]
      split <;> exact whole
  | get key =>
    simp only [act]
    split <;> exact whole
  | getAll keys =>
    simp only [act, slots_of_whole whole]
    exact whole
  | _ => exact whole

/-- A faithful store carries every call out at once. -/
theorem Faithful.step?_asks (h : store.Faithful) {operation : Operation k} (asks : operation.Asks call) :
    ∃ next : RecordingStore, next.entries = store.entries ∧ next.Faithful ∧
      store.step? operation = some (next.act call) := by
  obtain ⟨log, htaken⟩ := h.toDependable.step?_eq asks
  exact ⟨{ store with log := log }, rfl, ⟨⟨h.reliable, h.free⟩, h.whole⟩, htaken⟩

theorem Faithful.step (h : store.Faithful) {operation : Operation k} {step : StoreStep RecordingStore k}
    (taken : store.step? operation = some step) : step.store.Faithful := by
  have hasks : ∀ call, operation.Asks call → step.store.Faithful := by
    intro call asks
    obtain ⟨next, -, hnext, htaken⟩ := h.step?_asks asks
    obtain rfl := Option.some.inj (taken.symm.trans htaken)
    exact ⟨hnext.toDependable.act call, act_shortAnswers hnext.whole call⟩
  cases operation with
  | asked call => exact hasks call (.inl rfl)
  | held call => exact hasks call (.inr rfl)
  | sweeping rest =>
    obtain rfl := Option.some.inj taken
    exact ⟨⟨h.reliable, h.free⟩, h.whole⟩
  | answered => cases taken

/-- Faithful stores take the same step of an operation, if they have the same entries under its keys. -/
theorem Faithful.same (h : store.Faithful) (h' : store'.Faithful) {operation : Operation k}
    {step : StoreStep RecordingStore k} (own : operation.Concerns Own) (agree : AgreeOn Own store store')
    (taken : store.step? operation = some step) :
    ∃ step', store'.step? operation = some step' ∧ step'.operation = step.operation ∧
      AgreeOn Own step.store step'.store := by
  have hasks : ∀ call, operation.Asks call → call.Concerns Own →
      ∃ step', store'.step? operation = some step' ∧ step'.operation = step.operation ∧
        AgreeOn Own step.store step'.store := by
    intro call asks concerns
    obtain ⟨next, hentries, hnext, htaken⟩ := h.step?_asks asks
    obtain ⟨next', hentries', hnext', htaken'⟩ := h'.step?_asks asks
    obtain rfl := Option.some.inj (taken.symm.trans htaken)
    have hagree : AgreeOn Own next next' := by
      intro key hown
      rw [hentries, hentries', agree key hown]
    exact ⟨_, htaken', act_same hnext.whole hnext'.whole concerns hagree⟩
  cases operation with
  | asked call => exact hasks call (.inl rfl) own
  | held call => exact hasks call (.inr rfl) own
  | sweeping rest =>
    obtain rfl := Option.some.inj taken
    exact ⟨_, rfl, rfl, agree.eraseAll rest⟩
  | answered => cases taken

theorem attempt_concerns (own : call.Concerns Own) (store : RecordingStore) :
    (store.attempt call).operation.Concerns Own := by
  unfold attempt
  split
  · exact act_concerns own store
  · trivial

instance : KeyedMedium RecordingStore where
  keepsKeys now store := by
    intro Own k operation step own taken
    cases operation with
    | asked call =>
      simp only [Medium.step?, step?] at taken
      split at taken
      · obtain rfl := Option.some.inj taken
        exact act_concerns own store
      · split at taken
        · obtain rfl := Option.some.inj taken
          exact own
        · obtain rfl := Option.some.inj taken
          exact attempt_concerns own _
    | held call =>
      simp only [Medium.step?, step?] at taken
      split at taken
      · cases taken
      · obtain rfl := Option.some.inj taken
        exact attempt_concerns own store
    | sweeping rest =>
      obtain rfl := Option.some.inj taken
      trivial
    | answered => cases taken

instance : SharedMedium RecordingStore where
  Faithful := Faithful
  dependable h := h.toDependable
  faithful h taken := h.step taken
  concerns _ own taken := KeyedMedium.keepsKeys _ _ own taken
  same h h' own agree taken := by
    obtain ⟨step', htaken, hoperation, hagree⟩ := h.same h' own (agreeOn_iff.mpr agree) taken
    exact ⟨step', htaken, hoperation, agreeOn_iff.mp hagree⟩

end RecordingStore

/-! ## Stores of any kind -/

namespace Store

/-- The in-process stores are not faithful: the one drops entries in time, the other for want of space. -/
def Faithful : Store → Prop
  | .expiring _ | .recency _ => False
  | .recording store => SharedMedium.Faithful store

theorem Faithful.recorded {store : Store} (h : store.Faithful) :
    ∃ inner : RecordingStore, store = .recording inner ∧ SharedMedium.Faithful inner := by
  cases store with
  | expiring | recency => exact h.elim
  | recording inner => exact ⟨inner, rfl, h⟩

instance : KeyedMedium Store where
  keepsKeys now store := by
    intro Own k operation step own taken
    cases store <;> obtain ⟨inner, hinner, rfl⟩ := Option.map_eq_some_iff.mp taken <;>
      exact (KeyedMedium.keepsKeys now _ own hinner : inner.operation.Concerns Own)

instance : SharedMedium Store where
  Faithful := Faithful
  dependable h := by
    obtain ⟨inner, rfl, hinner⟩ := h.recorded
    have hdependable := SharedMedium.dependable hinner
    exact hdependable
  faithful h taken := by
    obtain ⟨inner, rfl, hinner⟩ := h.recorded
    obtain ⟨step, hstep, rfl⟩ := Option.map_eq_some_iff.mp taken
    have hnext := SharedMedium.faithful hinner hstep
    exact hnext
  concerns _ own taken := KeyedMedium.keepsKeys _ _ own taken
  same {Own _ now _ _ _ _} h h' own agree taken := by
    obtain ⟨inner, rfl, hinner⟩ := h.recorded
    obtain ⟨inner', rfl, hinner'⟩ := h'.recorded
    obtain ⟨step, hstep, rfl⟩ := Option.map_eq_some_iff.mp taken
    have hagree : LawfulMedium.Agree Own now inner inner' := agree
    obtain ⟨step', hstep', hoperation, hafter⟩ :=
      SharedMedium.same hinner hinner' own hagree hstep
    exact ⟨wrap .recording step', congrArg (Option.map _) hstep', hoperation, hafter⟩

end Store

end ReadThrough
