import ReadThrough.Proofs.Store.InProcess
import ReadThrough.Store

/-! # All stores are lawful

The recording store keeps the laws of a medium as well, except that it can be told to refuse calls;
it is reliable as long as no refusal is due. A store of any kind is as lawful as the one inside.
-/

namespace ReadThrough
set_option autoImplicit false

/-! ## The recording store -/

namespace RecordingStore

variable {store : RecordingStore} {key value : String} {k : ReplyKind} {call : Call k}

theorem eraseAll_entries (store : RecordingStore) (keys : List String) (key : String) :
    (store.eraseAll keys).entries[key]? = if key ∈ keys then none else store.entries[key]? := by
  induction keys generalizing store with
  | nil => simp [eraseAll]
  | cons first rest ih =>
    have hrest := ih { store with entries := store.entries.erase first }
    rw [Std.TreeMap.getElem?_erase] at hrest
    rw [eraseAll, List.foldl_cons]
    rw [eraseAll] at hrest
    rw [hrest]
    by_cases hr : key ∈ rest
    · simp [hr]
    · by_cases hf : first = key
      · simp [hf]
      · simp [hr, hf, Ne.symm hf]

theorem of_insert {map : Std.TreeMap String String} {entry : Entry}
    (h : (map.insert entry.key entry.value)[key]? = some value) :
    map[key]? = some value ∨ entry = ⟨key, value⟩ := by
  rw [Std.TreeMap.getElem?_insert] at h
  split at h
  · rename_i hkey
    have hkeys : entry.key = key := by simpa using hkey
    have hvalue : entry.value = value := Option.some.inj h
    right
    rw [← hkeys, ← hvalue]
  · exact .inl h

theorem of_insertAll {map : Std.TreeMap String String} {entries : List Entry}
    (h : (entries.foldl (fun map entry => map.insert entry.key entry.value) map)[key]? =
      some value) : map[key]? = some value ∨ ⟨key, value⟩ ∈ entries := by
  induction entries generalizing map with
  | nil => exact .inl h
  | cons entry rest ih =>
    rcases ih h with hmap | hrest
    · rcases of_insert hmap with hold | hentry
      · exact .inl hold
      · exact .inr (hentry ▸ List.mem_cons_self)
    · exact .inr (List.mem_cons_of_mem entry hrest)

theorem act_spec (held : (store.act call).store.entries[key]? = some value) :
    (store.entries[key]? = some value ∨ call.Stores key value) ∧ ¬ call.Deletes key := by
  cases call with
  | init | clear | contains => exact ⟨.inl held, id⟩
  | containsAll keys =>
    refine ⟨.inl ?_, id⟩
    cases keys with
    | nil => exact held
    | cons first rest =>
      simp only [act] at held
      split at held <;> exact held
  | get =>
    refine ⟨.inl ?_, id⟩
    simp only [act] at held
    split at held <;> exact held
  | getAll keys =>
    refine ⟨.inl ?_, id⟩
    simp only [act, slots] at held
    split at held <;> exact held
  | put entry => exact ⟨of_insert held, id⟩
  | putAll entries => exact ⟨of_insertAll held, id⟩
  | delete deleted =>
    simp only [act, StoreStep.answer, Std.TreeMap.getElem?_erase] at held
    split at held
    · cases held
    · rename_i hne
      exact ⟨.inl held, by simpa [Call.Deletes] using hne⟩
  | deleteAll keys =>
    simp only [act, StoreStep.answer, eraseAll_entries] at held
    split at held
    · cases held
    · rename_i hnot
      exact ⟨.inl held, hnot⟩
  | sweep segments =>
    have hfilter : (store.entries.filter fun key _ => !isUnder key segments)[key]? = some value :=
      held
    rw [Std.TreeMap.getElem?_filter'] at hfilter
    obtain ⟨hold, hunder⟩ := Option.filter_eq_some_iff.mp hfilter
    exact ⟨.inl hold, by simpa [Call.Deletes] using hunder⟩

theorem act_not_stores (store : RecordingStore) (call : Call k) :
    ¬ (store.act call).operation.Stores key value := by
  cases call with
  | containsAll keys =>
    cases keys with
    | nil => exact id
    | cons first rest =>
      simp only [act]
      split <;> exact id
  | get =>
    simp only [act]
    split <;> exact id
  | _ => exact id

theorem act_isDeletion (h : call.IsDeletion) (store : RecordingStore) :
    (store.act call).operation.IsDeletion := by
  cases call with
  | delete | deleteAll | sweep => exact ⟨(), rfl⟩
  | _ => exact h.elim

theorem act_instructions (store : RecordingStore) (call : Call k) :
    (store.act call).store.failures = store.failures ∧
      (store.act call).store.heldMethods = store.heldMethods := by
  cases call with
  | containsAll keys =>
    cases keys with
    | nil => exact ⟨rfl, rfl⟩
    | cons first rest =>
      simp only [act]
      split <;> exact ⟨rfl, rfl⟩
  | get =>
    simp only [act]
    split <;> exact ⟨rfl, rfl⟩
  | getAll keys =>
    simp only [act, slots]
    split <;> exact ⟨rfl, rfl⟩
  | _ => exact ⟨rfl, rfl⟩

/-- No call of the store is due to fail. -/
def Reliable (store : RecordingStore) : Prop := ∀ method, store.failures.getD method 0 = 0

/-- What a step makes of a call: it is held back, or fails, or is carried out. -/
inductive Taken (store : RecordingStore) (call : Call k) (step : StoreStep RecordingStore k) : Prop
  | waits (operation : step.operation = .held call) (entries : step.store.entries = store.entries)
      (failures : step.store.failures = store.failures)
  | fails (armed : ¬ store.Reliable) (entries : step.store.entries = store.entries)
      (fault : Fault) (operation : step.operation = .answered (.error fault))
  | acts (next : RecordingStore) (entries : next.entries = store.entries)
      (failures : next.failures = store.failures) (acts : step = next.act call)

theorem taken_of_attempt {next : RecordingStore} (entries : next.entries = store.entries)
    (failures : next.failures = store.failures) : Taken store call (next.attempt call) := by
  unfold attempt
  split
  · exact .acts next entries failures rfl
  · rename_i times harmed
    refine .fails ?_ entries _ rfl
    intro hreliable
    have hnone := hreliable call.method
    rw [← failures, harmed] at hnone
    cases hnone

theorem taken_of_step? {operation : Operation k} {step : StoreStep RecordingStore k}
    (asks : operation.Asks call) (taken : store.step? operation = some step) :
    Taken store call step := by
  rcases asks with rfl | rfl
  · simp only [step?] at taken
    split at taken
    · obtain rfl := Option.some.inj taken
      exact .acts store rfl rfl rfl
    · split at taken
      · obtain rfl := Option.some.inj taken
        exact .waits rfl rfl rfl
      · obtain rfl := Option.some.inj taken
        exact taken_of_attempt rfl rfl
  · simp only [step?] at taken
    split at taken
    · cases taken
    · obtain rfl := Option.some.inj taken
      exact taken_of_attempt rfl rfl

namespace Taken

variable {step : StoreStep RecordingStore k}

theorem of_holds (h : Taken store call step) (held : step.store.entries[key]? = some value) :
    store.entries[key]? = some value ∨ call.Stores key value := by
  cases h with
  | waits operation entries => exact .inl (entries ▸ held)
  | fails armed entries => exact .inl (entries ▸ held)
  | acts next entries failures acts =>
    subst acts
    rw [← entries]
    exact (act_spec held).1

theorem of_stores (h : Taken store call step) (stores : step.operation.Stores key value) :
    call.Stores key value := by
  cases h with
  | waits operation => rwa [operation] at stores
  | fails armed entries fault operation =>
    rw [operation] at stores
    exact stores.elim
  | acts next entries failures acts =>
    subst acts
    exact absurd stores (act_not_stores next call)

theorem deletes (h : Taken store call step) (reliable : store.Reliable) (deletes : call.Deletes key)
    (held : step.store.entries[key]? = some value) : step.operation.Deletes key := by
  cases h with
  | waits operation =>
    rw [operation]
    exact deletes
  | fails armed => exact absurd reliable armed
  | acts next entries failures acts =>
    subst acts
    exact absurd deletes (act_spec held).2

theorem isDeletion (h : Taken store call step) (reliable : store.Reliable)
    (deletion : call.IsDeletion) : step.operation.IsDeletion := by
  cases h with
  | waits operation =>
    rw [operation]
    exact deletion
  | fails armed => exact absurd reliable armed
  | acts next entries failures acts =>
    subst acts
    exact act_isDeletion deletion next

theorem reliable (h : Taken store call step) (reliable : store.Reliable) : step.store.Reliable := by
  cases h with
  | waits operation entries failures =>
    rw [Reliable, failures]
    exact reliable
  | fails armed => exact absurd reliable armed
  | acts next entries failures acts =>
    subst acts
    rw [Reliable, (act_instructions next call).1, failures]
    exact reliable

end Taken

instance : LawfulMedium RecordingStore where
  Holds store _ key value := store.entries[key]? = some value
  Reliable := Reliable
  holds_earlier _ held := held
  of_holds {_ _ _ operation} _ _ _ taken held := by
    cases operation with
    | asked call => exact (taken_of_step? (.inl rfl) taken).of_holds held
    | held call => exact (taken_of_step? (.inr rfl) taken).of_holds held
    | sweeping rest =>
      obtain rfl := Option.some.inj taken
      simp only [StoreStep.answer, eraseAll_entries] at held
      split at held
      · cases held
      · exact .inl held
    | answered => cases taken
  of_stores {_ _ _ operation} _ _ _ taken stores := by
    cases operation with
    | asked call => exact (taken_of_step? (.inl rfl) taken).of_stores stores
    | held call => exact (taken_of_step? (.inr rfl) taken).of_stores stores
    | sweeping rest =>
      obtain rfl := Option.some.inj taken
      exact stores.elim
    | answered => cases taken
  deletes {_ _ _ operation} _ _ _ reliable taken deletes held := by
    cases operation with
    | asked call => exact (taken_of_step? (.inl rfl) taken).deletes reliable deletes held
    | held call => exact (taken_of_step? (.inr rfl) taken).deletes reliable deletes held
    | sweeping rest =>
      obtain rfl := Option.some.inj taken
      simp only [StoreStep.answer, eraseAll_entries] at held
      split at held
      · cases held
      · rename_i hnot
        exact absurd deletes hnot
    | answered => cases taken
  isDeletion {_ _ _ operation} _ reliable taken deletion := by
    cases operation with
    | asked call => exact (taken_of_step? (.inl rfl) taken).isDeletion reliable deletion
    | held call => exact (taken_of_step? (.inr rfl) taken).isDeletion reliable deletion
    | sweeping rest =>
      obtain rfl := Option.some.inj taken
      exact ⟨(), rfl⟩
    | answered => cases taken
  reliable {_ _ _ operation} _ reliable taken := by
    cases operation with
    | asked call => exact (taken_of_step? (.inl rfl) taken).reliable reliable
    | held call => exact (taken_of_step? (.inr rfl) taken).reliable reliable
    | sweeping rest =>
      obtain rfl := Option.some.inj taken
      exact reliable
    | answered => cases taken
  get {_ store _ _ key} asks taken := by
    cases taken_of_step? asks taken with
    | waits operation => exact .inl (.inr operation)
    | fails armed entries fault operation =>
      exact .inr ⟨_, operation, fun value hvalue => by cases hvalue⟩
    | acts next entries failures acts =>
      subst acts
      right
      rw [← entries]
      simp only [act]
      split
      · rename_i found hfound
        exact ⟨_, rfl, fun value hvalue => hfound.trans (congrArg some (Except.ok.inj hvalue))⟩
      · exact ⟨_, rfl, fun value hvalue => by cases hvalue⟩
  getAll {_ store _ _ keys} asks taken := by
    cases taken_of_step? asks taken with
    | waits operation => exact .inl (.inr operation)
    | fails armed entries fault operation =>
      exact .inr ⟨_, operation, fun value hvalue => by cases hvalue⟩
    | acts next entries failures acts =>
      subst acts
      right
      refine ⟨.ok (next.slots keys).2, rfl, ?_⟩
      intro slots hslots i value hslot
      have hlooked : (keys.map fun key => next.entries[key]?)[i]? = some (some value) := by
        rw [← Except.ok.inj hslots] at hslot
        simp only [RecordingStore.slots] at hslot
        split at hslot
        · rw [List.getElem?_dropLast] at hslot
          split at hslot
          · exact hslot
          · cases hslot
        · exact hslot
      rw [List.getElem?_map, Option.map_eq_some_iff, entries] at hlooked
      exact hlooked

end RecordingStore

/-! ## Stores of any kind -/

namespace Store

def Holds : Store → Nat → String → String → Prop
  | .expiring store => LawfulMedium.Holds store
  | .recency store => LawfulMedium.Holds store
  | .recording store => LawfulMedium.Holds store

def Reliable : Store → Prop
  | .expiring store => LawfulMedium.Reliable store
  | .recency store => LawfulMedium.Reliable store
  | .recording store => LawfulMedium.Reliable store

instance : LawfulMedium Store where
  Holds := Holds
  Reliable := Reliable
  holds_earlier {store} _ _ _ _ h held := by
    cases store <;> exact LawfulMedium.holds_earlier h held
  of_holds {_ _ store _} _ _ _ taken held := by
    cases store <;> obtain ⟨inner, hinner, rfl⟩ := Option.map_eq_some_iff.mp taken <;>
      exact LawfulMedium.of_holds hinner held
  of_stores {_ _ store _} _ _ _ taken stores := by
    cases store <;> obtain ⟨inner, hinner, rfl⟩ := Option.map_eq_some_iff.mp taken <;>
      exact LawfulMedium.of_stores hinner stores
  deletes {_ _ store _} _ _ _ reliable taken deletes held := by
    cases store <;> obtain ⟨inner, hinner, rfl⟩ := Option.map_eq_some_iff.mp taken <;>
      exact (LawfulMedium.deletes reliable hinner deletes held : inner.operation.Deletes _)
  isDeletion {_ _ store _} _ reliable taken deletion := by
    cases store <;> obtain ⟨inner, hinner, rfl⟩ := Option.map_eq_some_iff.mp taken <;>
      exact (LawfulMedium.isDeletion reliable hinner deletion : inner.operation.IsDeletion)
  reliable {_ _ store _} _ reliable taken := by
    cases store <;> obtain ⟨inner, hinner, rfl⟩ := Option.map_eq_some_iff.mp taken <;>
      exact LawfulMedium.reliable reliable hinner
  get {_ store _ _ _} asks taken := by
    cases store <;> obtain ⟨inner, hinner, rfl⟩ := Option.map_eq_some_iff.mp taken <;>
      exact LawfulMedium.get asks hinner
  getAll {_ store _ _ _} asks taken := by
    cases store <;> obtain ⟨inner, hinner, rfl⟩ := Option.map_eq_some_iff.mp taken <;>
      exact LawfulMedium.getAll asks hinner

end Store

end ReadThrough
