import ReadThrough.Proofs.Store.Laws
import ReadThrough.Store.Expiring
import ReadThrough.Store.Recency

/-! # The in-process stores are lawful

Both in-process stores carry a call out in one step, except that a sweep deletes its keys in
portions, and both never refuse to delete.

* `InOneGo` is what the two have in common, and `InOneGo.lawful` the laws that follow;
* the rest reads off the operations of each store what they keep, add and delete.
-/

namespace ReadThrough
set_option autoImplicit false

/-! ## Sweeps in portions -/

/-- What a sweep of these keys still has to do after its next portion. -/
def Operation.afterPortion (keys : List String) : Operation .done :=
  match keys with
  | [] => .answered (.ok ())
  | _ => .sweeping (keys.drop sweepPortion)

namespace Operation

theorem afterPortion_isDeletion (keys : List String) : (afterPortion keys).IsDeletion := by
  cases keys with
  | nil => exact ⟨(), rfl⟩
  | cons => trivial

theorem mem_of_afterPortion_deletes {keys : List String} {key : String} (h : (afterPortion keys).Deletes key) :
    key ∈ keys := by
  cases keys with
  | nil => exact h.elim
  | cons => exact List.mem_of_mem_drop h

/-- What is not in the next portion is left to later ones. -/
theorem afterPortion_deletes {keys : List String} {key : String} (mem : key ∈ keys)
    (left : key ∉ keys.take sweepPortion) : (afterPortion keys).Deletes key := by
  cases keys with
  | nil => cases mem
  | cons first rest =>
    rw [← List.take_append_drop sweepPortion (first :: rest), List.mem_append] at mem
    exact mem.resolve_left left

end Operation

/-! ## Stores that carry a call out in one go -/

/-- A store that carries each call out in one step, except that a sweep leaves keys to later steps;
and it never refuses to delete. -/
structure InOneGo (σ : Type) [Medium σ] where
  Holds : σ → Nat → String → String → Prop
  start {k : ReplyKind} : σ → Nat → Call k → StoreStep σ k
  sweepOn : σ → List String → StoreStep σ .done
  step_asks {k : ReplyKind} {now : Nat} {store : σ} {operation : Operation k} {call : Call k}
    (asks : operation.Asks call) : Medium.step? now store operation = some (start store now call)
  step_sweeping {now : Nat} {store : σ} {rest : List String} :
    Medium.step? now store (.sweeping rest) = some (sweepOn store rest)
  step_answered {k : ReplyKind} {now : Nat} {store : σ} {reply : Reply k} :
    Medium.step? now store (.answered reply) = none
  holds_earlier {store : σ} {now later : Nat} {key value : String} (h : now ≤ later)
    (held : Holds store later key value) : Holds store now key value
  start_spec {k : ReplyKind} {store : σ} {now : Nat} {call : Call k} {key value : String}
    (held : Holds (start store now call).store now key value) :
    (Holds store now key value ∨ call.Stores key value) ∧
      (call.Deletes key → (start store now call).operation.Deletes key)
  start_not_stores {k : ReplyKind} {store : σ} {now : Nat} {call : Call k} {key value : String} :
    ¬ (start store now call).operation.Stores key value
  start_isDeletion {k : ReplyKind} {store : σ} {now : Nat} {call : Call k}
    (h : call.IsDeletion) : (start store now call).operation.IsDeletion
  sweepOn_spec {store : σ} {now : Nat} {keys : List String} {key value : String}
    (held : Holds (sweepOn store keys).store now key value) :
    Holds store now key value ∧ (key ∈ keys → (sweepOn store keys).operation.Deletes key)
  sweepOn_isDeletion {store : σ} {keys : List String} :
    (sweepOn store keys).operation.IsDeletion
  get {store : σ} {now : Nat} {key : String} :
    ∃ reply, (start store now (.get key)).operation = .answered reply ∧
      ∀ value, reply = .ok value → Holds store now key value
  getAll {store : σ} {now : Nat} {keys : List String} :
    ∃ reply, (start store now (.getAll keys)).operation = .answered reply ∧
      ∀ slots, reply = .ok slots → ∀ (i : Nat) value, slots[i]? = some (some value) →
        ∃ key, keys[i]? = some key ∧ Holds store now key value

namespace InOneGo

variable {σ : Type} [Medium σ] {now : Nat} {store : σ}

theorem eq_start (s : InOneGo σ) {k : ReplyKind} {operation : Operation k} {step : StoreStep σ k}
    {call : Call k} (asks : operation.Asks call)
    (taken : Medium.step? now store operation = some step) : step = s.start store now call :=
  Option.some.inj (taken.symm.trans (s.step_asks asks))

theorem eq_sweepOn (s : InOneGo σ) {rest : List String} {step : StoreStep σ .done}
    (taken : Medium.step? now store (.sweeping rest) = some step) : step = s.sweepOn store rest :=
  Option.some.inj (taken.symm.trans s.step_sweeping)

theorem ne_answered (s : InOneGo σ) {k : ReplyKind} {reply : Reply k} {step : StoreStep σ k} :
    Medium.step? now store (.answered reply) ≠ some step := by
  rw [s.step_answered]
  simp

@[reducible] def lawful (s : InOneGo σ) : LawfulMedium σ where
  Holds := s.Holds
  Reliable _ := True
  holds_earlier := s.holds_earlier
  of_holds {_ _ _ operation} _ _ _ taken held := by
    cases operation with
    | asked call => exact (s.start_spec (s.eq_start (.inl rfl) taken ▸ held)).1
    | held call => exact (s.start_spec (s.eq_start (.inr rfl) taken ▸ held)).1
    | sweeping rest => exact .inl (s.sweepOn_spec (s.eq_sweepOn taken ▸ held)).1
    | answered => exact absurd taken s.ne_answered
  of_stores {_ _ store operation} _ _ _ taken stores := by
    cases operation with
    | asked call => exact absurd (s.eq_start (.inl rfl) taken ▸ stores) s.start_not_stores
    | held call => exact absurd (s.eq_start (.inr rfl) taken ▸ stores) s.start_not_stores
    | sweeping rest =>
      exact absurd (s.eq_sweepOn taken ▸ stores)
        (Operation.not_stores_of_isDeletion s.sweepOn_isDeletion _ _)
    | answered => exact absurd taken s.ne_answered
  deletes {_ _ _ operation} _ _ _ _ taken deletes held := by
    cases operation with
    | asked call =>
      obtain rfl := s.eq_start (.inl rfl) taken
      exact (s.start_spec held).2 deletes
    | held call =>
      obtain rfl := s.eq_start (.inr rfl) taken
      exact (s.start_spec held).2 deletes
    | sweeping rest =>
      obtain rfl := s.eq_sweepOn taken
      exact (s.sweepOn_spec held).2 deletes
    | answered => exact absurd taken s.ne_answered
  isDeletion {_ _ _ operation} _ _ taken deletion := by
    cases operation with
    | asked call => exact s.eq_start (.inl rfl) taken ▸ s.start_isDeletion deletion
    | held call => exact s.eq_start (.inr rfl) taken ▸ s.start_isDeletion deletion
    | sweeping rest => exact s.eq_sweepOn taken ▸ s.sweepOn_isDeletion
    | answered => exact absurd taken s.ne_answered
  reliable _ _ := trivial
  get asks taken := .inr (s.eq_start asks taken ▸ s.get)
  getAll asks taken := .inr (s.eq_start asks taken ▸ s.getAll)

end InOneGo

/-! ## The expiring store -/

namespace ExpiringStore

variable {store : ExpiringStore} {now later : Nat} {key value : String}

theorem get?_eq_some : store.get? now key = some value ↔
    ∃ dated, store.entries[key]? = some dated ∧ now < dated.deadline ∧ dated.value = value := by
  unfold get?
  cases store.entries[key]? with
  | none => simp
  | some dated => by_cases h : now < dated.deadline <;> simp [h]

theorem get?_earlier (h : now ≤ later) (held : store.get? later key = some value) :
    store.get? now key = some value := by
  obtain ⟨dated, hdated, hlive, hvalue⟩ := get?_eq_some.mp held
  exact get?_eq_some.mpr ⟨dated, hdated, Nat.lt_of_le_of_lt h hlive, hvalue⟩

theorem get?_delete (store : ExpiringStore) (deleted : String) :
    (store.delete deleted).get? now key =
      if deleted = key then none else store.get? now key := by
  unfold get? delete
  rw [Std.TreeMap.getElem?_erase]
  by_cases h : deleted = key <;> simp [h]

theorem get?_deleteAll (store : ExpiringStore) (keys : List String) :
    (store.deleteAll keys).get? now key = if key ∈ keys then none else store.get? now key := by
  induction keys generalizing store with
  | nil => simp [deleteAll]
  | cons first rest ih =>
    have hrest := ih (store.delete first)
    rw [get?_delete] at hrest
    rw [deleteAll, List.foldl_cons, ← deleteAll, hrest]
    by_cases hr : key ∈ rest
    · simp [hr]
    · by_cases hf : first = key
      · simp [hf]
      · simp [hr, hf, Ne.symm hf]

theorem get?_put {entry : Entry} (held : (store.put now entry).1.get? now key = some value) :
    store.get? now key = some value ∨ entry = ⟨key, value⟩ := by
  unfold put at held
  split at held
  · exact .inl held
  · dsimp only at held
    split at held
    · exact .inl held
    · obtain ⟨dated, hdated, hlive, hvalue⟩ := get?_eq_some.mp held
      dsimp only at hdated
      rw [Std.TreeMap.getElem?_insert] at hdated
      split at hdated
      · rename_i hkey
        have hdates := Option.some.inj hdated
        right
        rw [← hdates] at hvalue
        have hkeys : entry.key = key := by simpa using hkey
        cases entry
        simp_all
      · exact .inl (get?_eq_some.mpr ⟨dated, hdated, hlive, hvalue⟩)

theorem get?_putAll {entries : List Entry}
    (held : (store.putAll now entries).1.get? now key = some value) :
    store.get? now key = some value ∨ ⟨key, value⟩ ∈ entries := by
  induction entries generalizing store with
  | nil => exact .inl held
  | cons entry rest ih =>
    have hfirst : (store.put now entry).1.get? now key = some value ∨ ⟨key, value⟩ ∈ rest := by
      rw [putAll] at held
      split at held
      · rename_i next hput
        rw [hput]
        exact ih held
      · rename_i next fault hput
        rw [hput]
        exact .inl held
    rcases hfirst with hput | hrest
    · rcases get?_put hput with hold | hentry
      · exact .inl hold
      · exact .inr (hentry ▸ List.mem_cons_self)
    · exact .inr (List.mem_cons_of_mem entry hrest)

theorem mem_sweepKeys {segments : String} :
    key ∈ store.sweepKeys now segments ↔
      isUnder key segments ∧ ∃ value, store.get? now key = some value := by
  simp only [sweepKeys, List.mem_map, List.mem_filter, Bool.and_eq_true, decide_eq_true_eq,
    Prod.exists, exists_and_right, exists_eq_right, Std.TreeMap.mem_toList_iff_getElem?_eq_some,
    get?_eq_some]
  constructor
  · rintro ⟨dated, hdated, hunder, hlive⟩
    exact ⟨hunder, dated.value, dated, hdated, hlive, rfl⟩
  · rintro ⟨hunder, value, dated, hdated, hlive, -⟩
    exact ⟨dated, hdated, hunder, hlive⟩

theorem sweepOn_store (store : ExpiringStore) (keys : List String) :
    (store.sweepOn keys).store = store.deleteAll (keys.take sweepPortion) := by
  cases keys <;> rfl

theorem sweepOn_operation (store : ExpiringStore) (keys : List String) :
    (store.sweepOn keys).operation = .afterPortion keys := by
  cases keys <;> rfl

/-- A portion of a sweep takes nothing else away, and leaves to later portions what it does not
delete. -/
theorem sweepOn_spec {keys : List String}
    (held : (store.sweepOn keys).store.get? now key = some value) :
    store.get? now key = some value ∧ (key ∈ keys → (store.sweepOn keys).operation.Deletes key) := by
  rw [sweepOn_store, get?_deleteAll] at held
  rw [sweepOn_operation]
  split at held
  · cases held
  · rename_i hleft
    exact ⟨held, fun mem => Operation.afterPortion_deletes mem hleft⟩

theorem sweepOn_isDeletion (store : ExpiringStore) (keys : List String) :
    (store.sweepOn keys).operation.IsDeletion :=
  sweepOn_operation store keys ▸ Operation.afterPortion_isDeletion keys

/-- What a call does, apart from the sweep of a whole scope: what is held after it was held before,
or is stored by it; what it deletes is gone, or left to later steps. -/
theorem start_spec {k : ReplyKind} {call : Call k}
    (held : (store.start now call).store.get? now key = some value) :
    (store.get? now key = some value ∨ call.Stores key value) ∧
      (call.Deletes key → (store.start now call).operation.Deletes key) := by
  cases call with
  | init settings =>
    refine ⟨.inl ?_, fun h => h.elim⟩
    simp only [start, init] at held
    split at held <;> exact held
  | contains | containsAll | getAll => exact ⟨.inl held, fun h => h.elim⟩
  | get =>
    refine ⟨.inl ?_, fun h => h.elim⟩
    simp only [start] at held
    split at held <;> exact held
  | put entry =>
    exact ⟨get?_put held, fun h => h.elim⟩
  | putAll entries =>
    exact ⟨get?_putAll held, fun h => h.elim⟩
  | delete deleted =>
    simp only [start, StoreStep.answer, get?_delete] at held
    split at held
    · cases held
    · rename_i hne
      exact ⟨.inl held, fun h => absurd h hne⟩
  | deleteAll keys =>
    simp only [start, StoreStep.answer, get?_deleteAll] at held
    split at held
    · cases held
    · rename_i hnot
      exact ⟨.inl held, fun h => absurd h hnot⟩
  | sweep segments =>
    obtain ⟨hold, hlater⟩ := sweepOn_spec held
    exact ⟨.inl hold, fun hunder => hlater (mem_sweepKeys.mpr ⟨hunder, value, hold⟩)⟩
  | clear =>
    refine ⟨.inl ?_, fun h => h.elim⟩
    simp only [start] at held
    split at held
    · exact held
    · exact (sweepOn_spec held).1

theorem start_not_stores {k : ReplyKind} (store : ExpiringStore) (call : Call k) :
    ¬ (store.start now call).operation.Stores key value := by
  cases call with
  | get =>
    simp only [start]
    split <;> exact id
  | sweep =>
    simp only [start, sweepOn]
    split <;> exact id
  | clear =>
    simp only [start, sweepOn]
    split
    · exact id
    · split <;> exact id
  | _ => exact id

theorem start_isDeletion {k : ReplyKind} {call : Call k} (h : call.IsDeletion)
    (store : ExpiringStore) : (store.start now call).operation.IsDeletion := by
  cases call with
  | delete | deleteAll => exact ⟨(), rfl⟩
  | sweep => exact sweepOn_isDeletion store _
  | _ => exact h.elim

def inOneGo : InOneGo ExpiringStore where
  Holds store now key value := store.get? now key = some value
  start store now call := store.start now call
  sweepOn := sweepOn
  step_asks asks := by rcases asks with rfl | rfl <;> rfl
  step_sweeping := rfl
  step_answered := rfl
  holds_earlier := get?_earlier
  start_spec := start_spec
  start_not_stores {_ store _ call _ _} := start_not_stores store call
  start_isDeletion {_ store _ _} h := start_isDeletion h store
  sweepOn_spec := sweepOn_spec
  sweepOn_isDeletion {store keys} := sweepOn_isDeletion store keys
  get {store now key} := by
    simp only [start]
    split
    · rename_i found hfound
      exact ⟨_, rfl, fun value hvalue => hfound.trans (congrArg some (Except.ok.inj hvalue))⟩
    · exact ⟨_, rfl, fun value hvalue => by cases hvalue⟩
  getAll {store now keys} := by
    refine ⟨_, rfl, ?_⟩
    intro slots hslots i value hslot
    rw [← Except.ok.inj hslots, List.getElem?_map, Option.map_eq_some_iff] at hslot
    exact hslot

instance : LawfulMedium ExpiringStore := inOneGo.lawful

end ExpiringStore

/-! ## The recency store -/

namespace RecencyStore

variable {store store' : RecencyStore} {now later : Nat} {key value : String}

/-- A slot of the key is in use, and has this value. -/
def Holds (store : RecencyStore) (now : Nat) (key value : String) : Prop :=
  ∃ slot, (key, slot) ∈ store.slots ∧ slot.isStale now = false ∧ slot.value = value

theorem holds_earlier (h : now ≤ later) (held : store.Holds later key value) :
    store.Holds now key value := by
  obtain ⟨⟨text, deadline⟩, hslot, hlive, hvalue⟩ := held
  refine ⟨⟨text, deadline⟩, hslot, ?_, hvalue⟩
  cases deadline with
  | none => rfl
  | some deadline =>
    have hlater : later < deadline := by simpa [Slot.isStale] using hlive
    have hnow : now < deadline := Nat.lt_of_le_of_lt h hlater
    simpa [Slot.isStale] using hnow

theorem Holds.of_subset (h : store'.slots ⊆ store.slots) (held : store'.Holds now key value) :
    store.Holds now key value := by
  obtain ⟨slot, hslot, hlive⟩ := held
  exact ⟨slot, h hslot, hlive⟩

theorem mem_without {deleted : String} {slots : List (String × Slot)} {entry : String × Slot} :
    entry ∈ without deleted slots ↔ entry ∈ slots ∧ entry.1 ≠ deleted := by
  simp [without, List.mem_filter]

theorem mem_of_lookup {slots : List (String × Slot)} {slot : Slot}
    (h : slots.lookup key = some slot) : (key, slot) ∈ slots := by
  induction slots with
  | nil => cases h
  | cons first rest ih =>
    rw [List.lookup_cons] at h
    split at h
    · rename_i hkey
      obtain rfl := Option.some.inj h
      have hkeys : key = first.1 := by simpa using hkey
      rw [hkeys]
      exact List.mem_cons_self
    · exact List.mem_cons_of_mem first (ih h)

/-! ### Looking -/

theorem look_slots (store : RecencyStore) (now : Nat) (key : String) :
    (store.look now key).1.slots ⊆ store.slots := by
  unfold look
  split
  · exact List.Subset.refl _
  · rename_i slot hlookup
    split
    · intro entry hentry
      exact (mem_without.mp hentry).1
    · intro entry hentry
      rcases List.mem_cons.mp hentry with rfl | hrest
      · exact mem_of_lookup hlookup
      · exact (mem_without.mp hrest).1

theorem holds_of_look (h : (store.look now key).2 = some value) : store.Holds now key value := by
  unfold look at h
  split at h
  · cases h
  · rename_i slot hlookup
    split at h
    · cases h
    · rename_i hlive
      exact ⟨slot, mem_of_lookup hlookup, by simpa using hlive, Option.some.inj h⟩

theorem lookAll_slots (store : RecencyStore) (now : Nat) (keys : List String) :
    (store.lookAll now keys).1.slots ⊆ store.slots := by
  induction keys generalizing store with
  | nil => exact List.Subset.refl _
  | cons first rest ih => exact List.Subset.trans (ih _) (look_slots store now first)

theorem holds_of_lookAll {keys : List String} {i : Nat}
    (h : (store.lookAll now keys).2[i]? = some (some value)) :
    ∃ key, keys[i]? = some key ∧ store.Holds now key value := by
  induction keys generalizing store i with
  | nil => simp [lookAll] at h
  | cons first rest ih =>
    cases i with
    | zero =>
      have hlook : (store.look now first).2 = some value := by simpa [lookAll] using h
      exact ⟨first, rfl, holds_of_look hlook⟩
    | succ i =>
      have hrest : ((store.look now first).1.lookAll now rest).2[i]? = some (some value) := by
        simpa [lookAll] using h
      obtain ⟨key, hkey, hheld⟩ := ih hrest
      exact ⟨key, by simpa using hkey, hheld.of_subset (look_slots store now first)⟩

theorem containsAll_slots (store : RecencyStore) (now : Nat) (keys : List String) :
    (store.containsAll now keys).1.slots ⊆ store.slots := by
  induction keys generalizing store with
  | nil => exact List.Subset.refl _
  | cons first rest ih =>
    have hfirst := look_slots store now first
    unfold containsAll
    split
    · rename_i next found hlook
      rw [hlook] at hfirst
      exact List.Subset.trans (ih next) hfirst
    · rename_i next hlook
      rw [hlook] at hfirst
      exact hfirst

/-! ### Storing and deleting -/

theorem newSlot_slots (store : RecencyStore) (now : Nat) (value : String) :
    (store.newSlot now value).1.slots = store.slots := by
  unfold newSlot
  split
  · rfl
  · dsimp only
    split
    · rfl
    · split <;> rfl

theorem value_of_newSlot {slot : Slot} (h : (store.newSlot now value).2 = .ok slot) :
    slot.value = value := by
  unfold newSlot at h
  split at h
  · cases h
  · dsimp only at h
    split at h
    · cases h
    · split at h
      · cases h
      · rw [← Except.ok.inj h]

theorem mem_place {slot : Slot} {entry : String × Slot} (h : entry ∈ (store.place key slot).slots) :
    entry = (key, slot) ∨ entry ∈ store.slots := by
  have hcons : entry ∈ (key, slot) :: without key store.slots := List.mem_of_mem_take h
  rcases List.mem_cons.mp hcons with rfl | hrest
  · exact .inl rfl
  · exact .inr (mem_without.mp hrest).1

theorem holds_put {entry : Entry} (held : (store.put now entry).1.Holds now key value) :
    store.Holds now key value ∨ entry = ⟨key, value⟩ := by
  obtain ⟨slot, hslot, hlive, hvalue⟩ := held
  have hsame := newSlot_slots store now entry.value
  unfold put at hslot
  split at hslot
  · rename_i next placed hnew
    rw [hnew] at hsame
    rcases mem_place hslot with hentry | hold
    · obtain ⟨hkey, rfl⟩ := Prod.mk.inj hentry
      have hplaced : slot.value = entry.value :=
        value_of_newSlot (congrArg Prod.snd hnew)
      right
      rw [hkey, ← hvalue, hplaced]
    · exact .inl ⟨slot, hsame ▸ hold, hlive, hvalue⟩
  · rename_i next fault hnew
    rw [hnew] at hsame
    exact .inl ⟨slot, hsame ▸ hslot, hlive, hvalue⟩

theorem newSlots_slots (store : RecencyStore) (now : Nat) (entries : List Entry) :
    (store.newSlots now entries).1.slots = store.slots := by
  induction entries generalizing store with
  | nil => rfl
  | cons entry rest ih =>
    have hfirst := newSlot_slots store now entry.value
    unfold newSlots
    split
    · rename_i next fault hnew
      rw [hnew] at hfirst
      exact hfirst
    · rename_i next slot hnew
      rw [hnew] at hfirst
      have hrest := ih next
      split
      · rename_i last fault hlast
        rw [hlast] at hrest
        exact hrest.trans hfirst
      · rename_i last slots hlast
        rw [hlast] at hrest
        exact hrest.trans hfirst

theorem mem_of_newSlots {entries : List Entry} {slots : List (String × Slot)} {slot : Slot}
    (h : (store.newSlots now entries).2 = .ok slots) (hmem : (key, slot) ∈ slots) :
    ⟨key, slot.value⟩ ∈ entries := by
  induction entries generalizing store slots with
  | nil =>
    rw [← Except.ok.inj h] at hmem
    cases hmem
  | cons entry rest ih =>
    unfold newSlots at h
    split at h
    · cases h
    · rename_i next first hnew
      split at h
      · cases h
      · rename_i last others hlast
        rw [← Except.ok.inj h] at hmem
        rcases List.mem_cons.mp hmem with hentry | hrest
        · obtain ⟨rfl, rfl⟩ := Prod.mk.inj hentry
          have hvalue : slot.value = entry.value := value_of_newSlot (congrArg Prod.snd hnew)
          rw [hvalue]
          exact List.mem_cons_self
        · exact List.mem_cons_of_mem entry (ih (congrArg Prod.snd hlast) hrest)

theorem mem_foldl_place {slots : List (String × Slot)} {entry : String × Slot}
    (h : entry ∈ (slots.foldl (fun store entry => store.place entry.1 entry.2) store).slots) :
    entry ∈ slots ∨ entry ∈ store.slots := by
  induction slots generalizing store with
  | nil => exact .inr h
  | cons first rest ih =>
    rcases ih h with hrest | hplaced
    · exact .inl (List.mem_cons_of_mem first hrest)
    · rcases mem_place hplaced with rfl | hold
      · exact .inl List.mem_cons_self
      · exact .inr hold

theorem holds_putAll {entries : List Entry}
    (held : (store.putAll now entries).1.Holds now key value) :
    store.Holds now key value ∨ ⟨key, value⟩ ∈ entries := by
  obtain ⟨slot, hslot, hlive, hvalue⟩ := held
  have hsame := newSlots_slots store now entries
  unfold putAll at hslot
  split at hslot
  · rename_i next slots hnew
    rw [hnew] at hsame
    rcases mem_foldl_place hslot with hentry | hold
    · rw [← hvalue]
      exact .inr (mem_of_newSlots (congrArg Prod.snd hnew) hentry)
    · exact .inl ⟨slot, hsame ▸ hold, hlive, hvalue⟩
  · rename_i next fault hnew
    rw [hnew] at hsame
    exact .inl ⟨slot, hsame ▸ hslot, hlive, hvalue⟩

theorem mem_deleteAll {keys : List String} {entry : String × Slot} :
    entry ∈ (store.deleteAll keys).slots ↔ entry ∈ store.slots ∧ entry.1 ∉ keys := by
  induction keys generalizing store with
  | nil => simp [deleteAll]
  | cons first rest ih =>
    have hrest : entry ∈ ((store.delete first).deleteAll rest).slots ↔ _ := ih
    rw [deleteAll, List.foldl_cons, ← deleteAll, hrest, delete, mem_without, and_assoc,
      List.mem_cons, not_or]

/-! ### Sweeps and calls -/

theorem mem_sweepKeys {segments : String} :
    key ∈ store.sweepKeys segments ↔ isUnder key segments ∧ ∃ slot, (key, slot) ∈ store.slots := by
  simp [sweepKeys, and_comm]

theorem sweepOn_store (store : RecencyStore) (keys : List String) :
    (store.sweepOn keys).store = store.deleteAll (keys.take sweepPortion) := by
  cases keys <;> rfl

theorem sweepOn_operation (store : RecencyStore) (keys : List String) :
    (store.sweepOn keys).operation = .afterPortion keys := by
  cases keys <;> rfl

theorem sweepOn_spec {keys : List String} (held : (store.sweepOn keys).store.Holds now key value) :
    store.Holds now key value ∧ (key ∈ keys → (store.sweepOn keys).operation.Deletes key) := by
  rw [sweepOn_store] at held
  rw [sweepOn_operation]
  obtain ⟨slot, hslot, hlive⟩ := held
  obtain ⟨hold, hleft⟩ := mem_deleteAll.mp hslot
  exact ⟨⟨slot, hold, hlive⟩, fun mem => Operation.afterPortion_deletes mem hleft⟩

theorem sweepOn_isDeletion (store : RecencyStore) (keys : List String) :
    (store.sweepOn keys).operation.IsDeletion :=
  sweepOn_operation store keys ▸ Operation.afterPortion_isDeletion keys

/-- As for the expiring store. A look at a key drops its slot if that has expired. -/
theorem start_spec {k : ReplyKind} {call : Call k}
    (held : (store.start now call).store.Holds now key value) :
    (store.Holds now key value ∨ call.Stores key value) ∧
      (call.Deletes key → (store.start now call).operation.Deletes key) := by
  cases call with
  | init settings =>
    refine ⟨.inl ?_, fun h => h.elim⟩
    simp only [start, init] at held
    split at held <;> exact held
  | contains looked =>
    exact ⟨.inl (held.of_subset (look_slots store now looked)), fun h => h.elim⟩
  | containsAll keys =>
    exact ⟨.inl (held.of_subset (containsAll_slots store now keys)), fun h => h.elim⟩
  | getAll keys =>
    exact ⟨.inl (held.of_subset (lookAll_slots store now keys)), fun h => h.elim⟩
  | get looked =>
    refine ⟨.inl ?_, fun h => h.elim⟩
    have hslots := look_slots store now looked
    simp only [start] at held
    split at held
    · rename_i next found hlook
      rw [hlook] at hslots
      exact held.of_subset hslots
    · rename_i next hlook
      rw [hlook] at hslots
      exact held.of_subset hslots
  | put entry =>
    exact ⟨holds_put held, fun h => h.elim⟩
  | putAll entries =>
    exact ⟨holds_putAll held, fun h => h.elim⟩
  | delete deleted =>
    obtain ⟨slot, hslot, hlive⟩ := held
    obtain ⟨hold, hne⟩ := mem_without.mp hslot
    exact ⟨.inl ⟨slot, hold, hlive⟩, fun h => absurd (Eq.symm h) hne⟩
  | deleteAll keys =>
    obtain ⟨slot, hslot, hlive⟩ := held
    obtain ⟨hold, hnot⟩ := mem_deleteAll.mp hslot
    exact ⟨.inl ⟨slot, hold, hlive⟩, fun h => absurd h hnot⟩
  | sweep segments =>
    obtain ⟨hold, hlater⟩ := sweepOn_spec held
    obtain ⟨slot, hslot, hlive⟩ := hold
    exact ⟨.inl ⟨slot, hslot, hlive⟩,
      fun hunder => hlater (mem_sweepKeys.mpr ⟨hunder, slot, hslot⟩)⟩
  | clear =>
    refine ⟨.inl ?_, fun h => h.elim⟩
    simp only [start] at held
    split at held
    · exact held
    · exact (sweepOn_spec held).1

theorem start_not_stores {k : ReplyKind} (store : RecencyStore) (call : Call k) :
    ¬ (store.start now call).operation.Stores key value := by
  cases call with
  | get =>
    simp only [start]
    split <;> exact id
  | sweep =>
    simp only [start, sweepOn]
    split <;> exact id
  | clear =>
    simp only [start, sweepOn]
    split
    · exact id
    · split <;> exact id
  | _ => exact id

theorem start_isDeletion {k : ReplyKind} {call : Call k} (h : call.IsDeletion)
    (store : RecencyStore) : (store.start now call).operation.IsDeletion := by
  cases call with
  | delete | deleteAll => exact ⟨(), rfl⟩
  | sweep => exact sweepOn_isDeletion store _
  | _ => exact h.elim

/-- Everything but a sweep takes a single step. -/
def inOneGo : InOneGo RecencyStore where
  Holds := Holds
  start store now call := store.start now call
  sweepOn := sweepOn
  step_asks asks := by rcases asks with rfl | rfl <;> rfl
  step_sweeping := rfl
  step_answered := rfl
  holds_earlier := holds_earlier
  start_spec := start_spec
  start_not_stores {_ store _ call _ _} := start_not_stores store call
  start_isDeletion {_ store _ _} h := start_isDeletion h store
  sweepOn_spec := sweepOn_spec
  sweepOn_isDeletion {store keys} := sweepOn_isDeletion store keys
  get {store now key} := by
    simp only [start]
    split
    · rename_i next found hlook
      refine ⟨_, rfl, fun value hvalue => holds_of_look ?_⟩
      rw [hlook, ← Except.ok.inj hvalue]
    · exact ⟨_, rfl, fun value hvalue => by cases hvalue⟩
  getAll {store now keys} := by
    refine ⟨_, rfl, ?_⟩
    intro slots hslots i value hslot
    rw [← Except.ok.inj hslots] at hslot
    exact holds_of_lookAll hslot

instance : LawfulMedium RecencyStore := inOneGo.lawful

end RecencyStore

end ReadThrough
