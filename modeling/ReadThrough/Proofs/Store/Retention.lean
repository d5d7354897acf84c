import Mathlib.Data.Finset.Card
import Mathlib.Data.List.DropRight
import ReadThrough.Proofs.Store.InProcessDeadlines

/-! # The recency store keeps what was touched last

The store drops a slot that is not stale only when it is full, and then the one that was touched least recently. A
key is touched when it is put, and when a reading call finds it. So an entry stays as long as fewer keys than there
is room for were touched after it.

* `Occasion.touched` lists the keys that a step touches;
* `RecencyStore.Shifts` says what the slots go through in a step;
* `RecencyStore.Sound` and `RecencyStore.Tracked` are what each shift keeps: no key has two slots, there is room,
  and the slots ahead of a key are those of keys touched after it;
* `recency_store_keeps_recent_entries` is the theorem.
-/

namespace ReadThrough
set_option autoImplicit false

/-! ## Touches -/

/-- The keys that a reading call finds, in order. Asked whether all keys are there, it looks no further than the
first that is absent. -/
def Call.touched {k : ReplyKind} (found : String → Bool) : Call k → List String
  | .contains key | .get key => [key].filter found
  | .containsAll keys => keys.takeWhile found
  | .getAll keys => keys.filter found
  | _ => []

/-- The key has a slot that is not stale. -/
def RecencyStore.isLive (store : RecencyStore) (now : Nat) (key : String) : Bool :=
  (store.slot? key).any (! ·.isStale now)

/-- The keys that a step of the recency store touches, in order: those it finds, and those for which it fills
slots. -/
def Occasion.touched (o : Occasion RecencyStore) : List String :=
  match o.operation.call? with
  | some call => call.touched (o.store.isLive o.now) ++ o.written.map Prod.fst
  | none => []

namespace RecencyStore

variable {capacity now : Nat} {key other : String} {slot : Slot} {slots middle final : List (String × Slot)}
  {touched put : List String}

/-! ## Shifts -/

/-- From `slots` to `final`, these keys are touched, these slots filled, and these keys deleted. -/
inductive Shifts (capacity now : Nat) : (slots : List (String × Slot)) → (touched : List String) →
    (filled : List (String × Slot)) → (removed : List String) → (final : List (String × Slot)) → Prop
  | rest {slots : List (String × Slot)} : Shifts capacity now slots [] [] [] slots
  /-- A slot is filled at the front. If there are too many then, the last one goes. -/
  | fill {slots final filled : List (String × Slot)} {touched removed : List String} {key : String} {slot : Slot}
      (shifts : Shifts capacity now (((key, slot) :: without key slots).take capacity)
        touched filled removed final) :
      Shifts capacity now slots (key :: touched) ((key, slot) :: filled) removed final
  /-- A slot is used, and comes to the front. -/
  | use {slots final filled : List (String × Slot)} {touched removed : List String} {key : String} {slot : Slot}
      (found : slots.lookup key = some slot) (live : slot.isStale now = false)
      (shifts : Shifts capacity now ((key, slot) :: without key slots) touched filled removed final) :
      Shifts capacity now slots (key :: touched) filled removed final
  | expire {slots final filled : List (String × Slot)} {touched removed : List String} {key : String} {slot : Slot}
      (found : slots.lookup key = some slot) (stale : slot.isStale now = true)
      (shifts : Shifts capacity now (without key slots) touched filled removed final) :
      Shifts capacity now slots touched filled removed final
  | remove {slots final filled : List (String × Slot)} {touched removed : List String} {key : String}
      (shifts : Shifts capacity now (without key slots) touched filled removed final) :
      Shifts capacity now slots touched filled (key :: removed) final

theorem Shifts.append {filled filled' : List (String × Slot)} {touched touched' removed removed' : List String}
    (first : Shifts capacity now slots touched filled removed middle)
    (second : Shifts capacity now middle touched' filled' removed' final) :
    Shifts capacity now slots (touched ++ touched') (filled ++ filled') (removed ++ removed') final := by
  induction first with
  | rest => exact second
  | fill _ ih => exact .fill (ih second)
  | use found live _ ih => exact .use found live (ih second)
  | expire found stale _ ih => exact .expire found stale (ih second)
  | remove _ ih => exact .remove (ih second)

/-! ## Calls in shifts -/

theorem isLive_of_keptOrStale {store next : RecencyStore}
    (kept : KeptOrStale now (store.slot? key) (next.slot? key)) : next.isLive now key = store.isLive now key := by
  unfold isLive
  rcases kept with hkept | ⟨hnone, slot, hslot, hstale⟩
  · rw [hkept]
  · simp [hnone, hslot, hstale]

theorem shifts_look (store : RecencyStore) (now : Nat) (key : String) :
    Shifts store.capacity now store.slots ([key].filter (store.isLive now)) [] []
      (store.look now key).1.slots := by
  unfold look
  cases hslot : store.slots.lookup key with
  | none =>
    have hlive : store.isLive now key = false := by rw [isLive, slot?, hslot]; rfl
    simpa [hlive] using .rest
  | some slot =>
    have hlive : store.isLive now key = !slot.isStale now := by rw [isLive, slot?, hslot]; rfl
    cases hstale : slot.isStale now with
    | true => simpa [hlive, hstale] using .expire hslot hstale .rest
    | false => simpa [hlive, hstale] using .use hslot hstale .rest

theorem shifts_lookAll (store : RecencyStore) (now : Nat) (keys : List String) :
    Shifts store.capacity now store.slots (keys.filter (store.isLive now)) [] []
      (store.lookAll now keys).1.slots := by
  induction keys generalizing store with
  | nil => exact .rest
  | cons first rest ih =>
    obtain ⟨slots, hlook⟩ := look_eq store now first
    have hlive : (store.look now first).1.isLive now = store.isLive now :=
      funext fun key => isLive_of_keptOrStale (keptOrStale_look store now first key)
    have hcapacity : (store.look now first).1.capacity = store.capacity := by rw [hlook]
    have hrest := ih (store.look now first).1
    rw [hlive, hcapacity] at hrest
    have hboth := (shifts_look store now first).append hrest
    rw [← List.filter_append] at hboth
    exact hboth

theorem shifts_containsAll (store : RecencyStore) (now : Nat) (keys : List String) :
    Shifts store.capacity now store.slots (keys.takeWhile (store.isLive now)) [] []
      (store.containsAll now keys).1.slots := by
  induction keys generalizing store with
  | nil => exact .rest
  | cons first rest ih =>
    have hfirst := shifts_look store now first
    have hvalue : (store.look now first).2.isSome = store.isLive now first := by
      rw [look_value, isLive]
      cases store.slot? first with
      | none => rfl
      | some slot =>
        rw [Option.bind_some, Slot.valueAt_eq]
        cases h : slot.isStale now <;> simp [h]
    have hlive : (store.look now first).1.isLive now = store.isLive now :=
      funext fun key => isLive_of_keptOrStale (keptOrStale_look store now first key)
    obtain ⟨slots, hlook⟩ := look_eq store now first
    have hcapacity : (store.look now first).1.capacity = store.capacity := by rw [hlook]
    rw [containsAll]
    split
    · rename_i next found hnext
      rw [hnext] at hvalue hlive hcapacity hfirst
      have hrest := ih next
      rw [hlive, hcapacity] at hrest
      have hboth := hfirst.append hrest
      simpa [← hvalue] using hboth
    · rename_i next hnext
      rw [hnext] at hvalue hfirst
      simpa [← hvalue] using hfirst

theorem shifts_places (store : RecencyStore) (filled : List (String × Slot)) :
    Shifts store.capacity now store.slots (filled.map Prod.fst) filled []
      (filled.foldl (fun store entry => store.place entry.1 entry.2) store).slots := by
  induction filled generalizing store with
  | nil => exact .rest
  | cons first rest ih => exact .fill (ih (store.place first.1 first.2))

theorem shifts_putAll (store : RecencyStore) (now : Nat) (entries : List Entry) :
    Shifts store.capacity now store.slots ((store.slotsFor now entries).map Prod.fst)
      (store.slotsFor now entries) [] (store.putAll now entries).1.slots := by
  have hplaces := @shifts_places now (store.newSlots now entries).1 (store.slotsFor now entries)
  obtain ⟨jitter, hnew⟩ := newSlots_store store now entries
  rw [putAll_store]
  rw [hnew] at hplaces ⊢
  exact hplaces

theorem shifts_deleteAll (store : RecencyStore) (keys : List String) :
    Shifts store.capacity now store.slots [] [] keys (store.deleteAll keys).slots := by
  induction keys generalizing store with
  | nil => exact .rest
  | cons first rest ih => exact .remove (ih (store.delete first))

theorem shifts_start {k : ReplyKind} (store : RecencyStore) (now : Nat) (call : Call k) :
    Shifts store.capacity now store.slots
      (call.touched (store.isLive now) ++ (store.written now call).map Prod.fst) (store.written now call)
      (call.removed store.sweepKeys store.settings) (store.start now call).store.slots := by
  cases call with
  | init settings =>
    have hsame : (store.init settings).1.slots = store.slots := by
      unfold init
      split <;> rfl
    show Shifts _ _ _ [] [] [] (store.init settings).1.slots
    rw [hsame]
    exact .rest
  | contains key =>
    rw [written_eq_nil rfl, List.map_nil, List.append_nil]
    exact shifts_look store now key
  | get key =>
    rw [written_eq_nil rfl, List.map_nil, List.append_nil, start_get_store]
    exact shifts_look store now key
  | containsAll keys =>
    rw [written_eq_nil rfl, List.map_nil, List.append_nil]
    exact shifts_containsAll store now keys
  | getAll keys =>
    rw [written_eq_nil rfl, List.map_nil, List.append_nil]
    exact shifts_lookAll store now keys
  | put entry =>
    have hput := shifts_putAll store now [entry]
    rw [putAll_single] at hput
    exact hput
  | putAll entries => exact shifts_putAll store now entries
  | delete key => exact shifts_deleteAll store [key]
  | deleteAll keys => exact shifts_deleteAll store keys
  | sweep segments =>
    rw [start, sweepOn_store]
    exact shifts_deleteAll store _
  | clear =>
    rw [start]
    cases hready : store.settings with
    | none => exact .rest
    | some settings =>
      dsimp only
      rw [sweepOn_store]
      exact shifts_deleteAll store _

/-- Every step is a sequence of shifts. -/
theorem shifts_step {o : Occasion RecencyStore} (taken : Medium.step? o.now o.store o.operation = some o.step) :
    o.step.store.capacity = o.store.capacity ∧
      Shifts o.store.capacity o.now o.store.slots o.touched o.written o.removed o.step.store.slots := by
  have hstart : ∀ {k : ReplyKind} (store : RecencyStore) (time : Nat) (call : Call k),
      (store.start time call).store.capacity = store.capacity := by
    intro k store time call
    obtain ⟨slots, jitter, hstart⟩ := start_eq store time call
    rw [hstart]
  obtain ⟨time, before, k, operation, step⟩ := o
  cases operation with
  | asked call =>
    obtain rfl : step = before.start time call := inOneGo.eq_start (.inl rfl) taken
    exact ⟨hstart before time call, shifts_start before time call⟩
  | held call =>
    obtain rfl : step = before.start time call := inOneGo.eq_start (.inr rfl) taken
    exact ⟨hstart before time call, shifts_start before time call⟩
  | sweeping rest =>
    obtain rfl : step = before.sweepOn rest := inOneGo.eq_sweepOn taken
    obtain ⟨slots, hsweep⟩ := sweepOn_eq before rest
    refine ⟨by rw [hsweep], ?_⟩
    show Shifts _ _ _ [] [] (rest.take sweepPortion) (before.sweepOn rest).store.slots
    rw [sweepOn_store]
    exact shifts_deleteAll before _
  | answered => exact absurd taken inOneGo.ne_answered

/-! ## What shifts keep -/

/-- No key has two slots, and there are no more slots than there is room for. -/
structure Sound (capacity : Nat) (slots : List (String × Slot)) : Prop where
  nodup : (slots.map Prod.fst).Nodup
  within : slots.length ≤ capacity

theorem nodup_front (nodup : (slots.map Prod.fst).Nodup) (key : String) (slot : Slot) :
    (((key, slot) :: without key slots).map Prod.fst).Nodup := by
  rw [List.map_cons, List.nodup_cons]
  refine ⟨fun hmem => ?_, nodup.sublist (without_keys key slots)⟩
  obtain ⟨entry, hentry, hkey⟩ := List.mem_map.mp hmem
  exact (mem_without.mp hentry).2 hkey

namespace Sound

theorem fill (sound : Sound capacity slots) (key : String) (slot : Slot) :
    Sound capacity (((key, slot) :: without key slots).take capacity) where
  nodup := (nodup_front sound.nodup key slot).sublist ((List.take_sublist _ _).map Prod.fst)
  within := List.length_take_le _ _

theorem use (sound : Sound capacity slots) (found : slots.lookup key = some slot) :
    Sound capacity ((key, slot) :: without key slots) where
  nodup := nodup_front sound.nodup key slot
  within := by
    have hlt : (without key slots).length < slots.length :=
      List.length_filter_lt_length_iff_exists.mpr ⟨(key, slot), mem_of_lookup found, by simp⟩
    exact (Nat.succ_le_of_lt hlt).trans sound.within

theorem without (sound : Sound capacity slots) (key : String) : Sound capacity (without key slots) where
  nodup := sound.nodup.sublist (without_keys key slots)
  within := (List.length_filter_le _ _).trans sound.within

theorem of_shifts {filled : List (String × Slot)} {removed : List String} (sound : Sound capacity slots)
    (shifts : Shifts capacity now slots touched filled removed final) : Sound capacity final := by
  induction shifts with
  | rest => exact sound
  | fill _ ih => exact ih (sound.fill _ _)
  | use found _ _ ih => exact ih (sound.use found)
  | expire _ _ _ ih => exact ih (sound.without _)
  | remove _ ih => exact ih (sound.without _)

end Sound

/-! ## What is ahead of a key -/

/-- The keys of the slots before the one of this key. -/
def ahead (key : String) (slots : List (String × Slot)) : List String :=
  (slots.takeWhile (·.1 ≠ key)).map Prod.fst

theorem ahead_self (key : String) (slot : Slot) (slots : List (String × Slot)) :
    ahead key ((key, slot) :: slots) = [] := by
  simp [ahead]

theorem ahead_cons (ne : other ≠ key) (slot : Slot) (slots : List (String × Slot)) :
    ahead key ((other, slot) :: slots) = other :: ahead key slots := by
  simp [ahead, ne]

theorem ahead_without_subset (ne : other ≠ key) (slots : List (String × Slot)) :
    ahead key (without other slots) ⊆ ahead key slots := by
  induction slots with
  | nil => exact List.Subset.refl _
  | cons first rest ih =>
    obtain ⟨name, slot⟩ := first
    by_cases hother : name = other
    · have hdrops : without other ((name, slot) :: rest) = without other rest := by simp [without, hother]
      rw [hdrops, ahead_cons (hother ▸ ne)]
      exact List.subset_cons_of_subset name ih
    · have hkeeps : without other ((name, slot) :: rest) = (name, slot) :: without other rest := by
        simp [without, hother]
      rw [hkeeps]
      by_cases hkey : name = key
      · rw [hkey, ahead_self]
        exact List.nil_subset _
      · rw [ahead_cons hkey, ahead_cons hkey]
        exact List.cons_subset_cons name ih

theorem ahead_take_subset (key : String) (slots : List (String × Slot)) (capacity : Nat) :
    ahead key (slots.take capacity) ⊆ ahead key slots := by
  induction slots generalizing capacity with
  | nil => simp
  | cons first rest ih =>
    obtain ⟨name, slot⟩ := first
    cases capacity with
    | zero => exact List.nil_subset _
    | succ capacity =>
      rw [List.take_succ_cons]
      by_cases hkey : name = key
      · rw [hkey, ahead_self]
        exact List.nil_subset _
      · rw [ahead_cons hkey, ahead_cons hkey]
        exact List.cons_subset_cons name (ih capacity)

/-- A slot goes only if there are as many ahead of it as there is room for. -/
theorem le_length_ahead (held : slots.lookup key = some slot) (gone : (slots.take capacity).lookup key = none) :
    capacity ≤ (ahead key slots).length := by
  induction slots generalizing capacity with
  | nil => cases held
  | cons first rest ih =>
    obtain ⟨name, other⟩ := first
    cases capacity with
    | zero => exact Nat.zero_le _
    | succ capacity =>
      rw [List.take_succ_cons, lookup_cons] at gone
      rw [lookup_cons] at held
      by_cases hkey : name = key
      · rw [if_pos hkey] at gone
        cases gone
      · rw [if_neg hkey] at gone held
        rw [ahead_cons hkey, List.length_cons]
        exact Nat.succ_le_succ (ih held gone)

/-! ## Tracking a key -/

/-- The keys that were touched after this one was touched last. -/
def since (key : String) (touched : List String) : List String := touched.rtakeWhile (· ≠ key)

theorem since_self (key : String) (touched : List String) : since key (touched ++ [key]) = [] :=
  List.rtakeWhile_concat_neg _ _ _ (by simp)

theorem since_concat (ne : other ≠ key) (touched : List String) :
    since key (touched ++ [other]) = since key touched ++ [other] :=
  List.rtakeWhile_concat_pos _ _ _ (by simpa using ne)

theorem since_subset_append (key : String) (before touched : List String) :
    since key touched ⊆ since key (before ++ touched) := by
  induction touched using List.reverseRecOn with
  | nil => exact List.nil_subset _
  | append_singleton rest last ih =>
    rw [← List.append_assoc]
    by_cases hlast : last = key
    · rw [hlast, since_self, since_self]
      exact List.Subset.refl _
    · rw [since_concat hlast, since_concat hlast]
      exact List.append_subset.mpr ⟨List.Subset.trans ih (List.subset_append_left _ _),
        List.subset_append_right _ _⟩

theorem card_le_of_subset {keys others : List String} (subset : keys ⊆ others) :
    keys.toFinset.card ≤ others.toFinset.card :=
  Finset.card_le_card fun _ hmem => List.mem_toFinset.mpr (subset (List.mem_toFinset.mp hmem))

/-- The key has its slot, and the slots ahead of it are those of keys touched after it; or it has none, because it
was stale, or because as many keys were touched after it as there is room for. -/
def Tracked (capacity now : Nat) (key : String) (slot : Slot) (touched : List String)
    (slots : List (String × Slot)) : Prop :=
  (slots.lookup key = some slot ∧ ahead key slots ⊆ since key touched) ∨
    (slots.lookup key = none ∧
      (slot.isStale now = true ∨ capacity ≤ (since key touched).toFinset.card))

namespace Tracked

theorem mono (tracked : Tracked capacity now key slot touched slots) {touched' : List String}
    (more : since key touched ⊆ since key touched') : Tracked capacity now key slot touched' slots := by
  rcases tracked with ⟨hheld, hahead⟩ | ⟨hgone, hstale | hfull⟩
  · exact .inl ⟨hheld, List.Subset.trans hahead more⟩
  · exact .inr ⟨hgone, .inl hstale⟩
  · exact .inr ⟨hgone, .inr (hfull.trans (card_le_of_subset more))⟩

theorem later (tracked : Tracked capacity now key slot touched slots) {time : Nat} (le : now ≤ time) :
    Tracked capacity time key slot touched slots :=
  tracked.imp_right fun ⟨hgone, hreason⟩ => ⟨hgone, hreason.imp_left (Slot.isStale_later le)⟩

theorem self (touched : List String) (slots : List (String × Slot)) :
    Tracked capacity now key slot touched ((key, slot) :: slots) := by
  refine .inl ⟨by simp, ?_⟩
  rw [ahead_self]
  exact List.nil_subset _

theorem without (tracked : Tracked capacity now key slot touched slots) (ne : other ≠ key) :
    Tracked capacity now key slot touched (without other slots) := by
  have hsame : (RecencyStore.without other slots).lookup key = slots.lookup key := by
    rw [lookup_without, if_neg ne]
  rcases tracked with ⟨hheld, hahead⟩ | ⟨hgone, hreason⟩
  · exact .inl ⟨hsame.trans hheld, List.Subset.trans (ahead_without_subset ne slots) hahead⟩
  · exact .inr ⟨hsame.trans hgone, hreason⟩

theorem front (tracked : Tracked capacity now key slot touched slots) (ne : other ≠ key) (used : Slot) :
    Tracked capacity now key slot (touched ++ [other]) ((other, used) :: RecencyStore.without other slots) := by
  have hmore : since key touched ⊆ since key (touched ++ [other]) := by
    rw [since_concat ne]
    exact List.subset_append_left _ _
  rcases (tracked.without ne).mono hmore with ⟨hheld, hahead⟩ | ⟨hgone, hreason⟩
  · refine .inl ⟨by rw [lookup_cons, if_neg ne, hheld], ?_⟩
    rw [ahead_cons ne]
    refine List.cons_subset.mpr ⟨?_, hahead⟩
    simp [since_concat ne]
  · exact .inr ⟨by rw [lookup_cons, if_neg ne, hgone], hreason⟩

theorem take (tracked : Tracked capacity now key slot touched slots) (nodup : (slots.map Prod.fst).Nodup) :
    Tracked capacity now key slot touched (slots.take capacity) := by
  rcases tracked with ⟨hheld, hahead⟩ | ⟨hgone, hreason⟩
  · rcases lookup_take slots capacity key with hsame | hgone
    · exact .inl ⟨hsame.trans hheld, List.Subset.trans (ahead_take_subset key slots capacity) hahead⟩
    · refine .inr ⟨hgone, .inr ?_⟩
      have hnodup : (ahead key slots).Nodup := nodup.sublist ((List.takeWhile_sublist _).map Prod.fst)
      calc capacity ≤ (ahead key slots).length := le_length_ahead hheld hgone
        _ = (ahead key slots).toFinset.card := (List.toFinset_card_of_nodup hnodup).symm
        _ ≤ (since key touched).toFinset.card := card_le_of_subset hahead
  · rcases lookup_take slots capacity key with hsame | hgone'
    · exact .inr ⟨hsame.trans hgone, hreason⟩
    · exact .inr ⟨hgone', hreason⟩

/-- A tracked key stays so, unless its slot is filled again or removed. -/
theorem of_shifts {filled : List (String × Slot)} {before removed : List String}
    (tracked : Tracked capacity now key slot before slots) (sound : Sound capacity slots)
    (shifts : Shifts capacity now slots touched filled removed final) (unfilled : key ∉ filled.map Prod.fst)
    (unremoved : key ∉ removed) : Tracked capacity now key slot (before ++ touched) final := by
  induction shifts generalizing before with
  | rest => rwa [List.append_nil]
  | @fill _ _ _ _ _ other used _ ih =>
    obtain ⟨hne, hrest⟩ := List.ne_and_not_mem_of_not_mem_cons unfilled
    rw [← List.singleton_append, ← List.append_assoc]
    have hnext := (tracked.front (Ne.symm hne) used).take (nodup_front sound.nodup other used)
    exact ih hnext (sound.fill other used) hrest unremoved
  | @use _ _ _ _ _ other used found live _ ih =>
    rw [← List.singleton_append, ← List.append_assoc]
    refine ih ?_ (sound.use found) unfilled unremoved
    by_cases hkey : other = key
    · subst hkey
      rcases tracked with ⟨hheld, -⟩ | ⟨hgone, -⟩
      · obtain rfl : slot = used := Option.some.inj (hheld.symm.trans found)
        exact .self _ _
      · rw [hgone] at found
        cases found
    · exact tracked.front hkey used
  | @expire _ _ _ _ _ other used found stale _ ih =>
    refine ih ?_ (sound.without other) unfilled unremoved
    by_cases hkey : other = key
    · subst hkey
      rcases tracked with ⟨hheld, -⟩ | ⟨hgone, -⟩
      · obtain rfl : slot = used := Option.some.inj (hheld.symm.trans found)
        exact .inr ⟨by rw [lookup_without, if_pos rfl], .inl stale⟩
      · rw [hgone] at found
        cases found
    · exact tracked.without hkey
  | @remove _ _ _ _ _ other _ ih =>
    obtain ⟨hne, hrest⟩ := List.ne_and_not_mem_of_not_mem_cons unremoved
    exact ih (tracked.without (Ne.symm hne)) (sound.without other) unfilled hrest

/-- From when its slot is filled, a key is tracked. -/
theorem of_filled {filled : List (String × Slot)} {removed : List String} (sound : Sound capacity slots)
    (shifts : Shifts capacity now slots touched filled removed final)
    (last : filled.reverse.lookup key = some slot) (unremoved : key ∉ removed) :
    Tracked capacity now key slot touched final := by
  induction shifts with
  | rest => cases last
  | @fill slots _ filled _ _ other used shifts ih =>
    rw [List.reverse_cons, List.lookup_append] at last
    have hsound := sound.fill other used
    cases hrest : filled.reverse.lookup key with
    | some again =>
      rw [hrest, Option.some_or] at last
      exact (ih hsound (hrest.trans last) unremoved).mono (since_subset_append key [other] _)
    | none =>
      -- this is the last time that the slot of the key is filled
      rw [hrest, Option.none_or, lookup_cons] at last
      split at last
      · rename_i hkey
        subst hkey
        obtain rfl := Option.some.inj last
        have hself : Tracked capacity now other used [other]
            (((other, used) :: RecencyStore.without other slots).take capacity) :=
          (Tracked.self [other] _).take (nodup_front sound.nodup other used)
        exact hself.of_shifts hsound shifts (lookup_reverse_eq_none.mp hrest) unremoved
      · cases last
  | use found _ _ ih =>
    exact (ih (sound.use found) last unremoved).mono (since_subset_append key [_] _)
  | expire _ _ _ ih => exact ih (sound.without _) last unremoved
  | remove _ ih => exact ih (sound.without _) last (List.not_mem_of_not_mem_cons unremoved)

end Tracked

/-! ## Histories -/

theorem sound_of_works {store final : RecencyStore} {start last : Nat} {history : List (Occasion RecencyStore)}
    (works : Medium.Works start store history last final) (sound : Sound store.capacity store.slots) :
    final.capacity = store.capacity ∧ Sound store.capacity final.slots := by
  induction works with
  | rest => exact ⟨rfl, sound⟩
  | step _ taken _ ih =>
    obtain ⟨hcapacity, hshifts⟩ := shifts_step taken
    have hsound := sound.of_shifts hshifts
    rw [← hcapacity] at hsound ⊢
    exact ih hsound

theorem Tracked.of_works {store final : RecencyStore} {start last : Nat} {history : List (Occasion RecencyStore)}
    {before : List String} (works : Medium.Works start store history last final)
    (sound : Sound store.capacity store.slots)
    (tracked : Tracked store.capacity start key slot before store.slots)
    (leaves : ∀ o ∈ history, key ∉ o.written.map Prod.fst ∧ key ∉ o.removed) :
    Tracked store.capacity last key slot (before ++ history.flatMap Occasion.touched) final.slots := by
  induction works generalizing before with
  | rest => simpa using tracked
  | @step _ _ o _ _ later taken _ ih =>
    obtain ⟨⟨hunfilled, hunremoved⟩, hrest⟩ := List.forall_mem_cons.mp leaves
    obtain ⟨hcapacity, hshifts⟩ := shifts_step taken
    have hsound := sound.of_shifts hshifts
    have htracked := (tracked.later later).of_shifts sound hshifts hunfilled hunremoved
    rw [← hcapacity] at hsound htracked ⊢
    rw [List.flatMap_cons, ← List.append_assoc]
    exact ih hsound htracked hrest

/-- What a tracked key reads as, if there was room for all keys touched after it. -/
theorem Tracked.valueAt {time : Nat} (tracked : Tracked capacity now key slot touched slots) (le : now ≤ time)
    (few : (since key touched).toFinset.card < capacity) :
    (slots.lookup key).bind (·.valueAt time) = slot.valueAt time := by
  rcases tracked with ⟨hheld, -⟩ | ⟨hgone, hstale | hfull⟩
  · rw [hheld, Option.bind_some]
  · rw [hgone, Option.bind_none, Slot.valueAt_eq, if_pos (Slot.isStale_later le hstale)]
  · exact absurd few (Nat.not_lt.mpr hfull)

end RecencyStore

open RecencyStore in
/-- A new recency store never has more slots than there is room for. In every history, take an entry that was put,
and a key that was not put again or deleted since. As long as fewer keys than there is room for were touched after
it was touched last, a reading call finds the value of the entry up to its deadline. -/
theorem recency_store_keeps_recent_entries {capacity : Nat} {jitter : Jitter} {store : RecencyStore}
    (created : create capacity jitter = .ok store) :
    (∀ {start last : Nat} {final : RecencyStore} {history : List (Occasion RecencyStore)},
      Medium.Works start store history last final → final.slots.length ≤ capacity) ∧
    ∀ {start last : Nat} {final : RecencyStore} {past between : List (Occasion RecencyStore)}
      {writing reading : Occasion RecencyStore} {i : Nat} {entry : Entry},
      Medium.Works start store (past ++ writing :: (between ++ [reading])) last final →
      writing.Puts i entry → (∀ o ∈ between, entry.key ∉ o.written.map Prod.fst ∧ entry.key ∉ o.removed) →
      (since entry.key ((writing :: between).flatMap Occasion.touched)).toFinset.card < capacity →
      ∃ first deadline, firstSettings? past = some first ∧
        HasDeadline (if first.ttl.isZero then none else some first.ttl)
          (writing.store.jitter.factor (writing.store.jitter.drawn + i)) writing.now deadline ∧
        reading.Finds entry.key ((⟨entry.value, deadline⟩ : Slot).valueAt reading.now) := by
  obtain ⟨hslots, hsettings, rfl⟩ := create_eq created
  have hsound : Sound store.capacity store.slots := ⟨by simp [hslots], by simp [hslots]⟩
  refine ⟨fun works => (sound_of_works works hsound).2.within, ?_⟩
  intro start last final past between writing reading i entry works puts leaves few
  obtain ⟨time, before, hpast, hworks⟩ := works.split
  obtain ⟨hcapacity, hsound'⟩ := sound_of_works hpast hsound
  cases hworks with
  | step later taken hworks =>
    obtain ⟨time', before', hbetween, hreading⟩ := hworks.split
    obtain ⟨first, deadline, hfirst, hdeadline, hlookup⟩ := DatedMedium.lookup_written_of_puts taken puts
    have hsame : firstSettings? past = some first := by
      have hnew := DatedMedium.settings_of_works hpast
      rw [hfirst] at hnew
      rw [hnew]
      show _ = store.settings.or _
      rw [hsettings, Option.none_or]
    obtain ⟨hcapacity', hshifts⟩ := shifts_step taken
    rw [hcapacity] at hcapacity' hshifts
    have hremoved : entry.key ∉ writing.removed := by
      rw [DatedMedium.removed_of_puts puts]
      exact List.not_mem_nil
    have hwritten : Tracked store.capacity writing.now entry.key ⟨entry.value, deadline⟩ writing.touched
        writing.step.store.slots := .of_filled hsound' hshifts hlookup hremoved
    have hsound'' := hsound'.of_shifts hshifts
    rw [← hcapacity'] at hwritten hsound'' few
    have htracked := Tracked.of_works hbetween hsound'' hwritten leaves
    cases hreading with
    | step later' taken' _ =>
      have hvalue := htracked.valueAt later' few
      refine ⟨first, deadline, hsame, hdeadline, ?_⟩
      rw [← hvalue]
      exact DatedMedium.finds_slot taken' entry.key

/-! ### An example -/

def roomForTwo : RecencyStore := { capacity := 2, capacity_pos := by decide }

def settingUp : Occasion RecencyStore := .asking 0 roomForTwo (.init minute)

def puttingFirst : Occasion RecencyStore := .asking 0 settingUp.step.store (.put ⟨"a", "1"⟩)

def puttingSecond : Occasion RecencyStore := .asking 0 puttingFirst.step.store (.put ⟨"b", "2"⟩)

def readingFirst : Occasion RecencyStore := .asking 0 puttingSecond.step.store (.get "a")

def puttingThird : Occasion RecencyStore := .asking 0 readingFirst.step.store (.put ⟨"c", "3"⟩)

def readingAgain : Occasion RecencyStore := .asking 0 puttingThird.step.store (.get "a")

/-- The first entry was read before the third was put, so it outlasts the second. -/
theorem recency_store_kept_entry_read_again :
    RecencyStore.create 2 .steady = .ok roomForTwo ∧ readingAgain.Answers (.get "a") (.ok "1") := by
  have created : RecencyStore.create 2 .steady = .ok roomForTwo := rfl
  obtain ⟨-, hkeeps⟩ := recency_store_keeps_recent_entries created
  have hworks : Medium.Works 0 roomForTwo
      ([settingUp] ++ puttingFirst :: ([puttingSecond, readingFirst, puttingThird] ++ [readingAgain]))
      0 readingAgain.step.store :=
    .asking (Nat.le_refl 0) (.asking (Nat.le_refl 0) (.asking (Nat.le_refl 0)
      (.asking (Nat.le_refl 0) (.asking (Nat.le_refl 0) (.asking (Nat.le_refl 0) .rest)))))
  have hputs : puttingFirst.Puts 0 ⟨"a", "1"⟩ := ⟨_, .intro (.inl rfl) rfl, rfl, List.forall_mem_nil _⟩
  obtain ⟨first, deadline, hfirst, hdeadline, found, hfound, hreading⟩ :=
    hkeeps hworks hputs (by decide) (by decide)
  obtain rfl : minute = first := Option.some.inj hfirst
  obtain ⟨drawn, hdrawn, rfl⟩ := hdeadline
  obtain rfl : drawn = minute.ttl := Option.some.inj (hdrawn.symm.trans (by decide))
  have hreply : Call.replyFrom found (.get "a") = some (.ok "1") := by
    simp only [Call.replyFrom, hfound]
    rfl
  exact ⟨created, .intro (.inl rfl) (hreading _ _ (.inl rfl) hreply)⟩

end ReadThrough
