import Mathlib.Tactic.Ring
import ReadThrough.Proofs.Store.PlainMap

/-! # The in-process stores are plain maps

As long as nothing has reached its deadline, and there is room for all keys.

* `Settings.Scales` and `Settings.Fits`: times to live with which no call breaks down;
* for each of the stores, `Mirrors` says what it has in common with a map, and `leadsTo_start` goes through the
  calls;
* `in_process_stores_act_as_map` puts the two together.
-/

namespace ReadThrough
set_option autoImplicit false

/-! ## Times to live that fit the clock -/

/-- Scaled and rounded, a duration grows by a tenth at most, and does not vanish. -/
theorem Duration.scale?_of_lt {duration : Duration} (positive : 0 < duration.nanos)
    (lt : 11 * duration.nanos + 5 < 10 * (UInt64.size * nanosPerSecond)) (factor : Factor) :
    ∃ scaled, duration.scale? factor = some scaled ∧ 0 < scaled.nanos ∧
      10 * scaled.nanos ≤ 11 * duration.nanos + 5 := by
  obtain ⟨num, den, den_pos, low, high⟩ := factor
  have hdouble : 0 < 2 * den := by omega
  have hround : (2 * duration.nanos * num + den) / (2 * den) * (2 * den) ≤ 2 * duration.nanos * num + den :=
    Nat.div_mul_le_self _ _
  generalize hscaled : (2 * duration.nanos * num + den) / (2 * den) = scaled at hround
  have hle : 10 * scaled ≤ 11 * duration.nanos + 5 := by
    refine Nat.le_of_mul_le_mul_right (c := 2 * den) ?_ hdouble
    calc 10 * scaled * (2 * den) = 10 * (scaled * (2 * den)) := Nat.mul_assoc _ _ _
      _ ≤ 10 * (2 * duration.nanos * num + den) := Nat.mul_le_mul_left _ hround
      _ = 2 * duration.nanos * (10 * num) + 10 * den := by ring
      _ ≤ 2 * duration.nanos * (11 * den) + 10 * den :=
        Nat.add_le_add_right (Nat.mul_le_mul_left _ high) _
      _ = (11 * duration.nanos + 5) * (2 * den) := by ring
  have hpos : 0 < scaled := by
    rw [← hscaled]
    refine Nat.div_pos ?_ hdouble
    have hnum : den ≤ 2 * num := by omega
    have hgrown : 1 * (2 * num) ≤ duration.nanos * (2 * num) := Nat.mul_le_mul_right _ positive
    have hcomm : duration.nanos * (2 * num) = 2 * duration.nanos * num := by ring
    omega
  have hsmall : scaled < UInt64.size * nanosPerSecond := by omega
  refine ⟨⟨scaled, hsmall⟩, ?_, hpos, hle⟩
  simp only [scale?, ofNanos?, hscaled]
  exact dif_pos hsmall

/-- Stretched by any factor, the time to live of these settings is a duration. -/
def Settings.Scales (settings : Settings) : Prop :=
  11 * settings.ttl.nanos + 5 < 10 * (UInt64.size * nanosPerSecond)

/-- Stretched by any factor, the time to live of these settings ends within the clock, from any time up to this
one. -/
def Settings.Fits (time : Nat) (settings : Settings) : Prop :=
  10 * time + 11 * settings.ttl.nanos + 5 < 10 * clockLimit

theorem Settings.Fits.earlier {settings : Settings} {time later : Nat} (h : settings.Fits later)
    (le : time ≤ later) : settings.Fits time := by
  unfold Settings.Fits at h ⊢
  omega

theorem Settings.Fits.scales {settings : Settings} {time : Nat} (h : settings.Fits time) : settings.Scales := by
  have hclock : clockLimit < UInt64.size * nanosPerSecond := by decide
  unfold Settings.Fits at h
  unfold Settings.Scales
  omega

theorem Settings.Scales.boundedLifetime {settings : Settings} (scales : settings.Scales) (factor : Factor) :
    ∃ ttl, settings.boundedLifetime factor = .ok ttl ∧ 0 < ttl.nanos := by
  have hbase : 0 < settings.boundedBase.nanos ∧
      11 * settings.boundedBase.nanos + 5 < 10 * (UInt64.size * nanosPerSecond) := by
    unfold Settings.boundedBase
    split
    · decide
    · rename_i hzero
      have hne : settings.ttl.nanos ≠ 0 := by simpa [Duration.isZero] using hzero
      exact ⟨Nat.pos_of_ne_zero hne, scales⟩
  obtain ⟨ttl, hscaled, hpos, -⟩ := Duration.scale?_of_lt hbase.1 hbase.2 factor
  exact ⟨ttl, by simp [Settings.boundedLifetime, scaledTtl, hscaled], hpos⟩

theorem Settings.Fits.deadline {settings : Settings} {now : Nat} (fits : settings.Fits now) (factor : Factor) :
    ∃ ttl deadline, settings.lifetime factor = .ok ttl ∧ RecencyStore.deadline now ttl = .ok deadline ∧
      ∀ time, deadline = some time → now < time := by
  unfold Settings.lifetime
  split
  · exact ⟨none, none, rfl, rfl, fun _ h => by cases h⟩
  · rename_i hzero
    have hne : settings.ttl.nanos ≠ 0 := by simpa [Duration.isZero] using hzero
    obtain ⟨ttl, hscaled, hpos, hle⟩ := Duration.scale?_of_lt (Nat.pos_of_ne_zero hne) fits.scales factor
    have hwithin : now + ttl.nanos < clockLimit := by
      unfold Settings.Fits at fits
      omega
    refine ⟨some ttl, some (now + ttl.nanos), by simp [scaledTtl, hscaled, Except.map], ?_, ?_⟩
    · simp [RecencyStore.deadline, hwithin]
    · intro time htime
      have hend : now + ttl.nanos = time := Option.some.inj htime
      omega

/-! ## The expiring store -/

namespace ExpiringStore

variable {store : ExpiringStore} {map : PlainMap} {now : Nat} {key : String}

def contents (store : ExpiringStore) (key : String) : Option String := store.entries[key]?.map DatedValue.value

/-- All deadlines lie ahead. -/
def Fresh (now : Nat) (store : ExpiringStore) : Prop :=
  ∀ (key : String) (dated : DatedValue), store.entries[key]? = some dated → now < dated.deadline

structure Mirrors (map : PlainMap) (store : ExpiringStore) : Prop where
  settings : store.settings = map.settings
  reads (key : String) : store.contents key = map.entries[key]?

theorem contents_delete (store : ExpiringStore) (deleted key : String) :
    (store.delete deleted).contents key = if deleted = key then none else store.contents key := by
  unfold contents delete
  rw [Std.TreeMap.getElem?_erase]
  by_cases h : deleted = key <;> simp [h]

theorem Mirrors.get?_eq (mirrors : Mirrors map store) (fresh : Fresh now store) (key : String) :
    store.get? now key = map.entries[key]? := by
  rw [← mirrors.reads, get?, contents]
  cases h : store.entries[key]? with
  | none => rfl
  | some dated => simp [fresh key dated h]

theorem Fresh.delete (fresh : Fresh now store) (deleted : String) : Fresh now (store.delete deleted) := by
  intro key dated h
  rw [ExpiringStore.delete, Std.TreeMap.getElem?_erase] at h
  split at h
  · cases h
  · exact fresh key dated h

theorem Fresh.deleteAll (fresh : Fresh now store) (keys : List String) : Fresh now (store.deleteAll keys) := by
  induction keys generalizing store with
  | nil => exact fresh
  | cons first rest ih => exact ih (fresh.delete first)

theorem Mirrors.delete (mirrors : Mirrors map store) (deleted : String) :
    Mirrors (map.erase deleted) (store.delete deleted) := by
  refine ⟨mirrors.settings, fun key => ?_⟩
  rw [PlainMap.getElem?_erase, contents_delete, mirrors.reads]

theorem Mirrors.deleteAll (mirrors : Mirrors map store) (keys : List String) :
    Mirrors (keys.foldl PlainMap.erase map) (store.deleteAll keys) :=
  List.foldl_rel mirrors fun key _ _ _ h => h.delete key

theorem deleteAll_append (store : ExpiringStore) (keys others : List String) :
    store.deleteAll (keys ++ others) = (store.deleteAll keys).deleteAll others :=
  List.foldl_append

theorem Mirrors.sweep (mirrors : Mirrors map store) (fresh : Fresh now store) (segments : String) :
    Mirrors (map.sweep segments) (store.deleteAll (store.sweepKeys now segments)) := by
  have hkeys : ∀ key, key ∈ store.sweepKeys now segments ↔
      isUnder key segments ∧ map.entries[key]?.isSome := by
    intro key
    rw [mem_sweepKeys, mirrors.get?_eq fresh, Option.isSome_iff_exists]
  refine ⟨(mirrors.deleteAll _).settings.trans ?_, fun key => ?_⟩
  · exact PlainMap.settings_foldl PlainMap.erase (fun _ _ => rfl) _ map
  · rw [← PlainMap.getElem?_eraseAll_eq_sweep hkeys]
    exact (mirrors.deleteAll _).reads key

theorem Mirrors.put {settings : Settings} (mirrors : Mirrors map store) (fresh : Fresh now store)
    (ready : map.settings = some settings) (scales : settings.Scales) (entry : Entry) :
    ∃ next, store.put now entry = (next, .ok ()) ∧ Mirrors (map.insert entry) next ∧ Fresh now next := by
  obtain ⟨ttl, httl, hpos⟩ := scales.boundedLifetime store.jitter.next
  have hready : store.settings = some settings := mirrors.settings.trans ready
  simp only [ExpiringStore.put, hready, httl]
  refine ⟨_, rfl, ⟨ready.symm, fun key => ?_⟩, fun key dated h => ?_⟩
  · rw [PlainMap.getElem?_insert, ← mirrors.reads, contents, contents, Std.TreeMap.getElem?_insert]
    by_cases h : entry.key = key <;> simp [h]
  · dsimp only at h
    rw [Std.TreeMap.getElem?_insert] at h
    split at h
    · obtain rfl := Option.some.inj h
      exact Nat.lt_add_of_pos_right hpos
    · exact fresh key dated h

theorem Mirrors.putAll {settings : Settings} (mirrors : Mirrors map store) (fresh : Fresh now store)
    (ready : map.settings = some settings) (scales : settings.Scales) (entries : List Entry) :
    ∃ next, store.putAll now entries = (next, .ok ()) ∧ Mirrors (entries.foldl PlainMap.insert map) next ∧
      Fresh now next := by
  induction entries generalizing map store with
  | nil => exact ⟨store, rfl, mirrors, fresh⟩
  | cons entry rest ih =>
    obtain ⟨next, hput, hmirrors, hfresh⟩ := mirrors.put fresh ready scales entry
    obtain ⟨last, hlast, hdone⟩ := ih hmirrors hfresh ready
    exact ⟨last, by rw [ExpiringStore.putAll, hput]; exact hlast, hdone⟩

theorem put_of_unready (unready : store.settings = none) (entry : Entry) :
    store.put now entry = (store, .error notReady) := by
  rw [put, unready]

theorem Mirrors.init (mirrors : Mirrors map store) (settings : Settings) :
    Mirrors (map.after (.init settings)) (store.init settings).1 := by
  have hsettings := mirrors.settings
  unfold ExpiringStore.init
  cases h : store.settings with
  | none => exact ⟨by simp [PlainMap.after, ← hsettings, h], mirrors.reads⟩
  | some first => exact ⟨by simp [PlainMap.after, ← hsettings, h], mirrors.reads⟩

theorem Fresh.init (fresh : Fresh now store) (settings : Settings) : Fresh now (store.init settings).1 := by
  unfold ExpiringStore.init
  split <;> exact fresh

/-- Every call leads to the reply of the map. -/
theorem leadsTo_start {k : ReplyKind} {call : Call k} (mirrors : Mirrors map store) (fresh : Fresh now store)
    (scales : map.Under Settings.Scales) :
    Fresh now (store.start now call).store ∧
      (store.start now call).operation.LeadsTo (Mirrors (map.after call)) deleteAll (map.reply .memory call)
        (store.start now call).store := by
  have hget := mirrors.get?_eq fresh
  cases call with
  | init settings => exact ⟨fresh.init settings, rfl, mirrors.init settings⟩
  | contains key =>
    refine ⟨fresh, ?_, mirrors⟩
    rw [PlainMap.reply, hget, PlainMap.contains_eq]
  | containsAll keys =>
    refine ⟨fresh, ?_, mirrors⟩
    simp only [PlainMap.reply, hget, PlainMap.contains_eq]
  | get key =>
    simp only [start, PlainMap.reply, hget]
    cases map.entries[key]? with
    | none => exact ⟨fresh, rfl, mirrors⟩
    | some value => exact ⟨fresh, rfl, mirrors⟩
  | getAll keys => exact ⟨fresh, congrArg Except.ok (List.map_congr_left fun key _ => hget key), mirrors⟩
  | put entry =>
    simp only [start, PlainMap.reply, PlainMap.after]
    cases hready : map.settings with
    | none =>
      rw [put_of_unready (mirrors.settings.trans hready)]
      exact ⟨fresh, rfl, mirrors⟩
    | some settings =>
      obtain ⟨next, hput, hmirrors, hfresh⟩ := mirrors.put fresh hready (scales settings hready) entry
      rw [hput]
      exact ⟨hfresh, rfl, hmirrors⟩
  | putAll entries =>
    simp only [start, PlainMap.reply, PlainMap.after]
    cases hready : map.settings with
    | none =>
      cases entries with
      | nil => exact ⟨fresh, rfl, mirrors⟩
      | cons entry rest =>
        rw [putAll, put_of_unready (mirrors.settings.trans hready)]
        exact ⟨fresh, rfl, mirrors⟩
    | some settings =>
      obtain ⟨next, hput, hmirrors, hfresh⟩ := mirrors.putAll fresh hready (scales settings hready) entries
      rw [hput]
      exact ⟨hfresh, by simp, hmirrors⟩
  | delete key => exact ⟨fresh.delete key, rfl, mirrors.delete key⟩
  | deleteAll keys => exact ⟨fresh.deleteAll keys, rfl, mirrors.deleteAll keys⟩
  | sweep segments =>
    simp only [start, sweepOn_store, sweepOn_operation]
    exact ⟨fresh.deleteAll _, Operation.leadsTo_afterPortion deleteAll_append (mirrors.sweep fresh segments)⟩
  | clear =>
    simp only [start, mirrors.settings, PlainMap.reply, PlainMap.after]
    cases hready : map.settings with
    | none => exact ⟨fresh, rfl, mirrors⟩
    | some settings =>
      rw [sweepOn_store, sweepOn_operation]
      exact ⟨fresh.deleteAll _,
        Operation.leadsTo_afterPortion deleteAll_append (mirrors.sweep fresh settings.scope)⟩

instance : PlainMedium ExpiringStore where
  inOneGo := inOneGo
  kind := .memory
  contents := contents
  Fresh := Fresh
  Mirrors _ := Mirrors
  Bears _ := Settings.Scales
  deleteAll := deleteAll
  contents_eq mirrors := mirrors.reads
  bears_earlier scales _ := scales
  leadsTo_start mirrors fresh scales _ := leadsTo_start mirrors fresh scales
  fresh_deleteAll := Fresh.deleteAll
  deleteAll_append := deleteAll_append
  sweepOn_store := sweepOn_store
  sweepOn_operation := sweepOn_operation

end ExpiringStore

/-! ## The recency store -/

namespace RecencyStore

variable {store : RecencyStore} {map : PlainMap} {room : Finset String} {now : Nat} {key : String}

def contents (store : RecencyStore) (key : String) : Option String := (store.slots.lookup key).map Slot.value

/-- No slot is stale. -/
def Fresh (now : Nat) (store : RecencyStore) : Prop := ∀ entry ∈ store.slots, entry.2.isStale now = false

/-- Each key has one slot, all keys are among these, and there is room for all of them. -/
structure Mirrors (room : Finset String) (map : PlainMap) (store : RecencyStore) : Prop where
  settings : store.settings = map.settings
  reads (key : String) : store.contents key = map.entries[key]?
  nodup : (store.slots.map Prod.fst).Nodup
  within : ∀ entry ∈ store.slots, entry.1 ∈ room
  enough : room.card ≤ store.capacity

theorem Mirrors.congr {map' : PlainMap} (mirrors : Mirrors room map store)
    (settings : map.settings = map'.settings) (entries : ∀ key : String, map.entries[key]? = map'.entries[key]?) :
    Mirrors room map' store where
  settings := mirrors.settings.trans settings
  reads key := (mirrors.reads key).trans (entries key)
  nodup := mirrors.nodup
  within := mirrors.within
  enough := mirrors.enough

theorem lookup_cons (name key : String) (slot : Slot) (slots : List (String × Slot)) :
    ((name, slot) :: slots).lookup key = if name = key then some slot else slots.lookup key := by
  rw [List.lookup_cons]
  by_cases h : name = key
  · simp [h]
  · simp [h, beq_false_of_ne (Ne.symm h)]

theorem lookup_without (deleted key : String) (slots : List (String × Slot)) :
    (without deleted slots).lookup key = if deleted = key then none else slots.lookup key := by
  induction slots with
  | nil => simp [without]
  | cons first rest ih =>
    obtain ⟨name, slot⟩ := first
    by_cases hname : name = deleted
    · have hdrops : without deleted ((name, slot) :: rest) = without deleted rest := by simp [without, hname]
      rw [hdrops, ih, lookup_cons, hname]
      split <;> rfl
    · have hkeeps : without deleted ((name, slot) :: rest) = (name, slot) :: without deleted rest := by
        simp [without, hname]
      rw [hkeeps, lookup_cons, lookup_cons, ih]
      by_cases hkey : name = key
      · simp [hkey, Ne.symm (hkey ▸ hname)]
      · simp [hkey]

/-- A key has a slot if it can be read. -/
theorem isSome_contents : (store.contents key).isSome ↔ ∃ slot, (key, slot) ∈ store.slots := by
  constructor
  · intro h
    obtain ⟨value, hvalue⟩ := Option.isSome_iff_exists.mp h
    obtain ⟨slot, hslot, -⟩ := Option.map_eq_some_iff.mp hvalue
    exact ⟨slot, mem_of_lookup hslot⟩
  · rintro ⟨slot, hslot⟩
    rw [contents, Option.isSome_map, ← Bool.not_eq_false, Option.isSome_eq_false_iff, Option.isNone_iff_eq_none,
      List.lookup_eq_none_iff]
    intro h
    simpa using h _ hslot

theorem without_keys (deleted : String) (slots : List (String × Slot)) :
    ((without deleted slots).map Prod.fst).Sublist (slots.map Prod.fst) :=
  List.filter_sublist.map Prod.fst

/-! ### Deleting -/

theorem Mirrors.delete (mirrors : Mirrors room map store) (deleted : String) :
    Mirrors room (map.erase deleted) (store.delete deleted) where
  settings := mirrors.settings
  reads key := by
    rw [PlainMap.getElem?_erase, ← mirrors.reads, contents, contents, RecencyStore.delete, lookup_without]
    by_cases h : deleted = key <;> simp [h]
  nodup := mirrors.nodup.sublist (without_keys deleted store.slots)
  within entry hentry := mirrors.within entry (mem_without.mp hentry).1
  enough := mirrors.enough

theorem Mirrors.deleteAll (mirrors : Mirrors room map store) (keys : List String) :
    Mirrors room (keys.foldl PlainMap.erase map) (store.deleteAll keys) :=
  List.foldl_rel mirrors fun key _ _ _ h => h.delete key

theorem Fresh.deleteAll (fresh : Fresh now store) (keys : List String) : Fresh now (store.deleteAll keys) :=
  fun entry hentry => fresh entry (mem_deleteAll.mp hentry).1

theorem deleteAll_append (store : RecencyStore) (keys others : List String) :
    store.deleteAll (keys ++ others) = (store.deleteAll keys).deleteAll others :=
  List.foldl_append

theorem Mirrors.sweep (mirrors : Mirrors room map store) (segments : String) :
    Mirrors room (map.sweep segments) (store.deleteAll (store.sweepKeys segments)) := by
  have hkeys : ∀ key, key ∈ store.sweepKeys segments ↔ isUnder key segments ∧ map.entries[key]?.isSome := by
    intro key
    rw [mem_sweepKeys, ← mirrors.reads, isSome_contents]
  refine (mirrors.deleteAll _).congr ?_ (PlainMap.getElem?_eraseAll_eq_sweep hkeys)
  exact PlainMap.settings_foldl PlainMap.erase (fun _ _ => rfl) _ map

/-! ### Using a slot -/

/-- There is room, so using a slot takes no other one away. -/
theorem Mirrors.place_slots (mirrors : Mirrors room map store) (inside : key ∈ room) (slot : Slot) :
    (store.place key slot).slots = (key, slot) :: without key store.slots := by
  have hkeys : (((key, slot) :: without key store.slots).map Prod.fst).Nodup := by
    rw [List.map_cons, List.nodup_cons]
    refine ⟨fun hmem => ?_, mirrors.nodup.sublist (without_keys key store.slots)⟩
    obtain ⟨entry, hentry, hkey⟩ := List.mem_map.mp hmem
    exact (mem_without.mp hentry).2 hkey
  have hinside : (((key, slot) :: without key store.slots).map Prod.fst).toFinset ⊆ room := by
    intro other hother
    rw [List.mem_toFinset, List.map_cons, List.mem_cons] at hother
    rcases hother with rfl | hrest
    · exact inside
    · obtain ⟨entry, hentry, rfl⟩ := List.mem_map.mp hrest
      exact mirrors.within entry (mem_without.mp hentry).1
  refine List.take_of_length_le ?_
  calc ((key, slot) :: without key store.slots).length
      = (((key, slot) :: without key store.slots).map Prod.fst).length := (List.length_map _).symm
    _ = (((key, slot) :: without key store.slots).map Prod.fst).toFinset.card :=
        (List.toFinset_card_of_nodup hkeys).symm
    _ ≤ room.card := Finset.card_le_card hinside
    _ ≤ store.capacity := mirrors.enough

theorem Mirrors.place (mirrors : Mirrors room map store) (inside : key ∈ room) (slot : Slot) :
    Mirrors room (map.insert ⟨key, slot.value⟩) (store.place key slot) where
  settings := mirrors.settings
  reads other := by
    rw [contents, mirrors.place_slots inside, lookup_cons, lookup_without, PlainMap.getElem?_insert,
      ← mirrors.reads, contents]
    by_cases h : key = other <;> simp [h]
  nodup := by
    rw [mirrors.place_slots inside, List.map_cons, List.nodup_cons]
    refine ⟨fun hmem => ?_, mirrors.nodup.sublist (without_keys key store.slots)⟩
    obtain ⟨entry, hentry, hkey⟩ := List.mem_map.mp hmem
    exact (mem_without.mp hentry).2 hkey
  within entry hentry := by
    rcases mem_place hentry with rfl | hold
    · exact inside
    · exact mirrors.within entry hold
  enough := mirrors.enough

theorem Fresh.place {slot : Slot} (fresh : Fresh now store) (live : slot.isStale now = false) (key : String) :
    Fresh now (store.place key slot) := by
  intro entry hentry
  rcases mem_place hentry with rfl | hold
  · exact live
  · exact fresh entry hold

/-! ### Looking -/

/-- Looking at a key is using the slot it has. -/
theorem Mirrors.look (mirrors : Mirrors room map store) (fresh : Fresh now store) (key : String) :
    ∃ next, store.look now key = (next, map.entries[key]?) ∧ Mirrors room map next ∧ Fresh now next := by
  have hread := mirrors.reads key
  unfold RecencyStore.look
  cases hslot : store.slots.lookup key with
  | none =>
    have hnone : map.entries[key]? = none := by rw [← hread, contents, hslot]; rfl
    exact ⟨store, by rw [hnone], mirrors, fresh⟩
  | some slot =>
    have hsome : map.entries[key]? = some slot.value := by rw [← hread, contents, hslot]; rfl
    have hmem : (key, slot) ∈ store.slots := mem_of_lookup hslot
    have hlive : slot.isStale now = false := fresh _ hmem
    have hinside : key ∈ room := mirrors.within _ hmem
    have hplaced : { store with slots := (key, slot) :: without key store.slots } = store.place key slot := by
      rw [← mirrors.place_slots hinside slot]
      rfl
    refine ⟨store.place key slot, ?_, (mirrors.place hinside slot).congr rfl fun other => ?_,
      fresh.place hlive key⟩
    · rw [← hplaced, hsome]
      simp [hlive]
    · rw [PlainMap.getElem?_insert]
      split
      · rename_i heq
        exact heq ▸ hsome.symm
      · rfl

theorem Mirrors.lookAll (mirrors : Mirrors room map store) (fresh : Fresh now store) (keys : List String) :
    ∃ next, store.lookAll now keys = (next, keys.map fun key => map.entries[key]?) ∧ Mirrors room map next ∧
      Fresh now next := by
  induction keys generalizing store with
  | nil => exact ⟨store, rfl, mirrors, fresh⟩
  | cons key rest ih =>
    obtain ⟨next, hlook, hmirrors, hfresh⟩ := mirrors.look fresh key
    obtain ⟨last, hlast, hdone⟩ := ih hmirrors hfresh
    exact ⟨last, by simp [RecencyStore.lookAll, hlook, hlast], hdone⟩

theorem Mirrors.containsAll (mirrors : Mirrors room map store) (fresh : Fresh now store) (keys : List String) :
    ∃ next, store.containsAll now keys = (next, keys.all map.entries.contains) ∧ Mirrors room map next ∧
      Fresh now next := by
  induction keys generalizing store with
  | nil => exact ⟨store, rfl, mirrors, fresh⟩
  | cons key rest ih =>
    obtain ⟨next, hlook, hmirrors, hfresh⟩ := mirrors.look fresh key
    rw [PlainMap.contains_eq] at ih ⊢
    rw [RecencyStore.containsAll, hlook]
    cases hvalue : map.entries[key]? with
    | none =>
      refine ⟨next, ?_, hmirrors, hfresh⟩
      simp only [List.all_cons, hvalue, Option.isSome_none, Bool.false_and]
    | some value =>
      obtain ⟨last, hlast, hdone⟩ := ih hmirrors hfresh
      refine ⟨last, ?_, hdone⟩
      simp only [List.all_cons, hvalue, Option.isSome_some, Bool.true_and, hlast]

/-! ### Putting -/

theorem newSlot_of_fits {settings : Settings} (ready : store.settings = some settings) (fits : settings.Fits now)
    (value : String) :
    ∃ slot, store.newSlot now value = ({ store with jitter := store.jitter.advance }, .ok slot) ∧
      slot.value = value ∧ slot.isStale now = false := by
  obtain ⟨ttl, deadline, hlifetime, hdeadline, hahead⟩ := fits.deadline store.jitter.next
  have hlive : (⟨value, deadline⟩ : Slot).isStale now = false := by
    cases deadline with
    | none => rfl
    | some time => simpa [Slot.isStale] using hahead time rfl
  exact ⟨⟨value, deadline⟩, by simp [RecencyStore.newSlot, ready, hlifetime, hdeadline], rfl, hlive⟩

theorem newSlots_of_fits {settings : Settings} (ready : store.settings = some settings) (fits : settings.Fits now)
    (entries : List Entry) :
    ∃ jitter slots, store.newSlots now entries = ({ store with jitter := jitter }, .ok slots) ∧
      (slots.map fun entry => (⟨entry.1, entry.2.value⟩ : Entry)) = entries ∧
      ∀ entry ∈ slots, entry.2.isStale now = false := by
  induction entries generalizing store with
  | nil => exact ⟨store.jitter, [], rfl, rfl, List.forall_mem_nil _⟩
  | cons entry rest ih =>
    obtain ⟨slot, hnew, hvalue, hlive⟩ := newSlot_of_fits ready fits entry.value
    obtain ⟨jitter, slots, hrest, hentries, hlives⟩ := @ih { store with jitter := store.jitter.advance } ready
    refine ⟨jitter, (entry.key, slot) :: slots, by simp [RecencyStore.newSlots, hnew, hrest], ?_,
      List.forall_mem_cons.mpr ⟨hlive, hlives⟩⟩
    rw [List.map_cons, hentries, hvalue]

theorem Mirrors.drawn (mirrors : Mirrors room map store) (jitter : Jitter) :
    Mirrors room map { store with jitter := jitter } :=
  ⟨mirrors.settings, mirrors.reads, mirrors.nodup, mirrors.within, mirrors.enough⟩

theorem Mirrors.put {settings : Settings} (mirrors : Mirrors room map store) (fresh : Fresh now store)
    (ready : map.settings = some settings) (fits : settings.Fits now) {entry : Entry}
    (inside : entry.key ∈ room) :
    ∃ next, store.put now entry = (next, .ok ()) ∧ Mirrors room (map.insert entry) next ∧ Fresh now next := by
  obtain ⟨slot, hnew, hvalue, hlive⟩ := newSlot_of_fits (mirrors.settings.trans ready) fits entry.value
  have hfresh : Fresh now { store with jitter := store.jitter.advance } := fresh
  refine ⟨_, by rw [RecencyStore.put, hnew], ?_, hfresh.place hlive _⟩
  have hplaced := (mirrors.drawn store.jitter.advance).place inside slot
  rwa [hvalue] at hplaced

theorem Mirrors.putAll {settings : Settings} (mirrors : Mirrors room map store) (fresh : Fresh now store)
    (ready : map.settings = some settings) (fits : settings.Fits now) {entries : List Entry}
    (inside : ∀ key ∈ entries.map Entry.key, key ∈ room) :
    ∃ next, store.putAll now entries = (next, .ok ()) ∧ Mirrors room (entries.foldl PlainMap.insert map) next ∧
      Fresh now next := by
  obtain ⟨jitter, slots, hnew, rfl, hlives⟩ := newSlots_of_fits (mirrors.settings.trans ready) fits entries
  have hfresh : Fresh now { store with jitter := jitter } := fresh
  refine ⟨_, by rw [RecencyStore.putAll, hnew], ?_⟩
  rw [List.foldl_map]
  refine List.foldl_rel (r := fun map store => Mirrors room map store ∧ Fresh now store)
    ⟨mirrors.drawn jitter, hfresh⟩ ?_
  rintro entry hentry _ _ ⟨hsame, hlive⟩
  have hinside : entry.1 ∈ room :=
    inside entry.1 (List.mem_map.mpr ⟨_, List.mem_map.mpr ⟨entry, hentry, rfl⟩, rfl⟩)
  exact ⟨hsame.place hinside entry.2, hlive.place (hlives entry hentry) entry.1⟩

theorem newSlot_of_unready (unready : store.settings = none) (value : String) :
    store.newSlot now value = (store, .error notReady) := by
  rw [newSlot, unready]

theorem Mirrors.init (mirrors : Mirrors room map store) (settings : Settings) :
    Mirrors room (map.after (.init settings)) (store.init settings).1 := by
  have hsettings := mirrors.settings
  have hafter : (store.init settings).1.settings = (map.after (.init settings)).settings := by
    unfold RecencyStore.init
    cases h : store.settings <;> simp [PlainMap.after, ← hsettings, h]
  have hsame : ∃ first, (store.init settings).1 = { store with settings := first } := by
    unfold RecencyStore.init
    split
    · exact ⟨some settings, rfl⟩
    · exact ⟨store.settings, rfl⟩
  obtain ⟨first, hfirst⟩ := hsame
  rw [hfirst] at hafter ⊢
  exact ⟨hafter, mirrors.reads, mirrors.nodup, mirrors.within, mirrors.enough⟩

theorem Fresh.init (fresh : Fresh now store) (settings : Settings) : Fresh now (store.init settings).1 := by
  unfold RecencyStore.init
  split <;> exact fresh

/-! ### Calls -/

/-- Every call leads to the reply of the map. -/
theorem leadsTo_start {k : ReplyKind} {call : Call k} (mirrors : Mirrors room map store)
    (fresh : Fresh now store) (fits : map.Under (Settings.Fits now))
    (within : ∀ key ∈ map.putKeys call, key ∈ room) :
    Fresh now (store.start now call).store ∧
      (store.start now call).operation.LeadsTo (Mirrors room (map.after call)) deleteAll (map.reply .lru call)
        (store.start now call).store := by
  cases call with
  | init settings => exact ⟨fresh.init settings, rfl, mirrors.init settings⟩
  | contains key =>
    obtain ⟨next, hlook, hmirrors, hfresh⟩ := mirrors.look fresh key
    simp only [start, hlook, PlainMap.reply, PlainMap.contains_eq]
    exact ⟨hfresh, rfl, hmirrors⟩
  | containsAll keys =>
    obtain ⟨next, hlook, hmirrors, hfresh⟩ := mirrors.containsAll fresh keys
    simp only [start, hlook, PlainMap.reply]
    exact ⟨hfresh, rfl, hmirrors⟩
  | get key =>
    obtain ⟨next, hlook, hmirrors, hfresh⟩ := mirrors.look fresh key
    simp only [start, hlook, PlainMap.reply]
    cases map.entries[key]? with
    | none => exact ⟨hfresh, rfl, hmirrors⟩
    | some value => exact ⟨hfresh, rfl, hmirrors⟩
  | getAll keys =>
    obtain ⟨next, hlook, hmirrors, hfresh⟩ := mirrors.lookAll fresh keys
    simp only [start, hlook, PlainMap.reply]
    exact ⟨hfresh, rfl, hmirrors⟩
  | put entry =>
    simp only [start, PlainMap.reply, PlainMap.after]
    cases hready : map.settings with
    | none =>
      rw [put, newSlot_of_unready (mirrors.settings.trans hready)]
      exact ⟨fresh, rfl, mirrors⟩
    | some settings =>
      have hinside : entry.key ∈ room := within _ (by simp [PlainMap.putKeys, hready])
      obtain ⟨next, hput, hmirrors, hfresh⟩ := mirrors.put fresh hready (fits settings hready) hinside
      rw [hput]
      exact ⟨hfresh, rfl, hmirrors⟩
  | putAll entries =>
    simp only [start, PlainMap.reply, PlainMap.after]
    cases hready : map.settings with
    | none =>
      cases entries with
      | nil => exact ⟨fresh, rfl, mirrors⟩
      | cons entry rest =>
        rw [putAll, newSlots, newSlot_of_unready (mirrors.settings.trans hready)]
        exact ⟨fresh, rfl, mirrors⟩
    | some settings =>
      have hinside : ∀ key ∈ entries.map Entry.key, key ∈ room := by simpa [PlainMap.putKeys, hready] using within
      obtain ⟨next, hput, hmirrors, hfresh⟩ := mirrors.putAll fresh hready (fits settings hready) hinside
      rw [hput]
      exact ⟨hfresh, by simp, hmirrors⟩
  | delete key => exact ⟨fresh.deleteAll [key], rfl, mirrors.delete key⟩
  | deleteAll keys => exact ⟨fresh.deleteAll keys, rfl, mirrors.deleteAll keys⟩
  | sweep segments =>
    simp only [start, sweepOn_store, sweepOn_operation]
    exact ⟨fresh.deleteAll _, Operation.leadsTo_afterPortion deleteAll_append (mirrors.sweep segments)⟩
  | clear =>
    simp only [start, mirrors.settings, PlainMap.reply, PlainMap.after]
    cases hready : map.settings with
    | none => exact ⟨fresh, rfl, mirrors⟩
    | some settings =>
      rw [sweepOn_store, sweepOn_operation]
      exact ⟨fresh.deleteAll _, Operation.leadsTo_afterPortion deleteAll_append (mirrors.sweep settings.scope)⟩

instance : PlainMedium RecencyStore where
  inOneGo := inOneGo
  kind := .lru
  contents := contents
  Fresh := Fresh
  Mirrors := Mirrors
  Bears := Settings.Fits
  deleteAll := deleteAll
  contents_eq mirrors := mirrors.reads
  bears_earlier := Settings.Fits.earlier
  leadsTo_start := leadsTo_start
  fresh_deleteAll := Fresh.deleteAll
  deleteAll_append := deleteAll_append
  sweepOn_store := sweepOn_store
  sweepOn_operation := sweepOn_operation

theorem create_eq {capacity : Nat} {jitter : Jitter} (created : create capacity jitter = .ok store) :
    store.slots = [] ∧ store.settings = none ∧ store.capacity = capacity := by
  unfold create at created
  split at created
  · rw [← Except.ok.inj created]
    exact ⟨rfl, rfl, rfl⟩
  · cases created

theorem Mirrors.of_create {capacity : Nat} {jitter : Jitter} (created : create capacity jitter = .ok store)
    (enough : room.card ≤ capacity) : Mirrors room {} store := by
  obtain ⟨hslots, hsettings, rfl⟩ := create_eq created
  refine ⟨hsettings, fun key => ?_, by simp [hslots], by simp [hslots], enough⟩
  rw [contents, hslots]
  simp

end RecencyStore

/-! ## Both stores -/

/-- Replies that agree up to the store that a refusal names. -/
inductive AnyReply.Alike : AnyReply → AnyReply → Prop
  | same (reply : AnyReply) : Alike reply reply
  | refused (k : ReplyKind) (kind kind' : StoreKind) :
    Alike ⟨k, .error (PlainMap.refusal kind)⟩ ⟨k, .error (PlainMap.refusal kind')⟩

namespace PlainMap

theorem alike_reply {k : ReplyKind} (map : PlainMap) (kind kind' : StoreKind) (call : Call k) :
    AnyReply.Alike ⟨k, map.reply kind call⟩ ⟨k, map.reply kind' call⟩ := by
  cases call with
  | put | putAll | clear =>
    simp only [reply]
    split
    · exact .same _
    · exact .refused _ kind kind'
  | _ => exact .same _

theorem alike_replies (map : PlainMap) (kind kind' : StoreKind) (calls : List AnyCall) :
    List.Forall₂ AnyReply.Alike (map.replies kind calls) (map.replies kind' calls) := by
  induction calls generalizing map with
  | nil => exact .nil
  | cons call rest ih => exact .cons (map.alike_reply kind kind' call.call) (ih (map.after call.call))

end PlainMap

/-- New stores of both kinds are maps to their callers, whatever the factors for times to live, as long as
nothing has reached its deadline and the keys that are put are no more than there is room for. The times to live
have to be durations when they are stretched, and on the recency store they have to end within the clock. So the
replies of the two are the same, up to the store that a refusal names. -/
theorem in_process_stores_act_as_map (factors : Jitter) {capacity : Nat} {jitter : Jitter}
    {recency : RecencyStore} {calls : List AnyCall} (created : RecencyStore.create capacity jitter = .ok recency)
    (room : (PlainMap.allPutKeys {} calls).toFinset.card ≤ capacity)
    (scales : (PlainMap.afterAll {} calls).Under Settings.Scales) :
    (∀ limit, PlainMedium.ActsAsMap ({ jitter := factors } : ExpiringStore) calls limit) ∧
      ∀ limit, (PlainMap.afterAll {} calls).Under (Settings.Fits limit) →
        PlainMedium.ActsAsMap recency calls limit ∧
        ∀ (now last now' last' : Nat) (replies replies' : List AnyReply) (final : ExpiringStore)
          (final' : RecencyStore),
          Medium.Serves ExpiringStore.Fresh now { jitter := factors } calls replies last final →
          Medium.Serves RecencyStore.Fresh now' recency calls replies' last' final' → last' ≤ limit →
          List.Forall₂ AnyReply.Alike replies replies' := by
  have hwithin : ∀ key ∈ PlainMap.allPutKeys {} calls, key ∈ (PlainMap.allPutKeys {} calls).toFinset :=
    fun key => List.mem_toFinset.mpr
  have hmemory : ∀ limit, PlainMedium.ActsAsMap ({ jitter := factors } : ExpiringStore) calls limit := by
    intro limit
    refine PlainMedium.actsAsMap (fun _ => trivial) ⟨rfl, fun key => ?_⟩ (fun now key dated h => ?_) scales
      hwithin
    · simp [ExpiringStore.contents]
    · simp at h
  refine ⟨hmemory, fun limit fits => ?_⟩
  have hrecency : PlainMedium.ActsAsMap recency calls limit := by
    refine PlainMedium.actsAsMap (fun _ => trivial) (RecencyStore.Mirrors.of_create created room)
      (fun now entry h => ?_) fits hwithin
    rw [(RecencyStore.create_eq created).1] at h
    cases h
  refine ⟨hrecency, fun _ last _ _ replies replies' _ _ serves serves' le' => ?_⟩
  rw [(hmemory last).replies serves (Nat.le_refl last), hrecency.replies serves' le']
  exact PlainMap.alike_replies {} .memory .lru calls

/-- An entry too early, two set-ups, entries under both scopes, and all that ends each of them. -/
def visits : List AnyCall := [
  ⟨.done, .put ⟨"a:0", "early"⟩⟩,
  ⟨.done, .init ⟨⟨60 * nanosPerSecond, by decide⟩, false, "a"⟩⟩,
  ⟨.done, .init ⟨.zero, true, "b"⟩⟩,
  ⟨.done, .putAll [⟨"a:1", "x"⟩, ⟨"b:1", "y"⟩]⟩,
  ⟨.slots, .getAll ["b:1", "a:0", "a:1"]⟩,
  ⟨.done, .sweep "b"⟩,
  ⟨.flag, .containsAll ["a:1", "b:1"]⟩,
  ⟨.done, .clear⟩,
  ⟨.text, .get "a:1"⟩]

def visitReplies (kind : StoreKind) : List AnyReply := [
  ⟨.done, .error (PlainMap.refusal kind)⟩,
  ⟨.done, .ok ()⟩,
  ⟨.done, .ok ()⟩,
  ⟨.done, .ok ()⟩,
  ⟨.slots, .ok [some "y", none, some "x"]⟩,
  ⟨.done, .ok ()⟩,
  ⟨.flag, .ok false⟩,
  ⟨.done, .ok ()⟩,
  ⟨.text, .error (.failed .notFound)⟩]

theorem in_process_stores_answered_visits :
    ∃ (recency : RecencyStore) (final : ExpiringStore) (final' : RecencyStore),
      RecencyStore.create 2 ⟨Factor.spread, 0⟩ = .ok recency ∧
      Medium.Serves ExpiringStore.Fresh 7 { jitter := ⟨Factor.spread, 0⟩ } visits (visitReplies .memory) 7 final ∧
      Medium.Serves RecencyStore.Fresh 7 recency visits (visitReplies .lru) 7 final' ∧
      List.Forall₂ AnyReply.Alike (visitReplies .memory) (visitReplies .lru) := by
  have fits : (PlainMap.afterAll {} visits).Under (Settings.Fits 7) := by
    intro settings h
    have hfirst : some (⟨⟨60 * nanosPerSecond, by decide⟩, false, "a"⟩ : Settings) = some settings := h
    rw [← Option.some.inj hfirst]
    unfold Settings.Fits
    decide
  have room : (PlainMap.allPutKeys {} visits).toFinset.card ≤ 2 := by decide
  have hreplies : ∀ kind, PlainMap.replies kind {} visits = visitReplies kind := by
    intro kind
    cbv
  have created : RecencyStore.create 2 ⟨Factor.spread, 0⟩ = .ok _ := rfl
  obtain ⟨hmemory, hboth⟩ :=
    in_process_stores_act_as_map ⟨Factor.spread, 0⟩ created room (fits.imp fun _ => Settings.Fits.scales)
  obtain ⟨hrecency, halike⟩ := hboth 7 fits
  obtain ⟨replies, final, hserves⟩ := (hmemory 7).serves (Nat.le_refl 7)
  obtain ⟨replies', final', hserves'⟩ := hrecency.serves (Nat.le_refl 7)
  have hreplied := halike _ _ _ _ _ _ _ _ hserves hserves' (Nat.le_refl 7)
  obtain rfl : replies = visitReplies .memory :=
    ((hmemory 7).replies hserves (Nat.le_refl 7)).trans (hreplies .memory)
  obtain rfl : replies' = visitReplies .lru :=
    (hrecency.replies hserves' (Nat.le_refl 7)).trans (hreplies .lru)
  exact ⟨_, final, final', created, hserves, hserves', hreplied⟩

/-- The longest time to live, and an entry that is to have it. -/
def endlessVisits : List AnyCall := [
  ⟨.done, .init ⟨⟨(UInt64.size - 1) * nanosPerSecond + 999999999, by decide⟩, false, "a"⟩⟩,
  ⟨.done, .put ⟨"a:1", "x"⟩⟩]

/-- Without the bound on times to live, the recency store is no map: it breaks down on the deadline of an entry
for which it has room. -/
theorem endless_lifetime_breaks_put :
    ∃ recency final : RecencyStore, RecencyStore.create 2 .steady = .ok recency ∧
      (PlainMap.allPutKeys {} endlessVisits).toFinset.card ≤ 2 ∧
      Medium.Serves RecencyStore.Fresh 0 recency endlessVisits
        [⟨.done, .ok ()⟩, ⟨.done, .error .brokeDown⟩] 0 final ∧
      PlainMap.replies .lru {} endlessVisits = [⟨.done, .ok ()⟩, ⟨.done, .ok ()⟩] := by
  have fresh : ∀ store : RecencyStore, store.slots = [] → RecencyStore.Fresh 0 store := by
    intro store h entry hentry
    rw [h] at hentry
    cases hentry
  exact ⟨_, _, rfl, by decide,
    .cons (.step 0 (fresh _ rfl) rfl .answered) (.cons (.step 0 (fresh _ rfl) rfl .answered) .nil), rfl⟩

end ReadThrough
