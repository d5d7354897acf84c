import ReadThrough.Proofs.Store.Dependable
import ReadThrough.Proofs.Store.InProcessDeadlines

/-! # Stores that keep what is put

Under good conditions a store is a map: lookups leave its contents alone, and a put lays its entries over them, a
later entry over an earlier one of its key. Jobs that put entries under different keys then come to the same
contents in any order.

* `overlay` lays entries over contents;
* `Lays` says which values entries bring;
* `KeepingMedium` lists the laws, and when they hold: no call fails, and nothing is left out for want of room;
* `Completing` says of jobs under way what the contents will be, `Completing.set` goes through a step of one of
  them, and `Completing.ended` is their end.
-/

namespace ReadThrough
set_option autoImplicit false

/-! ## Entries laid over contents -/

/-- The contents after these entries were put, one after another. -/
def overlay (entries : List Entry) (contents : String → Option String) (key : String) : Option String :=
  entries.foldl (fun value entry => if entry.key = key then some entry.value else value) (contents key)

section

variable {entries later : List Entry} {contents contents' : String → Option String} {key value : String}

theorem overlay_append (entries later : List Entry) (contents : String → Option String) :
    overlay (entries ++ later) contents = overlay later (overlay entries contents) :=
  funext fun _ => List.foldl_append

theorem overlay_cons (entry : Entry) (entries : List Entry) (contents : String → Option String) :
    overlay (entry :: entries) contents = overlay entries (overlay [entry] contents) := rfl

theorem overlay_single (entry : Entry) (contents : String → Option String) (key : String) :
    overlay [entry] contents key = if entry.key = key then some entry.value else contents key := rfl

/-- What is laid over a key depends on nothing else. -/
theorem overlay_congr (same : contents key = contents' key) :
    overlay entries contents key = overlay entries contents' key := by
  rw [overlay, overlay, same]

theorem overlay_of_apart (apart : ∀ entry ∈ entries, entry.key ≠ key) :
    overlay entries contents key = contents key := by
  induction entries generalizing contents with
  | nil => rfl
  | cons entry entries ih =>
    obtain ⟨hentry, hentries⟩ := List.forall_mem_cons.mp apart
    rw [overlay_cons, ih hentries, overlay_single, if_neg hentry]

/-- Entries under different keys can be laid in either order. -/
theorem overlay_comm (apart : ∀ entry ∈ entries, ∀ entry' ∈ later, entry.key ≠ entry'.key) :
    overlay later (overlay entries contents) = overlay entries (overlay later contents) := by
  funext key
  by_cases hkey : ∃ entry ∈ entries, entry.key = key
  · obtain ⟨entry, hentry, rfl⟩ := hkey
    have hlater : ∀ entry' ∈ later, entry'.key ≠ entry.key := fun entry' h => Ne.symm (apart entry hentry entry' h)
    rw [overlay_of_apart hlater]
    exact overlay_congr (overlay_of_apart hlater).symm
  · have hentries : ∀ entry ∈ entries, entry.key ≠ key := fun entry hentry h => hkey ⟨entry, hentry, h⟩
    rw [overlay_of_apart hentries]
    exact overlay_congr (overlay_of_apart hentries)

theorem overlay_of_last {earlier : List Entry} {entry : Entry} (last : ∀ other ∈ later, other.key ≠ entry.key) :
    overlay (earlier ++ entry :: later) contents entry.key = some entry.value := by
  rw [overlay_append, overlay_cons, overlay_of_apart last, overlay_single, if_pos rfl]

theorem exists_last {α : Type} {items : List α} {P : α → Prop} (found : ∃ item ∈ items, P item) :
    ∃ earlier item later, items = earlier ++ item :: later ∧ P item ∧ ∀ other ∈ later, ¬ P other := by
  induction items with
  | nil =>
    obtain ⟨item, hitem, -⟩ := found
    cases hitem
  | cons first rest ih =>
    by_cases hrest : ∃ item ∈ rest, P item
    · obtain ⟨earlier, item, later, rfl, hlast⟩ := ih hrest
      exact ⟨first :: earlier, item, later, rfl, hlast⟩
    · obtain ⟨item, hitem, hP⟩ := found
      rcases List.mem_cons.mp hitem with rfl | hmem
      · exact ⟨[], item, rest, rfl, hP, fun other hother hlast => hrest ⟨other, hother, hlast⟩⟩
      · exact absurd ⟨item, hmem, hP⟩ hrest

/-- Under the key of an entry the value of an entry is found, perhaps of a later one. -/
theorem overlay_of_mem {entry : Entry} (mem : entry ∈ entries) :
    ∃ other ∈ entries, other.key = entry.key ∧ overlay entries contents entry.key = some other.value := by
  obtain ⟨earlier, other, later, rfl, hkey, hlast⟩ :=
    exists_last (P := fun other : Entry => other.key = entry.key) ⟨entry, mem, rfl⟩
  refine ⟨other, List.mem_append_right _ List.mem_cons_self, hkey, ?_⟩
  rw [← hkey] at hlast ⊢
  exact overlay_of_last hlast

end

/-- When the entries are laid over contents, these values are found under these keys, and under all other keys what
was there before. -/
structure Lays (entries : List Entry) (Laid : (key value : String) → Prop) : Prop where
  laid {contents : String → Option String} {key value : String} (laid : Laid key value) :
    overlay entries contents key = some value
  kept {contents : String → Option String} {key : String} (unlaid : ∀ value, ¬ Laid key value) :
    overlay entries contents key = contents key

namespace Lays

variable {entries later : List Entry} {Laid Laid' : (key value : String) → Prop}

theorem none : Lays [] fun _ _ => False := ⟨False.elim, fun _ => rfl⟩

theorem single (entry : Entry) : Lays [entry] fun key value => entry = ⟨key, value⟩ where
  laid := by
    rintro contents key value rfl
    exact if_pos rfl
  kept {contents key} unlaid := by
    have hother : entry.key ≠ key := by
      rintro rfl
      exact unlaid entry.value rfl
    exact if_neg hother

theorem append (h : Lays entries Laid) (h' : Lays later Laid')
    (apart : ∀ key value value', Laid key value → ¬ Laid' key value') :
    Lays (entries ++ later) fun key value => Laid key value ∨ Laid' key value where
  laid {contents key value} laid := by
    rw [overlay_append]
    rcases laid with hlaid | hlaid
    · rw [h'.kept fun value' => apart key value value' hlaid, h.laid hlaid]
    · exact h'.laid hlaid
  kept unlaid := by
    rw [overlay_append, h'.kept fun value hlaid => unlaid value (.inr hlaid),
      h.kept fun value hlaid => unlaid value (.inl hlaid)]

theorem congr (h : Lays entries Laid) (same : ∀ key value, Laid key value ↔ Laid' key value) :
    Lays entries Laid' where
  laid laid := h.laid ((same _ _).mpr laid)
  kept unlaid := h.kept fun value hlaid => unlaid value ((same _ _).mp hlaid)

theorem exists_of_mem (h : Lays entries Laid) {entry : Entry} (mem : entry ∈ entries) :
    ∃ value, Laid entry.key value := by
  by_contra hnone
  have hkept : overlay entries (fun _ => Option.none) entry.key = Option.none :=
    h.kept fun value hlaid => hnone ⟨value, hlaid⟩
  obtain ⟨other, -, -, hfound⟩ := @overlay_of_mem _ (fun _ => Option.none) _ mem
  cases hkept.symm.trans hfound

theorem exists_of_laid (h : Lays entries Laid) {key value : String} (laid : Laid key value) :
    ∃ entry ∈ entries, entry.key = key := by
  by_contra hnone
  have hkept : overlay entries (fun _ => Option.none) key = Option.none :=
    overlay_of_apart fun entry hentry hkey => hnone ⟨entry, hentry, hkey⟩
  cases hkept.symm.trans (h.laid laid)

theorem eq_some_iff (h : Lays entries Laid) {contents : String → Option String} {key value : String} :
    overlay entries contents key = some value ↔
      Laid key value ∨ (∀ value, ¬ Laid key value) ∧ contents key = some value := by
  by_cases hlaid : ∃ value', Laid key value'
  · obtain ⟨value', hvalue'⟩ := hlaid
    rw [h.laid hvalue']
    constructor
    · rintro ⟨⟩
      exact .inl hvalue'
    · rintro (hvalue | ⟨hnone, -⟩)
      · exact (h.laid hvalue').symm.trans (@h.laid contents _ _ hvalue)
      · exact absurd hvalue' (hnone value')
  · have hnone : ∀ value, ¬ Laid key value := fun value hvalue => hlaid ⟨value, hvalue⟩
    rw [h.kept hnone]
    exact ⟨fun found => .inr ⟨hnone, found⟩, fun found => (found.resolve_left (hnone value)).2⟩

end Lays

/-! ## Media -/

def Call.IsLookup {k : ReplyKind} : Call k → Prop
  | .get _ | .getAll _ => True
  | _ => False

/-- A medium that keeps what is put into it, as long as conditions are good. -/
class KeepingMedium (σ : Type) [Medium σ] where
  /-- What can be read under a key now. -/
  contents : σ → Nat → String → Option String
  /-- At this time no call fails, and there is room for all that is stored and for entries under these keys. -/
  Keeps : Finset String → Nat → σ → Prop
  looks {k : ReplyKind} {room : Finset String} {now : Nat} {store : σ} {call : Call k} {step : StoreStep σ k}
    (keeps : Keeps room now store) (lookup : call.IsLookup)
    (taken : Medium.step? now store (.asked call) = some step) :
    Keeps room now step.store ∧ contents step.store now = contents store now ∧
      ∃ reply, step.operation = .answered reply
  puts {room : Finset String} {now : Nat} {store : σ} {call : Call .done} {step : StoreStep σ .done}
    (keeps : Keeps room now store) (puts : call.IsPut) (within : ∀ entry ∈ call.entries, entry.key ∈ room)
    (taken : Medium.step? now store (.asked call) = some step) :
    Keeps room now step.store ∧ contents step.store now = overlay call.entries (contents store now) ∧
      step.operation = .answered (.ok ())

/-! ## The expiring store -/

namespace ExpiringStore

variable {store : ExpiringStore} {now : Nat} {settings : Settings}

theorem exists_put (ready : store.settings = some settings) (scales : settings.Scales) (entry : Entry) :
    ∃ next, store.put now entry = (next, .ok ()) ∧ next.settings = some settings ∧
      next.get? now = overlay [entry] (store.get? now) := by
  obtain ⟨ttl, httl, hpos⟩ := scales.boundedLifetime store.jitter.next
  refine ⟨_, put_of_unbroken ready httl entry, ready, funext fun key => ?_⟩
  have hlive : now < now + ttl.nanos := Nat.lt_add_of_pos_right hpos
  rw [overlay_single, get?, get?, Std.TreeMap.getElem?_insert]
  by_cases h : entry.key = key <;> simp [h, hlive]

theorem exists_putAll (ready : store.settings = some settings) (scales : settings.Scales) (entries : List Entry) :
    ∃ next, store.putAll now entries = (next, .ok ()) ∧ next.settings = some settings ∧
      next.get? now = overlay entries (store.get? now) := by
  induction entries generalizing store with
  | nil => exact ⟨store, rfl, ready, rfl⟩
  | cons entry rest ih =>
    obtain ⟨next, hput, hready, hnext⟩ := exists_put ready scales entry
    obtain ⟨last, hlast, hdone, hcontents⟩ := ih hready
    refine ⟨last, by rw [putAll, hput]; exact hlast, hdone, ?_⟩
    rw [overlay_cons, hcontents, hnext]

instance : KeepingMedium ExpiringStore where
  contents store now := store.get? now
  Keeps _ _ store := ∃ settings, store.settings = some settings ∧ settings.Scales
  looks {_ _ now store call step} keeps lookup taken := by
    obtain rfl : step = store.start now call := (Option.some.inj taken).symm
    cases call with
    | get key =>
      simp only [start]
      cases store.get? now key with
      | none => exact ⟨keeps, rfl, _, rfl⟩
      | some value => exact ⟨keeps, rfl, _, rfl⟩
    | getAll => exact ⟨keeps, rfl, _, rfl⟩
    | _ => exact lookup.elim
  puts {_ now store call step} keeps puts _ taken := by
    obtain rfl : step = store.start now call := (Option.some.inj taken).symm
    obtain ⟨settings, ready, scales⟩ := keeps
    cases call with
    | put entry =>
      obtain ⟨next, hput, hready, hcontents⟩ := exists_put ready scales entry
      rw [start, hput]
      exact ⟨⟨settings, hready, scales⟩, hcontents, rfl⟩
    | putAll entries =>
      obtain ⟨next, hput, hready, hcontents⟩ := exists_putAll ready scales entries
      rw [start, hput]
      exact ⟨⟨settings, hready, scales⟩, hcontents, rfl⟩
    | _ => exact puts.elim

end ExpiringStore

/-! ## The recency store -/

namespace RecencyStore

variable {store : RecencyStore} {now : Nat} {key : String} {room : Finset String} {map : PlainMap}

/-- What a slot that is not stale holds. -/
def found? (store : RecencyStore) (now : Nat) (key : String) : Option String :=
  (store.slot? key).bind (·.valueAt now)

/-- The store has been set up, no deadline is beyond the clock, and there is room for all keys. -/
def Keeps (room : Finset String) (now : Nat) (store : RecencyStore) : Prop :=
  ∃ map settings, Mirrors room map store ∧ map.settings = some settings ∧ settings.Fits now

theorem Mirrors.found?_place (mirrors : Mirrors room map store) (inside : key ∈ room) {slot : Slot}
    (live : slot.isStale now = false) :
    (store.place key slot).found? now = overlay [⟨key, slot.value⟩] (store.found? now) := by
  funext other
  rw [overlay_single, found?, slot?, mirrors.place_slots inside, lookup_cons, lookup_without]
  by_cases h : key = other
  · simp [h, Slot.valueAt_eq, live]
  · simp [h, found?, slot?]

/-- A look uses a slot, or drops a stale one. -/
theorem Mirrors.exists_look (mirrors : Mirrors room map store) (now : Nat) (key : String) :
    ∃ map', Mirrors room map' (store.look now key).1 ∧ map'.settings = map.settings := by
  cases hslot : store.slots.lookup key with
  | none =>
    have hlook : (store.look now key).1 = store := by simp [RecencyStore.look, hslot]
    exact ⟨map, hlook.symm ▸ mirrors, rfl⟩
  | some slot =>
    cases hstale : slot.isStale now with
    | true =>
      have hlook : (store.look now key).1 = store.delete key := by
        simp only [RecencyStore.look, hslot, hstale, if_true]
        rfl
      exact ⟨map.erase key, hlook.symm ▸ mirrors.delete key, rfl⟩
    | false =>
      have hinside : key ∈ room := mirrors.within _ (mem_of_lookup hslot)
      have hlook : (store.look now key).1 = store.place key slot := by
        have hplaced : { store with slots := (key, slot) :: without key store.slots } = store.place key slot := by
          rw [← mirrors.place_slots hinside slot]
          rfl
        simp [RecencyStore.look, hslot, hstale, hplaced]
      exact ⟨map.insert ⟨key, slot.value⟩, hlook.symm ▸ mirrors.place hinside slot, rfl⟩

theorem Mirrors.exists_lookAll (mirrors : Mirrors room map store) (now : Nat) (keys : List String) :
    ∃ map', Mirrors room map' (store.lookAll now keys).1 ∧ map'.settings = map.settings := by
  induction keys generalizing map store with
  | nil => exact ⟨map, mirrors, rfl⟩
  | cons key rest ih =>
    obtain ⟨map', hmirrors, hsettings⟩ := mirrors.exists_look now key
    obtain ⟨last, hlast, hsame⟩ := ih hmirrors
    exact ⟨last, hlast, hsame.trans hsettings⟩

/-- Slots that are used one after another lie over the others. -/
theorem Mirrors.found?_places {slots : List (String × Slot)} (mirrors : Mirrors room map store)
    (inside : ∀ entry ∈ slots, entry.1 ∈ room) (live : ∀ entry ∈ slots, entry.2.isStale now = false) :
    ∃ map', Mirrors room map' (slots.foldl (fun store entry => store.place entry.1 entry.2) store) ∧
      map'.settings = map.settings ∧
      (slots.foldl (fun store entry => store.place entry.1 entry.2) store).found? now =
        overlay (slots.map fun entry => ⟨entry.1, entry.2.value⟩) (store.found? now) := by
  induction slots generalizing map store with
  | nil => exact ⟨map, mirrors, rfl, rfl⟩
  | cons first rest ih =>
    obtain ⟨hinside, hrest⟩ := List.forall_mem_cons.mp inside
    obtain ⟨hlive, hlives⟩ := List.forall_mem_cons.mp live
    obtain ⟨map', hmirrors, hsettings, hfound⟩ := ih (mirrors.place hinside first.2) hrest hlives
    refine ⟨map', hmirrors, hsettings, ?_⟩
    rw [List.foldl_cons, hfound, mirrors.found?_place hinside hlive, List.map_cons, overlay_cons _ (List.map _ _)]

theorem Keeps.exists_putAll (keeps : Keeps room now store) {entries : List Entry}
    (inside : ∀ entry ∈ entries, entry.key ∈ room) :
    ∃ next, store.putAll now entries = (next, .ok ()) ∧ Keeps room now next ∧
      next.found? now = overlay entries (store.found? now) := by
  obtain ⟨map, settings, hmirrors, hready, hfits⟩ := keeps
  obtain ⟨jitter, slots, hnew, rfl, hlives⟩ := newSlots_of_fits (hmirrors.settings.trans hready) hfits entries
  have hinside : ∀ entry ∈ slots, entry.1 ∈ room := fun entry hentry =>
    inside _ (List.mem_map_of_mem (f := fun entry => (⟨entry.1, entry.2.value⟩ : Entry)) hentry)
  obtain ⟨map', hplaced, hsettings, hfound⟩ := (hmirrors.drawn jitter).found?_places hinside hlives
  exact ⟨_, by rw [putAll, hnew], ⟨map', settings, hplaced, hsettings.trans hready, hfits⟩, hfound⟩

instance : KeepingMedium RecencyStore where
  contents store now := store.found? now
  Keeps := Keeps
  looks {_ _ now store call step} keeps lookup taken := by
    obtain rfl : step = store.start now call := (Option.some.inj taken).symm
    obtain ⟨map, settings, hmirrors, hready, hfits⟩ := keeps
    have hvalues : ∀ {next : RecencyStore}, (∀ key, KeptOrStale now (store.slot? key) (next.slot? key)) →
        next.found? now = store.found? now :=
      fun kept => funext fun key => (kept key).valueAt (Nat.le_refl now)
    cases call with
    | get key =>
      obtain ⟨map', hlooked, hsettings⟩ := hmirrors.exists_look now key
      have hanswered : ∃ reply, (store.start now (.get key)).operation = .answered reply := by
        rw [start]
        split <;> exact ⟨_, rfl⟩
      rw [start_get_store]
      exact ⟨⟨map', settings, hlooked, hsettings.trans hready, hfits⟩, hvalues (keptOrStale_look store now key),
        hanswered⟩
    | getAll keys =>
      obtain ⟨map', hlooked, hsettings⟩ := hmirrors.exists_lookAll now keys
      exact ⟨⟨map', settings, hlooked, hsettings.trans hready, hfits⟩,
        hvalues (keptOrStale_lookAll store now keys), _, rfl⟩
    | _ => exact lookup.elim
  puts {room now store call step} keeps puts within taken := by
    obtain rfl : step = store.start now call := (Option.some.inj taken).symm
    cases call with
    | put entry =>
      have hinside : ∀ other ∈ [entry], other.key ∈ room := within
      obtain ⟨next, hput, hkeeps, hfound⟩ := keeps.exists_putAll hinside
      rw [start, ← putAll_single, hput]
      exact ⟨hkeeps, hfound, rfl⟩
    | putAll entries =>
      have hinside : ∀ entry ∈ entries, entry.key ∈ room := within
      obtain ⟨next, hput, hkeeps, hfound⟩ := keeps.exists_putAll hinside
      rw [start, hput]
      exact ⟨hkeeps, hfound, rfl⟩
    | _ => exact puts.elim

end RecencyStore

/-! ## The recording store, and stores of any kind -/

namespace RecordingStore

theorem getElem?_insertAll (map : Std.TreeMap String String) (entries : List Entry) :
    (fun key : String => (entries.foldl (fun map entry => map.insert entry.key entry.value) map)[key]?) =
      overlay entries fun key => map[key]? := by
  induction entries generalizing map with
  | nil => rfl
  | cons entry rest ih =>
    have hfirst : (fun key : String => (map.insert entry.key entry.value)[key]?) =
        overlay [entry] fun key => map[key]? := by
      funext key
      rw [overlay_single, Std.TreeMap.getElem?_insert]
      by_cases h : entry.key = key <;> simp [h]
    rw [List.foldl_cons, ih, hfirst, ← overlay_cons]

instance : KeepingMedium RecordingStore where
  contents store _ key := store.entries[key]?
  Keeps _ _ := Dependable
  looks {_ _ _ store call step} keeps lookup taken := by
    obtain ⟨next, hentries, hnext, htaken⟩ := keeps.step?_asks (.inl rfl : Operation.Asks _ call)
    obtain rfl : step = next.act call := Option.some.inj (taken.symm.trans htaken)
    refine ⟨hnext.act call, ?_, ?_⟩
    · rw [← hentries]
      cases call with
      | get => simp only [act]; split <;> rfl
      | getAll => simp only [act, slots]; split <;> rfl
      | _ => exact lookup.elim
    · cases call with
      | get => simp only [act]; split <;> exact ⟨_, rfl⟩
      | getAll => exact ⟨_, rfl⟩
      | _ => exact lookup.elim
  puts {_ _ store call step} keeps puts _ taken := by
    obtain ⟨next, hentries, hnext, htaken⟩ := keeps.step?_asks (.inl rfl : Operation.Asks _ call)
    obtain rfl : step = next.act call := Option.some.inj (taken.symm.trans htaken)
    refine ⟨hnext.act call, ?_, ?_⟩
    · rw [← hentries]
      cases call with
      | put entry => exact getElem?_insertAll next.entries [entry]
      | putAll entries => exact getElem?_insertAll next.entries entries
      | _ => exact puts.elim
    · cases call with
      | put | putAll => rfl
      | _ => exact puts.elim

end RecordingStore

namespace Store

def contents : Store → Nat → String → Option String
  | .expiring store => KeepingMedium.contents store
  | .recency store => KeepingMedium.contents store
  | .recording store => KeepingMedium.contents store

def Keeps (room : Finset String) (now : Nat) : Store → Prop
  | .expiring store => KeepingMedium.Keeps room now store
  | .recency store => KeepingMedium.Keeps room now store
  | .recording store => KeepingMedium.Keeps room now store

instance : KeepingMedium Store where
  contents := contents
  Keeps := Keeps
  looks {_ _ _ store call _} keeps lookup taken := by
    generalize hasked : Operation.asked call = operation at taken
    cases store <;> obtain ⟨inner, hinner, rfl⟩ := Option.map_eq_some_iff.mp taken <;> subst hasked
    all_goals
      have hlooks := KeepingMedium.looks keeps lookup hinner
      exact hlooks
  puts {_ _ store call _} keeps puts within taken := by
    generalize hasked : Operation.asked call = operation at taken
    cases store <;> obtain ⟨inner, hinner, rfl⟩ := Option.map_eq_some_iff.mp taken <;> subst hasked
    all_goals
      have hputs := KeepingMedium.puts keeps puts within hinner
      exact hputs

end Store

/-! ## Jobs that put -/

/-- The entries that an operation is still to put. -/
def Operation.entries {k : ReplyKind} : Operation k → List Entry
  | .asked call | .held call => call.entries
  | .sweeping _ | .answered _ => []

/-- The entries that a job puts. -/
def Job.entries (job : Job) : List Entry := job.steps.flatMap fun step => step.1.entries

/-- The entries that a job is still to put. -/
def JobRun.entries : JobRun → List Entry
  | .working _ operation _ rest => operation.entries ++ rest.flatMap fun step => step.1.entries
  | .finished | .brokeDown => []

theorem JobRun.entries_next (job : Job) (rest : List (Call .done × Notice)) :
    (next job rest).entries = rest.flatMap fun step => step.1.entries := by
  cases rest <;> rfl

section

variable {σ : Type} [Medium σ] [KeepingMedium σ] {room : Finset String} {final : String → Option String}
  {now : Nat} {store : σ} {jobs : List JobRun} {run : JobRun} {step : JobStep σ}

/-- A step of a job that only puts takes entries off its list and lays them over the contents. -/
theorem JobRun.IsFill.step_keeps (fill : run.IsFill) (keeps : KeepingMedium.Keeps room now store)
    (within : ∀ entry ∈ run.entries, entry.key ∈ room) (taken : run.step? now store = some step) :
    KeepingMedium.Keeps room now step.store ∧ step.run.IsFill ∧
      ∃ put, run.entries = put ++ step.run.entries ∧
        KeepingMedium.contents step.store now = overlay put (KeepingMedium.contents store now) := by
  rcases fill.step_cases taken with ⟨job, reply, onFailure, rest, rfl, hstore, hnext⟩ |
    ⟨job, call, onFailure, rest, moved, hput, rfl, hmoved, hstore, hrun⟩
  · rw [hstore, hnext]
    refine ⟨keeps, next_isFill.mpr fill.2, [], ?_, rfl⟩
    rw [entries_next]
    rfl
  · have hwithin : ∀ entry ∈ call.entries, entry.key ∈ room :=
      fun entry hentry => within entry (List.mem_append_left _ hentry)
    obtain ⟨hkeeps, hcontents, hanswered⟩ := KeepingMedium.puts keeps hput hwithin hmoved
    rw [hstore, hrun, hanswered]
    exact ⟨hkeeps, ⟨rfl, fill.2⟩, call.entries, rfl, hcontents⟩

/-- The jobs put entries under different keys, and the store has these contents when they have put all. -/
structure Completing (room : Finset String) (final : String → Option String) (now : Nat) (store : σ)
    (jobs : List JobRun) : Prop where
  fills : ∀ job ∈ jobs, job.IsFill
  within : ∀ job ∈ jobs, ∀ entry ∈ job.entries, entry.key ∈ room
  apart : jobs.Pairwise fun job job' => ∀ entry ∈ job.entries, ∀ entry' ∈ job'.entries, entry.key ≠ entry'.key
  comes : overlay (jobs.flatMap JobRun.entries) (KeepingMedium.contents store now) = final

/-- Only the contents of the store matter. -/
theorem Completing.of_same {later : Nat} {store' : σ} (h : Completing room final now store jobs)
    (same : KeepingMedium.contents store' later = KeepingMedium.contents store now) :
    Completing room final later store' jobs :=
  ⟨h.fills, h.within, h.apart, same ▸ h.comes⟩

/-- When all jobs have finished, the store has come to the contents. -/
theorem Completing.ended (h : Completing room final now store jobs) (ended : jobs.all JobRun.isFinished) :
    KeepingMedium.contents store now = final := by
  have hnone : jobs.flatMap JobRun.entries = [] := by
    refine List.flatMap_eq_nil_iff.mpr fun job hjob => ?_
    have hended := List.all_eq_true.mp ended job hjob
    cases job with
    | finished => rfl
    | working | brokeDown => cases hended
  rw [← h.comes, hnone]
  rfl

theorem Completing.set {index : Nat} (h : Completing room final now store jobs)
    (keeps : KeepingMedium.Keeps room now store) (found : jobs[index]? = some run)
    (taken : run.step? now store = some step) :
    KeepingMedium.Keeps room now step.store ∧ Completing room final now step.store (jobs.set index step.run) := by
  obtain ⟨before, after, rfl, hset⟩ : ∃ before after, jobs = before ++ run :: after ∧
      jobs.set index step.run = before ++ step.run :: after := by
    obtain ⟨hlt, rfl⟩ := List.getElem?_eq_some_iff.mp found
    obtain ⟨before, after, hsplit, -, hset⟩ := @List.exists_of_set _ _ step.run _ hlt
    exact ⟨before, after, hsplit, hset⟩
  have hmem : run ∈ before ++ run :: after := List.mem_append_right _ List.mem_cons_self
  obtain ⟨hkeeps, hfill, put, hentries, hcontents⟩ :=
    (h.fills run hmem).step_keeps keeps (h.within run hmem) taken
  have hleft : ∀ entry ∈ step.run.entries, entry ∈ run.entries := by
    rw [hentries]
    exact fun entry hentry => List.mem_append_right put hentry
  have hothers : ∀ job ∈ before ++ step.run :: after, job = step.run ∨ job ∈ before ++ run :: after := by
    intro job hjob
    simp only [List.mem_append, List.mem_cons] at hjob ⊢
    tauto
  obtain ⟨hbefore, hafter, hcross⟩ := List.pairwise_append.mp h.apart
  obtain ⟨hrun, hafter⟩ := List.pairwise_cons.mp hafter
  rw [hset]
  refine ⟨hkeeps, ?_, ?_, ?_, ?_⟩
  · intro job hjob
    rcases hothers job hjob with rfl | hjob
    · exact hfill
    · exact h.fills job hjob
  · intro job hjob entry hentry
    rcases hothers job hjob with rfl | hjob
    · exact h.within run hmem entry (hleft entry hentry)
    · exact h.within job hjob entry hentry
  · refine List.pairwise_append.mpr ⟨hbefore, List.pairwise_cons.mpr ⟨?_, hafter⟩, ?_⟩
    · exact fun job hjob entry hentry => hrun job hjob entry (hleft entry hentry)
    · intro job hjob job' hjob' entry hentry entry' hentry'
      rcases List.mem_cons.mp hjob' with rfl | hlater
      · exact hcross job hjob run List.mem_cons_self entry hentry entry' (hleft entry' hentry')
      · exact hcross job hjob job' (List.mem_cons_of_mem run hlater) entry hentry entry' hentry'
  · -- what was put now was to come after the entries of the earlier jobs, which have other keys
    have hearlier : ∀ entry ∈ before.flatMap JobRun.entries, ∀ entry' ∈ put, entry.key ≠ entry'.key := by
      intro entry hentry entry' hput
      obtain ⟨job, hjob, hentry⟩ := List.mem_flatMap.mp hentry
      exact hcross job hjob run List.mem_cons_self entry hentry entry' (hentries ▸ List.mem_append_left _ hput)
    have hcomes := h.comes
    rw [List.flatMap_append, List.flatMap_cons, hentries, overlay_append, overlay_append, overlay_append,
      overlay_comm hearlier, ← hcontents] at hcomes
    rw [List.flatMap_append, List.flatMap_cons, overlay_append, overlay_append, hcomes]

end

end ReadThrough
