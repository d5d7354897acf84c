import ReadThrough.Proofs.Store.Deadlines
import ReadThrough.Proofs.Store.InProcessMaps

/-! # The in-process stores keep deadlines

Both stores give an entry a deadline when it is put, and never move it. The expiring store gives one to every
entry, a day from now when the time to live is zero; the recency store then gives none. It drops a stale slot when
it comes across it, and slots for which there is no room.

* for each store, `written` lists the slots that a call fills, and the laws say what a call does to the slot of a
  key;
* `in_process_entries_live_to_their_deadlines` is the theorem for both.
-/

namespace ReadThrough
set_option autoImplicit false

theorem HasDeadline.of_scaledTtl {base ttl : Duration} {factor : Factor} {now : Nat}
    (scaled : scaledTtl base factor = .ok ttl) : HasDeadline (some base) factor now (some (now + ttl.nanos)) := by
  unfold scaledTtl at scaled
  split at scaled
  · rename_i drawn hdrawn
    obtain rfl := Except.ok.inj scaled
    exact ⟨drawn, hdrawn, rfl⟩
  · cases scaled

/-! ## The expiring store -/

namespace ExpiringStore

variable {store : ExpiringStore} {now : Nat} {key : String}

def slot? (store : ExpiringStore) (key : String) : Option Slot :=
  store.entries[key]?.map fun dated => ⟨dated.value, some dated.deadline⟩

/-- The slots for entries, up to the first whose time to live is no duration. -/
def slotsFor (settings : Settings) (now : Nat) : Jitter → List Entry → List (String × Slot)
  | _, [] => []
  | jitter, entry :: rest =>
    match settings.boundedLifetime jitter.next with
    | .error _ => []
    | .ok ttl =>
      (entry.key, ⟨entry.value, some (now + ttl.nanos)⟩) :: slotsFor settings now jitter.advance rest

def written {k : ReplyKind} (store : ExpiringStore) (now : Nat) (call : Call k) : List (String × Slot) :=
  match store.settings with
  | none => []
  | some settings => slotsFor settings now store.jitter call.entries

theorem valueAt_slot? (store : ExpiringStore) (now : Nat) (key : String) :
    (store.slot? key).bind (·.valueAt now) = store.get? now key := by
  unfold slot? get?
  cases store.entries[key]? with
  | none => rfl
  | some dated => rfl

theorem reads {k : ReplyKind} {call : Call k} {reply : Reply k}
    (found : call.replyFrom (fun key => (store.slot? key).bind (·.valueAt now)) = some reply) :
    (store.start now call).operation = .answered reply := by
  simp only [valueAt_slot?] at found
  cases call with
  | contains | containsAll | getAll =>
    obtain rfl := Option.some.inj found
    rfl
  | get key =>
    simp only [Call.replyFrom] at found
    simp only [start]
    cases hfound : store.get? now key with
    | none =>
      rw [hfound] at found
      obtain rfl := Option.some.inj found
      rfl
    | some value =>
      rw [hfound] at found
      obtain rfl := Option.some.inj found
      rfl
  | _ => cases found

/-! ### Putting -/

theorem put_of_unbroken {settings : Settings} {ttl : Duration} (ready : store.settings = some settings)
    (unbroken : settings.boundedLifetime store.jitter.next = .ok ttl) (entry : Entry) :
    store.put now entry = ({ store with
      jitter := store.jitter.advance
      entries := store.entries.insert entry.key ⟨entry.value, now + ttl.nanos⟩ }, .ok ()) := by
  simp only [put, ready, unbroken]

theorem put_of_broken {settings : Settings} {fault : Fault} (ready : store.settings = some settings)
    (broken : settings.boundedLifetime store.jitter.next = .error fault) (entry : Entry) :
    store.put now entry = ({ store with jitter := store.jitter.advance }, .error fault) := by
  simp only [put, ready, broken]

theorem putAll_single (store : ExpiringStore) (now : Nat) (entry : Entry) :
    store.putAll now [entry] = store.put now entry := by
  rw [putAll]
  split
  · rename_i next hput
    rw [hput, putAll]
  · rename_i next fault hput
    rw [hput]

theorem putAll_of_unready (unready : store.settings = none) (entries : List Entry) :
    (store.putAll now entries).1 = store := by
  cases entries with
  | nil => rfl
  | cons entry rest => rw [putAll, put_of_unready unready]

theorem putAll_settings (store : ExpiringStore) (now : Nat) (entries : List Entry) :
    (store.putAll now entries).1.settings = store.settings := by
  induction entries generalizing store with
  | nil => rfl
  | cons entry rest ih =>
    have hput : (store.put now entry).1.settings = store.settings := by
      unfold put
      split
      · rfl
      · dsimp only
        split <;> rfl
    rw [putAll]
    split
    · rename_i next hnext
      rw [ih, ← hput, hnext]
    · rename_i next fault hnext
      rw [← hput, hnext]

theorem slot?_insert (store : ExpiringStore) (entry : Entry) (deadline : Nat) (jitter : Jitter) (key : String) :
    ({ store with
      jitter := jitter
      entries := store.entries.insert entry.key ⟨entry.value, deadline⟩ } : ExpiringStore).slot? key =
      if entry.key = key then some ⟨entry.value, some deadline⟩ else store.slot? key := by
  unfold slot?
  rw [Std.TreeMap.getElem?_insert]
  by_cases h : entry.key = key <;> simp [h]

/-- Each entry that is put fills its slot, the later ones after the earlier ones. -/
theorem slot?_putAll {settings : Settings} (ready : store.settings = some settings) (entries : List Entry)
    (key : String) : (store.putAll now entries).1.slot? key =
      ((slotsFor settings now store.jitter entries).reverse.lookup key).or (store.slot? key) := by
  induction entries generalizing store with
  | nil => simp [putAll, slotsFor]
  | cons entry rest ih =>
    rw [slotsFor, putAll]
    cases hlifetime : settings.boundedLifetime store.jitter.next with
    | error fault =>
      rw [put_of_broken ready hlifetime]
      simp [slot?]
    | ok ttl =>
      rw [put_of_unbroken ready hlifetime]
      dsimp only
      have hrest := @ih { store with
        jitter := store.jitter.advance
        entries := store.entries.insert entry.key ⟨entry.value, now + ttl.nanos⟩ } ready
      rw [hrest, slot?_insert, List.reverse_cons, List.lookup_append, Option.or_assoc]
      congr 1
      by_cases h : entry.key = key
      · simp [h]
      · simp [h, List.lookup_cons, beq_false_of_ne (Ne.symm h)]

theorem getElem?_slotsFor {settings : Settings} {jitter : Jitter} {entries : List Entry} {next : ExpiringStore}
    (ready : store.settings = some settings) (same : store.jitter = jitter)
    (ok : store.putAll now entries = (next, .ok ())) {i : Nat} {entry : Entry} (puts : entries[i]? = some entry) :
    ∃ deadline, HasDeadline (some settings.boundedBase) (jitter.factor (jitter.drawn + i)) now deadline ∧
      (slotsFor settings now jitter entries)[i]? = some (entry.key, ⟨entry.value, deadline⟩) := by
  induction entries generalizing store jitter i with
  | nil => cases puts
  | cons first rest ih =>
    subst same
    rw [putAll] at ok
    rw [slotsFor]
    cases hlifetime : settings.boundedLifetime store.jitter.next with
    | error fault =>
      rw [put_of_broken ready hlifetime] at ok
      cases (Prod.mk.inj ok).2
    | ok ttl =>
      rw [put_of_unbroken ready hlifetime] at ok
      dsimp only at ok ⊢
      cases i with
      | zero =>
        obtain rfl := Option.some.inj puts
        exact ⟨_, .of_scaledTtl hlifetime, rfl⟩
      | succ i =>
        have hrest := @ih { store with
            jitter := store.jitter.advance
            entries := store.entries.insert first.key ⟨first.value, now + ttl.nanos⟩ }
          store.jitter.advance ready rfl ok i puts
        have hnumber : store.jitter.advance.drawn + i = store.jitter.drawn + (i + 1) := by
          simp only [Jitter.advance]
          omega
        rw [hnumber] at hrest
        exact hrest

theorem slotsFor_keys (settings : Settings) (now : Nat) (jitter : Jitter) (entries : List Entry) :
    (slotsFor settings now jitter entries).map Prod.fst <+: entries.map Entry.key := by
  induction entries generalizing jitter with
  | nil => exact List.prefix_refl []
  | cons entry rest ih =>
    rw [slotsFor]
    split
    · exact List.nil_prefix
    · exact List.cons_prefix_cons.mpr ⟨rfl, ih jitter.advance⟩

/-! ### Laws -/

theorem written_of_ok {call : Call .done} {i : Nat} {entry : Entry}
    (ok : (store.start now call).operation = .answered (.ok ())) (puts : call.entries[i]? = some entry) :
    ∃ first deadline, store.settings = some first ∧
      HasDeadline (some first.boundedBase) (store.jitter.factor (store.jitter.drawn + i)) now deadline ∧
      (store.written now call)[i]? = some (entry.key, ⟨entry.value, deadline⟩) := by
  have hputAll : (store.putAll now call.entries).2 = .ok () := by
    cases call with
    | put entry => simpa [start, StoreStep.answer, Call.entries, putAll_single] using ok
    | putAll entries => simpa [start, StoreStep.answer, Call.entries] using ok
    | _ => cases puts
  cases hready : store.settings with
  | none =>
    -- a store that is not ready refuses the first entry
    cases hentries : call.entries with
    | nil => simp [hentries] at puts
    | cons first rest => simp [hentries, putAll, put_of_unready hready] at hputAll
  | some settings =>
    obtain ⟨deadline, hdeadline, hslot⟩ := getElem?_slotsFor hready rfl (Prod.ext rfl hputAll) puts
    refine ⟨settings, deadline, rfl, hdeadline, ?_⟩
    simp only [written, hready]
    exact hslot

theorem written_keys {k : ReplyKind} (store : ExpiringStore) (now : Nat) (call : Call k) :
    (store.written now call).map Prod.fst <+: call.entries.map Entry.key := by
  unfold written
  split
  · exact List.nil_prefix
  · exact slotsFor_keys _ now store.jitter call.entries

theorem slot?_delete (store : ExpiringStore) (deleted key : String) :
    (store.delete deleted).slot? key = if deleted = key then none else store.slot? key := by
  unfold slot? delete
  rw [Std.TreeMap.getElem?_erase]
  by_cases h : deleted = key <;> simp [h]

theorem slot?_deleteAll (store : ExpiringStore) (keys : List String) (key : String) :
    (store.deleteAll keys).slot? key = if key ∈ keys then none else store.slot? key := by
  induction keys generalizing store with
  | nil => simp [deleteAll]
  | cons first rest ih =>
    show ((store.delete first).deleteAll rest).slot? key = _
    rw [ih, slot?_delete]
    by_cases hrest : key ∈ rest
    · simp [hrest]
    · by_cases hfirst : first = key
      · simp [hfirst]
      · simp [hrest, hfirst, Ne.symm hfirst]

theorem deleteAll_settings (store : ExpiringStore) (keys : List String) :
    (store.deleteAll keys).settings = store.settings := by
  induction keys generalizing store with
  | nil => rfl
  | cons first rest ih => exact ih (store.delete first)

theorem settings_start {k : ReplyKind} (store : ExpiringStore) (now : Nat) (call : Call k) :
    (store.start now call).store.settings = store.settings.or call.settings? := by
  cases call with
  | init settings =>
    simp only [start, init, Call.settings?]
    cases h : store.settings <;> simp [h]
  | get key =>
    simp only [start, Call.settings?, Option.or_none]
    split <;> rfl
  | put entry =>
    simpa [start, StoreStep.answer, Call.settings?, putAll_single] using putAll_settings store now [entry]
  | putAll entries => simpa [start, StoreStep.answer, Call.settings?] using putAll_settings store now entries
  | deleteAll keys => simpa [start, StoreStep.answer, Call.settings?] using deleteAll_settings store keys
  | sweep segments => simp [start, sweepOn_store, deleteAll_settings, Call.settings?]
  | clear =>
    simp only [start, Call.settings?, Option.or_none]
    split
    · rfl
    · rw [sweepOn_store, deleteAll_settings]
  | contains | containsAll | getAll | delete => simp [start, StoreStep.answer, delete, Call.settings?]

theorem slot?_sweepOn (store : ExpiringStore) (keys : List String) (key : String) :
    (store.sweepOn keys).store.slot? key = if key ∈ keys.take sweepPortion then none else store.slot? key := by
  rw [sweepOn_store, slot?_deleteAll]

theorem written_eq_nil {k : ReplyKind} {call : Call k} (puts : call.entries = []) :
    store.written now call = [] := by
  unfold written
  rw [puts]
  split <;> rfl

theorem slot?_start {k : ReplyKind} (store : ExpiringStore) (now : Nat) (call : Call k) (key : String) :
    (store.start now call).store.slot? key =
      ((store.written now call).reverse.lookup key).or (store.slot? key) ∨
    (store.start now call).store.slot? key = none ∧
      (key ∈ call.removed (store.sweepKeys now) store.settings ∨ store.written now call ≠ [] ∨
        ∃ slot, store.slot? key = some slot ∧ slot.isStale now = true) := by
  have hputs : ∀ entries, call.entries = entries →
      (store.putAll now entries).1.slot? key =
        ((store.written now call).reverse.lookup key).or (store.slot? key) := by
    rintro entries rfl
    cases hready : store.settings with
    | none => rw [putAll_of_unready hready, written, hready]; rfl
    | some settings => rw [slot?_putAll hready, written, hready]
  have hdeletes : ∀ keys, call.entries = [] →
      (store.deleteAll keys).slot? key = ((store.written now call).reverse.lookup key).or (store.slot? key) ∨
      (store.deleteAll keys).slot? key = none ∧ key ∈ keys := by
    intro keys hentries
    rw [written_eq_nil hentries, slot?_deleteAll]
    by_cases h : key ∈ keys
    · exact .inr ⟨if_pos h, h⟩
    · exact .inl (if_neg h)
  cases call with
  | put entry =>
    left
    rw [← hputs [entry] rfl, putAll_single]
    rfl
  | putAll entries => exact .inl (hputs entries rfl)
  | delete deleted => exact (hdeletes [deleted] rfl).imp_right fun h => ⟨h.1, .inl h.2⟩
  | deleteAll keys => exact (hdeletes keys rfl).imp_right fun h => ⟨h.1, .inl h.2⟩
  | sweep segments =>
    rw [start, sweepOn_store]
    exact (hdeletes _ rfl).imp_right fun h => ⟨h.1, .inl h.2⟩
  | clear =>
    rw [start]
    cases hready : store.settings with
    | none =>
      rw [written_eq_nil rfl]
      exact .inl rfl
    | some settings =>
      dsimp only
      rw [sweepOn_store]
      exact (hdeletes _ rfl).imp_right fun h => ⟨h.1, .inl h.2⟩
  | init settings =>
    have hsame : (store.init settings).1.slot? key = store.slot? key := by
      unfold init
      split <;> rfl
    rw [written_eq_nil rfl]
    exact .inl hsame
  | get key =>
    rw [written_eq_nil rfl, start]
    split <;> exact .inl rfl
  | contains | containsAll | getAll =>
    rw [written_eq_nil rfl]
    exact .inl rfl

instance : DatedMedium ExpiringStore where
  inOneGo := inOneGo
  slot? := slot?
  settings := ExpiringStore.settings
  jitter := ExpiringStore.jitter
  base? settings := some settings.boundedBase
  sweepKeys := sweepKeys
  written := written
  reads := reads
  written_of_ok := written_of_ok
  written_keys := written_keys
  settings_start := settings_start
  settings_sweepOn store keys := by
    show (store.sweepOn keys).store.settings = _
    rw [sweepOn_store, deleteAll_settings]
  slot?_start := slot?_start
  slot?_sweepOn := slot?_sweepOn

end ExpiringStore

/-! ## The recency store -/

namespace RecencyStore

variable {store : RecencyStore} {now : Nat} {key other : String}

def slot? (store : RecencyStore) (key : String) : Option Slot := store.slots.lookup key

/-- The base time to live, none if entries do not expire. -/
def base? (settings : Settings) : Option Duration := if settings.ttl.isZero then none else some settings.ttl

/-- The slots for entries, none if one of them cannot be made. -/
def slotsFor (store : RecencyStore) (now : Nat) (entries : List Entry) : List (String × Slot) :=
  match (store.newSlots now entries).2 with
  | .ok slots => slots
  | .error _ => []

def written {k : ReplyKind} (store : RecencyStore) (now : Nat) (call : Call k) : List (String × Slot) :=
  store.slotsFor now call.entries

/-! ### Looking -/

theorem start_get_store (store : RecencyStore) (now : Nat) (key : String) :
    (store.start now (.get key)).store = (store.look now key).1 := by
  rw [start]
  generalize store.look now key = looked
  obtain ⟨next, _ | value⟩ := looked <;> rfl

theorem look_value (store : RecencyStore) (now : Nat) (key : String) :
    (store.look now key).2 = (store.slot? key).bind (·.valueAt now) := by
  unfold look slot?
  cases store.slots.lookup key with
  | none => rfl
  | some slot =>
    rw [Option.bind_some, Slot.valueAt_eq]
    dsimp only
    split <;> rfl

/-- A look keeps every slot, but drops the one it comes across if that is stale. -/
theorem keptOrStale_look (store : RecencyStore) (now : Nat) (key other : String) :
    KeptOrStale now (store.slot? other) ((store.look now key).1.slot? other) := by
  unfold look slot?
  cases hslot : store.slots.lookup key with
  | none => exact .inl rfl
  | some slot =>
    by_cases hkey : key = other
    · subst hkey
      cases hstale : slot.isStale now with
      | true => exact .inr ⟨by simp [hstale, lookup_without], slot, hslot, hstale⟩
      | false => exact .inl (by simp [hstale, hslot])
    · left
      cases hstale : slot.isStale now with
      | true => simp [hstale, lookup_without, hkey]
      | false => simp [hstale, lookup_cons, lookup_without, hkey]

theorem keptOrStale_lookAll (store : RecencyStore) (now : Nat) (keys : List String) (other : String) :
    KeptOrStale now (store.slot? other) ((store.lookAll now keys).1.slot? other) := by
  induction keys generalizing store with
  | nil => exact .inl rfl
  | cons first rest ih => exact (keptOrStale_look store now first other).trans (Nat.le_refl now) (ih _)

theorem lookAll_values (store : RecencyStore) (now : Nat) (keys : List String) :
    (store.lookAll now keys).2 = keys.map fun key => (store.slot? key).bind (·.valueAt now) := by
  induction keys generalizing store with
  | nil => rfl
  | cons first rest ih =>
    have hrest : (fun key => ((store.look now first).1.slot? key).bind (·.valueAt now)) =
        fun key => (store.slot? key).bind (·.valueAt now) :=
      funext fun key => (keptOrStale_look store now first key).valueAt (Nat.le_refl now)
    rw [List.map_cons, ← look_value, ← hrest, ← ih]
    rfl

theorem keptOrStale_containsAll (store : RecencyStore) (now : Nat) (keys : List String) (other : String) :
    KeptOrStale now (store.slot? other) ((store.containsAll now keys).1.slot? other) := by
  induction keys generalizing store with
  | nil => exact .inl rfl
  | cons first rest ih =>
    have hfirst := keptOrStale_look store now first other
    rw [containsAll]
    split
    · rename_i next found hlook
      rw [hlook] at hfirst
      exact hfirst.trans (Nat.le_refl now) (ih next)
    · rename_i next hlook
      rw [hlook] at hfirst
      exact hfirst

theorem containsAll_value (store : RecencyStore) (now : Nat) (keys : List String) :
    (store.containsAll now keys).2 = keys.all fun key => ((store.slot? key).bind (·.valueAt now)).isSome := by
  induction keys generalizing store with
  | nil => rfl
  | cons first rest ih =>
    have hvalue := look_value store now first
    have hrest : (fun key => (((store.look now first).1.slot? key).bind (·.valueAt now)).isSome) =
        fun key => ((store.slot? key).bind (·.valueAt now)).isSome :=
      funext fun key =>
        congrArg Option.isSome ((keptOrStale_look store now first key).valueAt (Nat.le_refl now))
    rw [containsAll, List.all_cons, ← hrest, ← hvalue]
    split
    · rename_i next found hlook
      rw [ih, hlook]
      rfl
    · rename_i next hlook
      rw [hlook]
      rfl

theorem reads {k : ReplyKind} {call : Call k} {reply : Reply k}
    (found : call.replyFrom (fun key => (store.slot? key).bind (·.valueAt now)) = some reply) :
    (store.start now call).operation = .answered reply := by
  cases call with
  | contains key =>
    obtain rfl := Option.some.inj found
    simp only [start, StoreStep.answer, look_value]
  | containsAll keys =>
    obtain rfl := Option.some.inj found
    simp only [start, StoreStep.answer, containsAll_value]
  | getAll keys =>
    obtain rfl := Option.some.inj found
    simp only [start, StoreStep.answer, lookAll_values]
  | get key =>
    have hvalue := look_value store now key
    simp only [Call.replyFrom, ← hvalue] at found
    rw [start]
    split
    · rename_i next value hlook
      rw [hlook] at found
      obtain rfl := Option.some.inj found
      rfl
    · rename_i next hlook
      rw [hlook] at found
      obtain rfl := Option.some.inj found
      rfl
  | _ => cases found

/-! ### New slots -/

theorem hasDeadline_of_lifetime {first : Settings} {factor : Factor} {ttl : Option Duration} {ends : Option Nat}
    (hlifetime : first.lifetime factor = .ok ttl) (hdeadline : deadline now ttl = .ok ends) :
    HasDeadline (base? first) factor now ends := by
  unfold Settings.lifetime at hlifetime
  unfold base?
  split
  · rename_i hzero
    rw [if_pos hzero] at hlifetime
    obtain rfl := Except.ok.inj hlifetime
    exact (Except.ok.inj hdeadline).symm
  · rename_i hzero
    rw [if_neg hzero] at hlifetime
    cases hscaled : scaledTtl first.ttl factor with
    | error fault =>
      rw [hscaled] at hlifetime
      cases hlifetime
    | ok drawn =>
      rw [hscaled] at hlifetime
      obtain rfl := Except.ok.inj hlifetime
      unfold deadline at hdeadline
      dsimp only at hdeadline
      split at hdeadline
      · obtain rfl := Except.ok.inj hdeadline
        exact .of_scaledTtl hscaled
      · cases hdeadline

/-- A new slot gets the deadline for the next factor. -/
theorem newSlot_eq {next : RecencyStore} {value : String} {slot : Slot}
    (new : store.newSlot now value = (next, .ok slot)) :
    ∃ first ends, store.settings = some first ∧ HasDeadline (base? first) store.jitter.next now ends ∧
      slot = ⟨value, ends⟩ ∧ next = { store with jitter := store.jitter.advance } := by
  unfold newSlot at new
  split at new
  · cases new
  · rename_i first hfirst
    dsimp only at new
    split at new
    · cases new
    · rename_i ttl httl
      split at new
      · cases new
      · rename_i ends hends
        obtain ⟨rfl, hslot⟩ := Prod.mk.inj new
        exact ⟨first, ends, hfirst, hasDeadline_of_lifetime httl hends, (Except.ok.inj hslot).symm, rfl⟩

theorem newSlots_cons {next : RecencyStore} {entry : Entry} {rest : List Entry} {slots : List (String × Slot)}
    (new : store.newSlots now (entry :: rest) = (next, .ok slots)) :
    ∃ middle slot others, store.newSlot now entry.value = (middle, .ok slot) ∧
      middle.newSlots now rest = (next, .ok others) ∧ slots = (entry.key, slot) :: others := by
  rw [newSlots] at new
  split at new
  · cases new
  · rename_i middle slot hslot
    split at new
    · cases new
    · rename_i last others hothers
      obtain ⟨rfl, hslots⟩ := Prod.mk.inj new
      exact ⟨middle, slot, others, hslot, hothers, (Except.ok.inj hslots).symm⟩

/-- New slots get the deadlines for the next factors. -/
theorem getElem?_newSlots {next : RecencyStore} {entries : List Entry} {slots : List (String × Slot)} {i : Nat}
    {entry : Entry} (new : store.newSlots now entries = (next, .ok slots)) (puts : entries[i]? = some entry) :
    ∃ first ends, store.settings = some first ∧
      HasDeadline (base? first) (store.jitter.factor (store.jitter.drawn + i)) now ends ∧
      slots[i]? = some (entry.key, ⟨entry.value, ends⟩) := by
  induction entries generalizing store slots i with
  | nil => cases puts
  | cons earliest rest ih =>
    obtain ⟨middle, slot, others, hslot, hothers, rfl⟩ := newSlots_cons new
    obtain ⟨first, ends, hfirst, hends, rfl, rfl⟩ := newSlot_eq hslot
    cases i with
    | zero =>
      obtain rfl := Option.some.inj puts
      exact ⟨first, ends, hfirst, hends, rfl⟩
    | succ i =>
      have hnumber : store.jitter.advance.drawn + i = store.jitter.drawn + (i + 1) := by
        simp only [Jitter.advance]
        omega
      rw [← hnumber]
      exact ih hothers puts

theorem newSlots_keys {next : RecencyStore} {entries : List Entry} {slots : List (String × Slot)}
    (new : store.newSlots now entries = (next, .ok slots)) : slots.map Prod.fst = entries.map Entry.key := by
  induction entries generalizing store slots with
  | nil =>
    obtain rfl := Except.ok.inj (Prod.mk.inj new).2
    rfl
  | cons earliest rest ih =>
    obtain ⟨middle, slot, others, -, hothers, rfl⟩ := newSlots_cons new
    rw [List.map_cons, List.map_cons, ih hothers]

/-! ### Placing -/

theorem lookup_take (slots : List (String × Slot)) (capacity : Nat) (key : String) :
    (slots.take capacity).lookup key = slots.lookup key ∨ (slots.take capacity).lookup key = none := by
  have hsplit : slots.lookup key =
      ((slots.take capacity).lookup key).or ((slots.drop capacity).lookup key) := by
    rw [← List.lookup_append, List.take_append_drop]
  cases htaken : (slots.take capacity).lookup key with
  | none => exact .inr rfl
  | some slot =>
    rw [htaken, Option.some_or] at hsplit
    exact .inl hsplit.symm

/-- The last slot may go, and no other slot changes. -/
theorem slot?_place (store : RecencyStore) (key : String) (slot : Slot) (other : String) :
    (store.place key slot).slot? other = (if key = other then some slot else store.slot? other) ∨
      (store.place key slot).slot? other = none := by
  have hwhole : ((key, slot) :: without key store.slots).lookup other =
      if key = other then some slot else store.slot? other := by
    rw [lookup_cons, lookup_without, slot?]
    split <;> rfl
  rw [← hwhole]
  exact lookup_take _ store.capacity other

theorem slot?_places (store : RecencyStore) (slots : List (String × Slot)) (key : String) :
    (slots.foldl (fun store entry => store.place entry.1 entry.2) store).slot? key =
      (slots.reverse.lookup key).or (store.slot? key) ∨
    (slots.foldl (fun store entry => store.place entry.1 entry.2) store).slot? key = none ∧ slots ≠ [] := by
  induction slots generalizing store with
  | nil => exact .inl rfl
  | cons first rest ih =>
    rw [List.foldl_cons]
    have hlookup : ((first :: rest).reverse.lookup key).or (store.slot? key) =
        (rest.reverse.lookup key).or (if first.1 = key then some first.2 else store.slot? key) := by
      rw [List.reverse_cons, List.lookup_append, Option.or_assoc, lookup_cons]
      congr 1
      split <;> rfl
    rw [hlookup]
    rcases ih (store.place first.1 first.2) with hrest | ⟨hnone, -⟩
    · rcases slot?_place store first.1 first.2 key with hplaced | hplaced
      · rw [hrest, hplaced]
        exact .inl rfl
      · rw [hrest, hplaced]
        cases rest.reverse.lookup key with
        | none => exact .inr ⟨rfl, List.cons_ne_nil first rest⟩
        | some slot => exact .inl rfl
    · exact .inr ⟨hnone, List.cons_ne_nil first rest⟩

theorem putAll_single (store : RecencyStore) (now : Nat) (entry : Entry) :
    store.putAll now [entry] = store.put now entry := by
  simp only [putAll, put, newSlots]
  generalize store.newSlot now entry.value = made
  obtain ⟨next, fault | slot⟩ := made <;> rfl

theorem putAll_store (store : RecencyStore) (now : Nat) (entries : List Entry) :
    (store.putAll now entries).1 = (store.slotsFor now entries).foldl
      (fun store entry => store.place entry.1 entry.2) (store.newSlots now entries).1 := by
  rw [putAll, slotsFor]
  generalize store.newSlots now entries = made
  obtain ⟨next, fault | slots⟩ := made <;> rfl

theorem slot?_putAll (store : RecencyStore) (now : Nat) (entries : List Entry) (key : String) :
    (store.putAll now entries).1.slot? key =
      ((store.slotsFor now entries).reverse.lookup key).or (store.slot? key) ∨
    (store.putAll now entries).1.slot? key = none ∧ store.slotsFor now entries ≠ [] := by
  have hsame : (store.newSlots now entries).1.slot? key = store.slot? key := by
    rw [slot?, slot?, newSlots_slots]
  rw [putAll_store, ← hsame]
  exact slot?_places _ _ key

theorem written_of_ok {call : Call .done} {i : Nat} {entry : Entry}
    (ok : (store.start now call).operation = .answered (.ok ())) (puts : call.entries[i]? = some entry) :
    ∃ first ends, store.settings = some first ∧
      HasDeadline (base? first) (store.jitter.factor (store.jitter.drawn + i)) now ends ∧
      (store.written now call)[i]? = some (entry.key, ⟨entry.value, ends⟩) := by
  have hputAll : (store.putAll now call.entries).2 = .ok () := by
    cases call with
    | put entry => simpa [start, StoreStep.answer, Call.entries, putAll_single] using ok
    | putAll entries => simpa [start, StoreStep.answer, Call.entries] using ok
    | _ => cases puts
  rw [written, slotsFor]
  cases hnew : (store.newSlots now call.entries).2 with
  | error fault =>
    have hbroken : (store.putAll now call.entries).2 = .error fault := by
      rw [putAll]
      generalize store.newSlots now call.entries = made at hnew
      obtain ⟨next, made⟩ := made
      obtain rfl : made = .error fault := hnew
      rfl
    rw [hbroken] at hputAll
    cases hputAll
  | ok slots => exact getElem?_newSlots (Prod.ext rfl hnew) puts

theorem written_eq_nil {k : ReplyKind} {call : Call k} (entries : call.entries = []) :
    store.written now call = [] := by
  rw [written, entries]
  rfl

theorem written_keys {k : ReplyKind} (store : RecencyStore) (now : Nat) (call : Call k) :
    (store.written now call).map Prod.fst <+: call.entries.map Entry.key := by
  rw [written, slotsFor]
  cases hnew : (store.newSlots now call.entries).2 with
  | error fault => exact List.nil_prefix
  | ok slots =>
    dsimp only
    rw [newSlots_keys (Prod.ext rfl hnew)]

theorem slot?_deleteAll (store : RecencyStore) (keys : List String) (key : String) :
    (store.deleteAll keys).slot? key = if key ∈ keys then none else store.slot? key := by
  induction keys generalizing store with
  | nil => simp [deleteAll]
  | cons first rest ih =>
    show ((store.delete first).deleteAll rest).slot? key = _
    rw [ih, slot?, slot?, delete, lookup_without]
    by_cases hrest : key ∈ rest
    · simp [hrest]
    · by_cases hfirst : first = key
      · simp [hfirst]
      · simp [hrest, hfirst, Ne.symm hfirst]

/-! ### What calls leave alone -/

theorem look_eq (store : RecencyStore) (now : Nat) (key : String) :
    ∃ slots, (store.look now key).1 = { store with slots := slots } := by
  unfold look
  split
  · exact ⟨store.slots, rfl⟩
  · split <;> exact ⟨_, rfl⟩

theorem lookAll_eq (store : RecencyStore) (now : Nat) (keys : List String) :
    ∃ slots, (store.lookAll now keys).1 = { store with slots := slots } := by
  induction keys generalizing store with
  | nil => exact ⟨store.slots, rfl⟩
  | cons first rest ih =>
    obtain ⟨slots, hlook⟩ := look_eq store now first
    obtain ⟨slots', hrest⟩ := ih (store.look now first).1
    exact ⟨slots', hrest.trans (by rw [hlook])⟩

theorem containsAll_eq (store : RecencyStore) (now : Nat) (keys : List String) :
    ∃ slots, (store.containsAll now keys).1 = { store with slots := slots } := by
  induction keys generalizing store with
  | nil => exact ⟨store.slots, rfl⟩
  | cons first rest ih =>
    obtain ⟨slots, hlook⟩ := look_eq store now first
    rw [containsAll]
    split
    · rename_i next found hnext
      obtain ⟨slots', hrest⟩ := ih next
      have hnext' : next = { store with slots := slots } := by rw [← hlook, hnext]
      exact ⟨slots', by rw [hrest, hnext']⟩
    · rename_i next hnext
      exact ⟨slots, by rw [← hlook, hnext]⟩

theorem newSlot_store (store : RecencyStore) (now : Nat) (value : String) :
    ∃ jitter, (store.newSlot now value).1 = { store with jitter := jitter } := by
  unfold newSlot
  split
  · exact ⟨store.jitter, rfl⟩
  · dsimp only
    split
    · exact ⟨_, rfl⟩
    · split <;> exact ⟨_, rfl⟩

theorem newSlots_store (store : RecencyStore) (now : Nat) (entries : List Entry) :
    ∃ jitter, (store.newSlots now entries).1 = { store with jitter := jitter } := by
  induction entries generalizing store with
  | nil => exact ⟨store.jitter, rfl⟩
  | cons entry rest ih =>
    obtain ⟨jitter, hfirst⟩ := newSlot_store store now entry.value
    obtain ⟨jitter', hrest⟩ := ih (store.newSlot now entry.value).1
    rw [newSlots]
    split
    · rename_i next fault hnew
      rw [hnew] at hfirst
      exact ⟨jitter, hfirst⟩
    · rename_i next slot hnew
      rw [hnew] at hfirst hrest
      dsimp only at hfirst
      refine ⟨jitter', ?_⟩
      split
      · rename_i last fault hlast
        rw [hlast, hfirst] at hrest
        exact hrest
      · rename_i last slots hlast
        rw [hlast, hfirst] at hrest
        exact hrest

theorem places_eq (store : RecencyStore) (slots : List (String × Slot)) :
    ∃ placed, slots.foldl (fun store entry => store.place entry.1 entry.2) store =
      { store with slots := placed } := by
  induction slots generalizing store with
  | nil => exact ⟨store.slots, rfl⟩
  | cons first rest ih =>
    obtain ⟨placed, hrest⟩ := ih (store.place first.1 first.2)
    exact ⟨placed, hrest⟩

theorem putAll_eq (store : RecencyStore) (now : Nat) (entries : List Entry) :
    ∃ slots jitter, (store.putAll now entries).1 = { store with slots := slots, jitter := jitter } := by
  obtain ⟨jitter, hnew⟩ := newSlots_store store now entries
  obtain ⟨slots, hplaced⟩ := places_eq (store.newSlots now entries).1 (store.slotsFor now entries)
  exact ⟨slots, jitter, by rw [putAll_store, hplaced, hnew]⟩

theorem deleteAll_eq (store : RecencyStore) (keys : List String) :
    ∃ slots, store.deleteAll keys = { store with slots := slots } := by
  induction keys generalizing store with
  | nil => exact ⟨store.slots, rfl⟩
  | cons first rest ih =>
    obtain ⟨slots, hrest⟩ := ih (store.delete first)
    exact ⟨slots, hrest⟩

theorem sweepOn_eq (store : RecencyStore) (keys : List String) :
    ∃ slots, (store.sweepOn keys).store = { store with slots := slots } := by
  rw [sweepOn_store]
  exact deleteAll_eq store _

/-- A call brings settings if there are none; it keeps the capacity. -/
theorem start_eq {k : ReplyKind} (store : RecencyStore) (now : Nat) (call : Call k) :
    ∃ slots jitter, (store.start now call).store = { store with
      slots := slots
      jitter := jitter
      settings := store.settings.or call.settings? } := by
  have hslots : call.settings? = none → ∀ next : RecencyStore, (∃ slots, next = { store with slots := slots }) →
      ∃ slots jitter, next = { store with
        slots := slots
        jitter := jitter
        settings := store.settings.or call.settings? } := by
    rintro hnone _ ⟨slots, rfl⟩
    exact ⟨slots, store.jitter, by rw [hnone, Option.or_none]⟩
  cases call with
  | init settings =>
    refine ⟨store.slots, store.jitter, ?_⟩
    simp only [start, init, Call.settings?]
    cases h : store.settings with
    | none => rfl
    | some first =>
      dsimp only
      rw [Option.some_or, ← h]
  | get key =>
    rw [start_get_store]
    exact hslots rfl _ (look_eq store now key)
  | contains key => exact hslots rfl _ (look_eq store now key)
  | containsAll keys => exact hslots rfl _ (containsAll_eq store now keys)
  | getAll keys => exact hslots rfl _ (lookAll_eq store now keys)
  | put entry =>
    obtain ⟨slots, jitter, hput⟩ := putAll_eq store now [entry]
    rw [putAll_single] at hput
    exact ⟨slots, jitter, by simp [start, StoreStep.answer, Call.settings?, hput]⟩
  | putAll entries =>
    obtain ⟨slots, jitter, hput⟩ := putAll_eq store now entries
    exact ⟨slots, jitter, by simp [start, StoreStep.answer, Call.settings?, hput]⟩
  | delete key => exact hslots rfl _ ⟨_, rfl⟩
  | deleteAll keys => exact hslots rfl _ (deleteAll_eq store keys)
  | sweep segments => exact hslots rfl _ (sweepOn_eq store _)
  | clear =>
    rw [start]
    split
    · exact hslots rfl _ ⟨_, rfl⟩
    · exact hslots rfl _ (sweepOn_eq store _)

/-! ### Laws -/

theorem slot?_sweepOn (store : RecencyStore) (keys : List String) (key : String) :
    (store.sweepOn keys).store.slot? key = if key ∈ keys.take sweepPortion then none else store.slot? key := by
  rw [sweepOn_store, slot?_deleteAll]

theorem slot?_start {k : ReplyKind} (store : RecencyStore) (now : Nat) (call : Call k) (key : String) :
    (store.start now call).store.slot? key =
      ((store.written now call).reverse.lookup key).or (store.slot? key) ∨
    (store.start now call).store.slot? key = none ∧
      (key ∈ call.removed store.sweepKeys store.settings ∨ store.written now call ≠ [] ∨
        ∃ slot, store.slot? key = some slot ∧ slot.isStale now = true) := by
  have hreads : ∀ next : RecencyStore, call.entries = [] → KeptOrStale now (store.slot? key) (next.slot? key) →
      next.slot? key = ((store.written now call).reverse.lookup key).or (store.slot? key) ∨
      next.slot? key = none ∧ (key ∈ call.removed store.sweepKeys store.settings ∨
        store.written now call ≠ [] ∨ ∃ slot, store.slot? key = some slot ∧ slot.isStale now = true) := by
    intro next hentries hkept
    rw [written_eq_nil hentries]
    exact hkept.imp id fun h => ⟨h.1, .inr (.inr h.2)⟩
  have hdeletes : ∀ keys, call.entries = [] →
      (store.deleteAll keys).slot? key = ((store.written now call).reverse.lookup key).or (store.slot? key) ∨
      (store.deleteAll keys).slot? key = none ∧ key ∈ keys := by
    intro keys hentries
    rw [written_eq_nil hentries, slot?_deleteAll]
    by_cases h : key ∈ keys
    · exact .inr ⟨if_pos h, h⟩
    · exact .inl (if_neg h)
  cases call with
  | put entry =>
    rw [start]
    dsimp only
    rw [← putAll_single]
    exact (slot?_putAll store now [entry] key).imp_right fun h => ⟨h.1, .inr (.inl h.2)⟩
  | putAll entries => exact (slot?_putAll store now entries key).imp_right fun h => ⟨h.1, .inr (.inl h.2)⟩
  | delete deleted => exact (hdeletes [deleted] rfl).imp_right fun h => ⟨h.1, .inl h.2⟩
  | deleteAll keys => exact (hdeletes keys rfl).imp_right fun h => ⟨h.1, .inl h.2⟩
  | sweep segments =>
    rw [start, sweepOn_store]
    exact (hdeletes _ rfl).imp_right fun h => ⟨h.1, .inl h.2⟩
  | clear =>
    rw [start]
    cases hready : store.settings with
    | none =>
      rw [written_eq_nil rfl]
      exact .inl rfl
    | some settings =>
      dsimp only
      rw [sweepOn_store]
      exact (hdeletes _ rfl).imp_right fun h => ⟨h.1, .inl h.2⟩
  | init settings =>
    have hsame : (store.init settings).1.slot? key = store.slot? key := by
      unfold init
      split <;> rfl
    exact hreads _ rfl (.inl hsame)
  | get asked =>
    rw [start_get_store]
    exact hreads _ rfl (keptOrStale_look store now asked key)
  | contains asked => exact hreads _ rfl (keptOrStale_look store now asked key)
  | containsAll keys => exact hreads _ rfl (keptOrStale_containsAll store now keys key)
  | getAll keys => exact hreads _ rfl (keptOrStale_lookAll store now keys key)

instance : DatedMedium RecencyStore where
  inOneGo := inOneGo
  slot? := slot?
  settings := RecencyStore.settings
  jitter := RecencyStore.jitter
  base? := base?
  sweepKeys store _ := store.sweepKeys
  written := written
  reads := reads
  written_of_ok := written_of_ok
  written_keys := written_keys
  settings_start store now call := by
    obtain ⟨slots, jitter, hstart⟩ := start_eq store now call
    show (store.start now call).store.settings = _
    rw [hstart]
  settings_sweepOn store keys := by
    obtain ⟨slots, hsweep⟩ := sweepOn_eq store keys
    show (store.sweepOn keys).store.settings = _
    rw [hsweep]
  slot?_start := slot?_start
  slot?_sweepOn := slot?_sweepOn

end RecencyStore

/-! ## Both stores -/

/-- In every history of a new store of either kind, an entry that was put is found up to its deadline and not from
then on. Reads do not move the deadline, and later set-ups do not change the base time to live. When that is zero,
entries of the recency store do not expire, and those of the expiring store live a day. -/
theorem in_process_entries_live_to_their_deadlines (factors : Jitter) {capacity : Nat} {jitter : Jitter}
    {recency : RecencyStore} (created : RecencyStore.create capacity jitter = .ok recency) :
    DatedMedium.KeepsDeadlines
        (fun settings => if settings.ttl.isZero then none else some settings.ttl) recency ∧
      DatedMedium.KeepsDeadlines
        (fun settings => some (if settings.ttl.isZero then .oneDay else settings.ttl))
        ({ jitter := factors } : ExpiringStore) := by
  have hnew : DatedMedium.settings recency = none := (RecencyStore.create_eq created).2.1
  exact ⟨DatedMedium.keepsDeadlines hnew, DatedMedium.keepsDeadlines rfl⟩

section

variable {σ : Type} [Medium σ] [DatedMedium σ] {store : σ}

def minute : Settings := ⟨⟨60 * nanosPerSecond, Nat.le_of_ble_eq_true rfl⟩, false, "a"⟩

/-- The first step of a call. -/
def Occasion.asking {k : ReplyKind} (now : Nat) (store : σ) (call : Call k) : Occasion σ :=
  ⟨now, store, k, .asked call, DatedMedium.inOneGo.start store now call⟩

theorem Medium.Works.asking {k : ReplyKind} {now time last : Nat} {final : σ} {history : List (Occasion σ)}
    {call : Call k} (later : now ≤ time)
    (works : Medium.Works time (Occasion.asking time store call).step.store history last final) :
    Medium.Works now store (.asking time store call :: history) last final := by
  show Medium.Works now (Occasion.asking time store call).store _ last final
  exact .step later (DatedMedium.inOneGo.step_asks (.inl rfl)) works

/-- An entry that is to live a minute. -/
def storing (store : σ) : Occasion σ :=
  .asking 0 (Occasion.asking 0 store (.init minute)).step.store (.put ⟨"k", "v"⟩)

/-- A read of the entry, so many seconds after it was put. -/
def readingAfter (store : σ) (seconds : Nat) : Occasion σ :=
  .asking (seconds * nanosPerSecond) (storing store).step.store (.get "k")

theorem answers_readingAfter {base? : Settings → Option Duration} (keeps : DatedMedium.KeepsDeadlines base? store)
    (base : base? minute = some minute.ttl) (ok : (storing store).Answers (.put ⟨"k", "v"⟩) (.ok ()))
    (kept : ¬ (storing store).Evicts "k")
    (steady : ∀ i, (DatedMedium.jitter (storing store).store).factor i = Factor.one) (seconds : Nat) :
    (readingAfter store seconds).Answers (.get "k")
      (if seconds < 60 then .ok "v" else .error (.failed .notFound)) := by
  have hworks : Medium.Works 0 store
      ([.asking 0 store (.init minute)] ++ storing store :: ([] ++ [readingAfter store seconds]))
      (seconds * nanosPerSecond) (readingAfter store seconds).step.store :=
    .asking (Nat.le_refl 0) (.asking (Nat.le_refl 0) (.asking (Nat.zero_le _) .rest))
  obtain ⟨first, deadline, hfirst, hdeadline, found, hfound, hreading⟩ :=
    keeps (i := 0) hworks ⟨_, ok, rfl, List.forall_mem_nil _⟩ kept (List.forall_mem_nil _)
  obtain rfl : minute = first := Option.some.inj hfirst
  rw [base, steady] at hdeadline
  obtain ⟨drawn, hdrawn, rfl⟩ := hdeadline
  obtain rfl : drawn = minute.ttl := Option.some.inj (hdrawn.symm.trans (by decide))
  have htime : (readingAfter store seconds).now < (storing store).now + minute.ttl.nanos ↔ seconds < 60 := by
    show seconds * nanosPerSecond < 0 + 60 * nanosPerSecond ↔ seconds < 60
    unfold nanosPerSecond
    omega
  have hreply : Call.replyFrom found (.get "k") =
      some (if seconds < 60 then .ok "v" else .error (.failed .notFound)) := by
    simp only [Call.replyFrom, hfound, Slot.valueAt, htime]
    by_cases h : seconds < 60 <;> simp [h]
  exact .intro (.inl rfl) (hreading _ _ (.inl rfl) hreply)

end

theorem in_process_entries_lived_a_minute :
    ∃ recency : RecencyStore, RecencyStore.create 2 .steady = .ok recency ∧
      (readingAfter recency 59).Answers (.get "k") (.ok "v") ∧
      (readingAfter recency 60).Answers (.get "k") (.error (.failed .notFound)) ∧
      (readingAfter ({} : ExpiringStore) 59).Answers (.get "k") (.ok "v") ∧
      (readingAfter ({} : ExpiringStore) 60).Answers (.get "k") (.error (.failed .notFound)) := by
  have created : RecencyStore.create 2 .steady = .ok _ := rfl
  obtain ⟨hrecency, hexpiring⟩ := in_process_entries_live_to_their_deadlines .steady created
  have hread := answers_readingAfter hrecency rfl (.intro (.inl rfl) rfl) (fun h => by cases h.2.2) fun _ => rfl
  have hread' := answers_readingAfter hexpiring rfl (.intro (.inl rfl) rfl) (fun h => by cases h.2.2) fun _ => rfl
  exact ⟨_, rfl, hread 59, hread 60, hread' 59, hread' 60⟩

end ReadThrough
