import Mathlib.Data.List.Infix
import ReadThrough.Proofs.Store.InProcess

/-! # Entries live to their deadlines

A store may be in the middle of any number of calls, and time passes between its steps. What it does can be
written down as a history of its steps. In such a history an entry gets a deadline when it is put, and keeps it:
the entry can be read up to its deadline and not from then on, however often it was read before.

* an `Occasion` is a step that a medium took, and `Medium.Works` says that it took some, one after another;
* `Call.replyFrom` is the reply to a reading call if this is what is found under the keys;
* `DatedMedium` lists what makes a medium keep deadlines: what each step does to the slot of a key;
* `DatedMedium.KeepsDeadlines` says what can be read of an entry that was put, and `DatedMedium.keepsDeadlines`
  that it holds of every new store.
-/

namespace ReadThrough
set_option autoImplicit false

/-! ## Histories -/

/-- A step of a medium: when it was taken, on which store and operation, and what came of it. -/
structure Occasion (σ : Type) where
  now : Nat
  store : σ
  kind : ReplyKind
  operation : Operation kind
  step : StoreStep σ kind

/-- The call that an operation has yet to begin. -/
def Operation.call? {k : ReplyKind} : Operation k → Option (Call k)
  | .asked call | .held call => some call
  | .sweeping _ | .answered _ => none

theorem Operation.Asks.call?_eq {k : ReplyKind} {operation : Operation k} {call : Call k}
    (asks : operation.Asks call) : operation.call? = some call := by
  rcases asks with rfl | rfl <;> rfl

/-- The step carries out this call, and that is the reply. -/
inductive Occasion.Answers {σ : Type} : Occasion σ → {k : ReplyKind} → Call k → Reply k → Prop
  | intro {now : Nat} {store : σ} {k : ReplyKind} {operation : Operation k} {step : StoreStep σ k}
      {call : Call k} {reply : Reply k} (asks : operation.Asks call)
      (answered : step.operation = .answered reply) : Answers ⟨now, store, k, operation, step⟩ call reply

section

variable {σ : Type} [Medium σ] {now last : Nat} {store final : σ} {past history : List (Occasion σ)}

/-- The medium takes these steps, one after another, while time passes. The operations may belong to many calls
that are under way at the same time. -/
inductive Medium.Works : Nat → σ → List (Occasion σ) → Nat → σ → Prop
  | rest {now : Nat} {store : σ} : Works now store [] now store
  | step {now last : Nat} {occasion : Occasion σ} {history : List (Occasion σ)} {final : σ}
      (later : now ≤ occasion.now)
      (taken : Medium.step? occasion.now occasion.store occasion.operation = some occasion.step)
      (works : Works occasion.now occasion.step.store history last final) :
      Works now occasion.store (occasion :: history) last final

theorem Medium.Works.le (works : Medium.Works now store history last final) : now ≤ last := by
  induction works with
  | rest => exact Nat.le_refl _
  | step later _ _ ih => exact Nat.le_trans later ih

theorem Medium.Works.split (works : Medium.Works now store (past ++ history) last final) :
    ∃ time between, Medium.Works now store past time between ∧
      Medium.Works time between history last final := by
  induction past generalizing now store with
  | nil => exact ⟨now, store, .rest, works⟩
  | cons occasion past ih =>
    cases works with
    | step later taken works =>
      obtain ⟨time, between, hpast, hhistory⟩ := ih works
      exact ⟨time, between, .step later taken hpast, hhistory⟩

end

/-! ## What calls say, bring and find -/

namespace Call

variable {k : ReplyKind}

/-- The entries that a call puts, in order. -/
def entries : Call k → List Entry
  | .put entry => [entry]
  | .putAll entries => entries
  | _ => []

/-- The settings that a call brings. -/
def settings? : Call k → Option Settings
  | .init settings => some settings
  | _ => none

/-- The keys that a call deletes in its first step. `swept` lists what a sweep sets out to delete. -/
def removed (swept : String → List String) (first : Option Settings) : Call k → List String
  | .delete key => [key]
  | .deleteAll keys => keys
  | .sweep segments => (swept segments).take sweepPortion
  | .clear =>
    match first with
    | some settings => (swept settings.scope).take sweepPortion
    | none => []
  | _ => []

/-- The reply to a reading call, if this is what is found under the keys. -/
def replyFrom (found : String → Option String) : Call k → Option (Reply k)
  | .contains key => some (.ok (found key).isSome)
  | .containsAll keys => some (.ok (keys.all fun key => (found key).isSome))
  | .get key =>
    match found key with
    | some value => some (.ok value)
    | none => some (.error (.failed .notFound))
  | .getAll keys => some (.ok (keys.map found))
  | _ => none

end Call

/-- The keys that an operation deletes in its next step. -/
def Operation.removed {k : ReplyKind} (swept : String → List String) (first : Option Settings) :
    Operation k → List String
  | .asked call | .held call => call.removed swept first
  | .sweeping rest => rest.take sweepPortion
  | .answered _ => []

/-- The step puts this entry, the one with this number in its call, and no later one under its key. -/
def Occasion.Puts {σ : Type} (o : Occasion σ) (i : Nat) (entry : Entry) : Prop :=
  ∃ call : Call .done, o.Answers call (.ok ()) ∧ call.entries[i]? = some entry ∧
    ∀ later ∈ call.entries.drop (i + 1), later.key ≠ entry.key

/-- If the step begins a reading call, the call is answered at once, and finds this under the key. -/
def Occasion.Finds {σ : Type} (o : Occasion σ) (key : String) (value : Option String) : Prop :=
  ∃ found : String → Option String, found key = value ∧
    ∀ (asked : Call o.kind) (reply : Reply o.kind), o.operation.Asks asked →
      asked.replyFrom found = some reply → o.step.operation = .answered reply

/-- The settings of the first set-up in a history. -/
def firstSettings? {σ : Type} (history : List (Occasion σ)) : Option Settings :=
  history.findSome? fun occasion => occasion.operation.call?.bind Call.settings?

/-! ## Slots and deadlines -/

namespace Slot

/-- The value of a slot, as long as its deadline lies ahead. -/
def valueAt (slot : Slot) (now : Nat) : Option String :=
  match slot.deadline with
  | none => some slot.value
  | some deadline => if now < deadline then some slot.value else none

theorem valueAt_eq (slot : Slot) (now : Nat) :
    slot.valueAt now = if slot.isStale now then none else some slot.value := by
  obtain ⟨value, deadline⟩ := slot
  cases deadline with
  | none => simp [valueAt, isStale]
  | some deadline =>
    by_cases h : now < deadline
    · simp [valueAt, isStale, h]
    · simp [valueAt, isStale, h, Nat.le_of_not_lt h]

theorem isStale_later {slot : Slot} {now later : Nat} (le : now ≤ later) (stale : slot.isStale now = true) :
    slot.isStale later = true := by
  obtain ⟨value, deadline⟩ := slot
  cases deadline with
  | none => cases stale
  | some deadline =>
    simp only [isStale, decide_eq_true_eq] at stale ⊢
    omega

end Slot

/-- The deadline of an entry put now: the base time to live, scaled by a factor of its own, from now on. Without
a base there is none. -/
def HasDeadline (base : Option Duration) (factor : Factor) (now : Nat) (deadline : Option Nat) : Prop :=
  match base with
  | none => deadline = none
  | some ttl => ∃ drawn, ttl.scale? factor = some drawn ∧ deadline = some (now + drawn.nanos)

/-- A key has kept its slot, or has lost it after the deadline. -/
def KeptOrStale (now : Nat) (before after : Option Slot) : Prop :=
  after = before ∨ after = none ∧ ∃ slot, before = some slot ∧ slot.isStale now = true

namespace KeptOrStale

variable {now later : Nat} {first second third : Option Slot}

theorem trans (le : now ≤ later) (h : KeptOrStale now first second) (h' : KeptOrStale later second third) :
    KeptOrStale later first third := by
  rcases h with rfl | ⟨rfl, slot, hslot, hstale⟩
  · exact h'
  · rcases h' with rfl | ⟨-, slot', hslot', -⟩
    · exact .inr ⟨rfl, slot, hslot, Slot.isStale_later le hstale⟩
    · cases hslot'

theorem valueAt (le : now ≤ later) (h : KeptOrStale now first second) :
    second.bind (·.valueAt later) = first.bind (·.valueAt later) := by
  rcases h with rfl | ⟨rfl, slot, rfl, hstale⟩
  · rfl
  · simp [Slot.valueAt_eq, Slot.isStale_later le hstale]

end KeptOrStale

/-! ## The last slot of a key -/

section

variable {slots : List (String × Slot)} {key : String}

theorem lookup_reverse_eq_none : slots.reverse.lookup key = none ↔ key ∉ slots.map Prod.fst := by
  rw [List.lookup_eq_none_iff]
  constructor
  · intro h hmem
    obtain ⟨entry, hentry, rfl⟩ := List.mem_map.mp hmem
    simpa using h entry (List.mem_reverse.mpr hentry)
  · intro h entry hentry
    have hne : key ≠ entry.1 := by
      rintro rfl
      exact h (List.mem_map_of_mem (List.mem_reverse.mp hentry))
    simpa using hne

theorem lookup_reverse_of_last {i : Nat} {slot : Slot} (found : slots[i]? = some (key, slot))
    (latest : key ∉ (slots.drop (i + 1)).map Prod.fst) : slots.reverse.lookup key = some slot := by
  have hsplit : slots = slots.take i ++ (key, slot) :: slots.drop (i + 1) := by
    obtain ⟨hlt, hget⟩ := List.getElem?_eq_some_iff.mp found
    rw [← hget, List.getElem_cons_drop, List.take_append_drop]
  rw [hsplit, List.reverse_append, List.reverse_cons, List.append_assoc, List.lookup_append,
    lookup_reverse_eq_none.mpr latest]
  simp

end

/-! ## Media with deadlines -/

/-- A medium that has a slot with a deadline for each key that it holds. -/
class DatedMedium (σ : Type) [Medium σ] where
  inOneGo : InOneGo σ
  slot? : σ → String → Option Slot
  settings : σ → Option Settings
  jitter : σ → Jitter
  /-- The base time to live under these settings, none if entries do not expire. -/
  base? : Settings → Option Duration
  /-- The keys that a sweep sets out to delete. -/
  sweepKeys : σ → Nat → String → List String
  /-- The slots that a call fills, in order. -/
  written {k : ReplyKind} : σ → Nat → Call k → List (String × Slot)
  /-- A reading call is answered at once, from the slots whose deadlines lie ahead. -/
  reads {k : ReplyKind} {store : σ} {now : Nat} {call : Call k} {reply : Reply k}
    (found : call.replyFrom (fun key => (slot? store key).bind (·.valueAt now)) = some reply) :
    (inOneGo.start store now call).operation = .answered reply
  /-- A call that puts entries with success fills a slot for each. Each slot gets a factor of its own. -/
  written_of_ok {store : σ} {now : Nat} {call : Call .done} {i : Nat} {entry : Entry}
    (ok : (inOneGo.start store now call).operation = .answered (.ok ()))
    (puts : call.entries[i]? = some entry) :
    ∃ first deadline, settings store = some first ∧
      HasDeadline (base? first) ((jitter store).factor ((jitter store).drawn + i)) now deadline ∧
      (written store now call)[i]? = some (entry.key, ⟨entry.value, deadline⟩)
  written_keys {k : ReplyKind} (store : σ) (now : Nat) (call : Call k) :
    (written store now call).map Prod.fst <+: call.entries.map Entry.key
  settings_start {k : ReplyKind} (store : σ) (now : Nat) (call : Call k) :
    settings (inOneGo.start store now call).store = (settings store).or call.settings?
  settings_sweepOn (store : σ) (keys : List String) :
    settings (inOneGo.sweepOn store keys).store = settings store
  /-- A call fills the slot of a key or leaves it alone; or the key has no slot then, because it was deleted,
  others were put, or the slot was stale. -/
  slot?_start {k : ReplyKind} (store : σ) (now : Nat) (call : Call k) (key : String) :
    slot? (inOneGo.start store now call).store key =
      ((written store now call).reverse.lookup key).or (slot? store key) ∨
    slot? (inOneGo.start store now call).store key = none ∧
      (key ∈ call.removed (sweepKeys store now) (settings store) ∨ written store now call ≠ [] ∨
        ∃ slot, slot? store key = some slot ∧ slot.isStale now = true)
  slot?_sweepOn (store : σ) (keys : List String) (key : String) :
    slot? (inOneGo.sweepOn store keys).store key =
      if key ∈ keys.take sweepPortion then none else slot? store key

namespace Occasion

variable {σ : Type} [Medium σ] [DatedMedium σ]

/-- The slots that were filled, in order. -/
def written (o : Occasion σ) : List (String × Slot) :=
  match o.operation.call? with
  | some call => DatedMedium.written o.store o.now call
  | none => []

/-- The keys that were deleted. -/
def removed (o : Occasion σ) : List String :=
  o.operation.removed (DatedMedium.sweepKeys o.store o.now) (DatedMedium.settings o.store)

/-- The key had a slot, or got one, but has none after entries were put. -/
def Evicts (o : Occasion σ) (key : String) : Prop :=
  o.written ≠ [] ∧ ((o.written.reverse.lookup key).or (DatedMedium.slot? o.store key)).isSome ∧
    DatedMedium.slot? o.step.store key = none

/-- The key was neither put nor deleted, nor evicted. -/
structure Leaves (o : Occasion σ) (key : String) : Prop where
  unwritten : key ∉ o.written.map Prod.fst
  unremoved : key ∉ o.removed
  unevicted : ¬ o.Evicts key

end Occasion

namespace DatedMedium

variable {σ : Type} [Medium σ] [DatedMedium σ] {now last : Nat} {store final : σ}
  {history : List (Occasion σ)} {o : Occasion σ} {key : String}

/-! ## What steps keep -/

theorem settings_step (taken : Medium.step? o.now o.store o.operation = some o.step) :
    settings o.step.store = (settings o.store).or (o.operation.call?.bind Call.settings?) := by
  obtain ⟨time, before, k, operation, step⟩ := o
  cases operation with
  | asked call =>
    obtain rfl : step = inOneGo.start before time call := inOneGo.eq_start (.inl rfl) taken
    exact settings_start before time call
  | held call =>
    obtain rfl : step = inOneGo.start before time call := inOneGo.eq_start (.inr rfl) taken
    exact settings_start before time call
  | sweeping rest =>
    obtain rfl : step = inOneGo.sweepOn before rest := inOneGo.eq_sweepOn taken
    simpa [Operation.call?] using settings_sweepOn before rest
  | answered => exact absurd taken inOneGo.ne_answered

/-- The first settings stay in force. -/
theorem settings_of_works (works : Medium.Works now store history last final) :
    settings final = (settings store).or (firstSettings? history) := by
  induction works with
  | rest => simp [firstSettings?]
  | @step now last o history final later taken works ih =>
    rw [ih, settings_step taken, Option.or_assoc, firstSettings?, firstSettings?, List.findSome?_cons]
    cases o.operation.call?.bind Call.settings? <;> simp

/-- What a step does to the slot of a key. -/
theorem slot?_step (taken : Medium.step? o.now o.store o.operation = some o.step) (key : String) :
    slot? o.step.store key = (o.written.reverse.lookup key).or (slot? o.store key) ∨
    slot? o.step.store key = none ∧
      (key ∈ o.removed ∨ o.written ≠ [] ∨
        ∃ slot, slot? o.store key = some slot ∧ slot.isStale o.now = true) := by
  obtain ⟨time, before, k, operation, step⟩ := o
  cases operation with
  | asked call =>
    obtain rfl : step = inOneGo.start before time call := inOneGo.eq_start (.inl rfl) taken
    exact slot?_start before time call key
  | held call =>
    obtain rfl : step = inOneGo.start before time call := inOneGo.eq_start (.inr rfl) taken
    exact slot?_start before time call key
  | sweeping rest =>
    obtain rfl : step = inOneGo.sweepOn before rest := inOneGo.eq_sweepOn taken
    simp only [slot?_sweepOn]
    by_cases hmem : key ∈ rest.take sweepPortion
    · rw [if_pos hmem]
      exact .inr ⟨rfl, .inl hmem⟩
    · rw [if_neg hmem]
      exact .inl rfl
  | answered => exact absurd taken inOneGo.ne_answered

/-- A step that leaves a key alone keeps its slot up to the deadline. -/
theorem keptOrStale_step (taken : Medium.step? o.now o.store o.operation = some o.step)
    (leaves : o.Leaves key) : KeptOrStale o.now (slot? o.store key) (slot? o.step.store key) := by
  have hlookup := lookup_reverse_eq_none.mpr leaves.unwritten
  have hstep := slot?_step taken key
  rw [hlookup, Option.none_or] at hstep
  rcases hstep with hkept | ⟨hnone, hremoved | hwritten | hstale⟩
  · exact .inl hkept
  · exact absurd hremoved leaves.unremoved
  · cases hslot : slot? o.store key with
    | none => exact .inl hnone
    | some slot =>
      refine absurd ⟨hwritten, ?_, hnone⟩ leaves.unevicted
      rw [hlookup, hslot]
      rfl
  · exact .inr ⟨hnone, hstale⟩

/-- As long as a key is left alone, it keeps its slot up to the deadline. -/
theorem keptOrStale_of_works (works : Medium.Works now store history last final)
    (leaves : ∀ o ∈ history, o.Leaves key) : KeptOrStale last (slot? store key) (slot? final key) := by
  induction works with
  | rest => exact .inl rfl
  | step later taken works ih =>
    obtain ⟨hfirst, hrest⟩ := List.forall_mem_cons.mp leaves
    exact (keptOrStale_step taken hfirst).trans works.le (ih hrest)

/-! ## Entries that were put -/

/-- A step that puts an entry fills a slot for it, and none after that under its key. -/
theorem lookup_written_of_puts {i : Nat} {entry : Entry}
    (taken : Medium.step? o.now o.store o.operation = some o.step) (puts : o.Puts i entry) :
    ∃ first deadline, settings o.store = some first ∧
      HasDeadline (base? σ first) ((jitter o.store).factor ((jitter o.store).drawn + i)) o.now deadline ∧
      o.written.reverse.lookup entry.key = some ⟨entry.value, deadline⟩ := by
  obtain ⟨call, answers, hentry, latest⟩ := puts
  cases answers with
  | @intro time before _ operation step call reply asks answered =>
    obtain rfl : step = inOneGo.start before time call := inOneGo.eq_start asks taken
    obtain ⟨first, deadline, hfirst, hdeadline, hwritten⟩ := written_of_ok answered hentry
    have hlatest : entry.key ∉ ((written before time call).drop (i + 1)).map Prod.fst := by
      intro hmem
      rw [List.map_drop] at hmem
      have hfirst : (written before time call).map Prod.fst <+: call.entries.map Entry.key :=
        written_keys before time call
      have hkeys := (hfirst.drop (i + 1)).subset hmem
      rw [← List.map_drop] at hkeys
      obtain ⟨later, hlater, hkey⟩ := List.mem_map.mp hkeys
      exact latest later hlater hkey
    refine ⟨first, deadline, hfirst, hdeadline, ?_⟩
    simp only [Occasion.written, asks.call?_eq]
    exact lookup_reverse_of_last hwritten hlatest

theorem removed_of_puts {i : Nat} {entry : Entry} (puts : o.Puts i entry) : o.removed = [] := by
  obtain ⟨call, ⟨asks, -⟩, hentry, -⟩ := puts
  rcases asks with rfl | rfl <;> cases call <;> first | rfl | cases hentry

/-- An entry that was put has its slot, unless that was evicted. -/
theorem slot?_of_puts {i : Nat} {entry : Entry}
    (taken : Medium.step? o.now o.store o.operation = some o.step) (puts : o.Puts i entry)
    (kept : ¬ o.Evicts entry.key) :
    ∃ first deadline, settings o.store = some first ∧
      HasDeadline (base? σ first) ((jitter o.store).factor ((jitter o.store).drawn + i)) o.now deadline ∧
      slot? o.step.store entry.key = some ⟨entry.value, deadline⟩ := by
  obtain ⟨first, deadline, hfirst, hdeadline, hlookup⟩ := lookup_written_of_puts taken puts
  refine ⟨first, deadline, hfirst, hdeadline, ?_⟩
  rcases slot?_step taken entry.key with hslot | ⟨hnone, -⟩
  · rw [hslot, hlookup]
    rfl
  · refine absurd ⟨?_, ?_, hnone⟩ kept
    · intro hempty
      simp [hempty] at hlookup
    · rw [hlookup]
      rfl

/-- What can be read of entries that were put, in every history of the store. The deadline of an entry is the base
time to live of the first set-up, scaled by the entry's own factor, from when it was put. If the key was not put,
deleted, swept or evicted since, then a reading call finds the value of the entry up to the deadline, and nothing
from then on. -/
def KeepsDeadlines (base? : Settings → Option Duration) (store : σ) : Prop :=
  ∀ {start last : Nat} {final : σ} {past since : List (Occasion σ)} {writing reading : Occasion σ} {i : Nat}
    {entry : Entry},
    Medium.Works start store (past ++ writing :: (since ++ [reading])) last final →
    writing.Puts i entry → ¬ writing.Evicts entry.key → (∀ o ∈ since, o.Leaves entry.key) →
    ∃ first deadline, firstSettings? past = some first ∧
      HasDeadline (base? first) ((jitter writing.store).factor ((jitter writing.store).drawn + i)) writing.now
        deadline ∧
      reading.Finds entry.key ((⟨entry.value, deadline⟩ : Slot).valueAt reading.now)

theorem finds_slot (taken : Medium.step? o.now o.store o.operation = some o.step) (key : String) :
    o.Finds key ((slot? o.store key).bind (·.valueAt o.now)) := by
  refine ⟨fun key => (slot? o.store key).bind (·.valueAt o.now), rfl, fun asked reply asks found => ?_⟩
  rw [inOneGo.eq_start asks taken]
  exact reads found

theorem keepsDeadlines (new : settings store = none) : KeepsDeadlines (base? σ) store := by
  intro start last final past since writing reading i entry works puts kept leaves
  obtain ⟨time, before, hpast, hworks⟩ := works.split
  cases hworks with
  | step later taken hworks =>
    obtain ⟨time', before', hsince, hreading⟩ := hworks.split
    obtain ⟨first, deadline, hfirst, hdeadline, hslot⟩ := slot?_of_puts taken puts kept
    have hsame : firstSettings? past = some first := by
      rw [← hfirst, settings_of_works hpast, new, Option.none_or]
    have hkept := keptOrStale_of_works hsince leaves
    cases hreading with
    | step later' taken' _ =>
      have hvalue := hkept.valueAt later'
      rw [hslot, Option.bind_some] at hvalue
      refine ⟨first, deadline, hsame, hdeadline, ?_⟩
      rw [← hvalue]
      exact finds_slot taken' entry.key

end DatedMedium

end ReadThrough
