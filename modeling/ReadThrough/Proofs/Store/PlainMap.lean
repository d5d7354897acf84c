import Mathlib.Data.Finset.Card
import ReadThrough.Proofs.Layout
import ReadThrough.Proofs.Store.Progress

/-! # Plain maps

What a store is to its callers, as long as nothing expires and nothing is left out for want of room: a finite
map, together with the settings of its first set-up.

* `PlainMap.reply` and `PlainMap.after` say what a call returns and what it leaves;
* `Medium.Carries` and `Medium.Serves`: a medium carries a call out, or calls one after another, with time
  passing in between;
* `PlainMedium` lists what makes a medium such a map: every call of it is on the way to the reply of the map;
* `PlainMedium.serves_as_map` is the theorem for calls one after another, `PlainMedium.exists_serves` says that
  they are always answered, and `PlainMedium.ActsAsMap` sums both up for a new store.
-/

namespace ReadThrough
set_option autoImplicit false

/-! ## The map -/

/-- A finite map, and the settings of the first set-up. -/
structure PlainMap where
  entries : Std.TreeMap String String := ∅
  settings : Option Settings := none

/-- The key has the form of the prefix, a colon, and a rest. -/
def LiesUnder (key segments : String) : Prop := (segments ++ ":").toList <+: key.toList

instance (key segments : String) : Decidable (LiesUnder key segments) :=
  inferInstanceAs (Decidable (_ <+: _))

theorem liesUnder_iff_isUnder {key segments : String} : LiesUnder key segments ↔ isUnder key segments := by
  rw [isUnder_iff, LiesUnder, String.toList_append]
  rfl

namespace PlainMap

def insert (map : PlainMap) (entry : Entry) : PlainMap :=
  { map with entries := map.entries.insert entry.key entry.value }

def erase (map : PlainMap) (key : String) : PlainMap := { map with entries := map.entries.erase key }

/-- Leave out all keys under a prefix. -/
def sweep (map : PlainMap) (segments : String) : PlainMap :=
  { map with entries := map.entries.filter fun key _ => ¬ LiesUnder key segments }

theorem contains_eq (map : PlainMap) : map.entries.contains = fun key => map.entries[key]?.isSome :=
  funext fun _ => Std.TreeMap.contains_eq_isSome_getElem?

theorem getElem?_insert (map : PlainMap) (entry : Entry) (key : String) :
    (map.insert entry).entries[key]? = if entry.key = key then some entry.value else map.entries[key]? := by
  simp [insert, Std.TreeMap.getElem?_insert]

theorem getElem?_erase (map : PlainMap) (erased key : String) :
    (map.erase erased).entries[key]? = if erased = key then none else map.entries[key]? := by
  simp [erase, Std.TreeMap.getElem?_erase]

theorem getElem?_sweep (map : PlainMap) (segments key : String) :
    (map.sweep segments).entries[key]? = if LiesUnder key segments then none else map.entries[key]? := by
  rw [sweep, Std.TreeMap.getElem?_filter']
  by_cases h : LiesUnder key segments <;> cases map.entries[key]? <;> simp [h]

theorem getElem?_eraseAll (map : PlainMap) (keys : List String) (key : String) :
    (keys.foldl erase map).entries[key]? = if key ∈ keys then none else map.entries[key]? := by
  induction keys generalizing map with
  | nil => simp
  | cons first rest ih =>
    rw [List.foldl_cons, ih, getElem?_erase]
    by_cases hrest : key ∈ rest
    · simp [hrest]
    · by_cases hfirst : first = key
      · simp [hfirst]
      · simp [hrest, hfirst, Ne.symm hfirst]

/-- Sweeping is erasing the keys there are under the prefix. -/
theorem getElem?_eraseAll_eq_sweep {map : PlainMap} {keys : List String} {segments : String}
    (all : ∀ key, key ∈ keys ↔ isUnder key segments ∧ map.entries[key]?.isSome) (key : String) :
    (keys.foldl erase map).entries[key]? = (map.sweep segments).entries[key]? := by
  rw [getElem?_eraseAll, getElem?_sweep]
  simp only [all key, liesUnder_iff_isUnder]
  cases map.entries[key]? <;> simp

/-- What is left after a call. Before the set-up, nothing can be put, or cleared. -/
def after {k : ReplyKind} (map : PlainMap) : Call k → PlainMap
  | .init settings => { map with settings := map.settings.or (some settings) }
  | .put entry => if map.settings.isSome then map.insert entry else map
  | .putAll entries => if map.settings.isSome then entries.foldl insert map else map
  | .delete key => map.erase key
  | .deleteAll keys => keys.foldl erase map
  | .sweep segments => map.sweep segments
  | .clear =>
    match map.settings with
    | some settings => map.sweep settings.scope
    | none => map
  | .contains _ | .containsAll _ | .get _ | .getAll _ => map

/-- The keys that a call puts, none before the set-up. -/
def putKeys {k : ReplyKind} (map : PlainMap) : Call k → List String
  | .put entry => if map.settings.isSome then [entry.key] else []
  | .putAll entries => if map.settings.isSome then entries.map Entry.key else []
  | _ => []

/-- The refusal of a store of a kind that has not been set up. -/
def refusal (kind : StoreKind) : Fault := .failed (.configuration (.usedBeforeInit kind))

/-- What a call returns. -/
def reply {k : ReplyKind} (kind : StoreKind) (map : PlainMap) : Call k → Reply k
  | .contains key => .ok (map.entries.contains key)
  | .containsAll keys => .ok (keys.all map.entries.contains)
  | .get key =>
    match map.entries[key]? with
    | some value => .ok value
    | none => .error (.failed .notFound)
  | .getAll keys => .ok (keys.map fun key => map.entries[key]?)
  | .put _ | .clear => if map.settings.isSome then .ok () else .error (refusal kind)
  | .putAll entries => if entries.isEmpty || map.settings.isSome then .ok () else .error (refusal kind)
  | .init _ | .delete _ | .deleteAll _ | .sweep _ => .ok ()

end PlainMap

/-! ## Calls one after another -/

/-- A reply of any kind. -/
structure AnyReply where
  kind : ReplyKind
  reply : Reply kind

namespace PlainMap

def afterAll (map : PlainMap) (calls : List AnyCall) : PlainMap :=
  calls.foldl (fun map call => map.after call.call) map

def replies (kind : StoreKind) (map : PlainMap) : List AnyCall → List AnyReply
  | [] => []
  | call :: rest => ⟨call.kind, map.reply kind call.call⟩ :: (map.after call.call).replies kind rest

/-- The keys that calls put. -/
def allPutKeys (map : PlainMap) : List AnyCall → List String
  | [] => []
  | call :: rest => map.putKeys call.call ++ (map.after call.call).allPutKeys rest

end PlainMap

section

variable {σ : Type} [Medium σ]

/-- The medium carries an operation out, up to its reply. Time passes between its steps, but when a step is
taken, the store is fresh. -/
inductive Medium.Carries (Fresh : Nat → σ → Prop) {k : ReplyKind} :
    Nat → σ → Operation k → Reply k → Nat → σ → Prop
  | answered {now store reply} : Carries Fresh now store (.answered reply) reply now store
  | step {now store operation step reply last final} (wait : Nat) (fresh : Fresh (now + wait) store)
      (taken : Medium.step? (now + wait) store operation = some step)
      (rest : Carries Fresh (now + wait) step.store step.operation reply last final) :
    Carries Fresh now store operation reply last final

/-- The medium carries calls out, one after another. -/
inductive Medium.Serves (Fresh : Nat → σ → Prop) :
    Nat → σ → List AnyCall → List AnyReply → Nat → σ → Prop
  | nil {now store} : Serves Fresh now store [] [] now store
  | cons {now store} {call : AnyCall} {reply later next calls replies last final}
      (carries : Medium.Carries Fresh now store (.asked call.call) reply later next)
      (rest : Serves Fresh later next calls replies last final) :
    Serves Fresh now store (call :: calls) (⟨call.kind, reply⟩ :: replies) last final

theorem Medium.Carries.le {Fresh : Nat → σ → Prop} {k : ReplyKind} {now last : Nat} {store final : σ}
    {operation : Operation k} {reply : Reply k}
    (h : Medium.Carries Fresh now store operation reply last final) : now ≤ last := by
  induction h with
  | answered => exact Nat.le_refl _
  | step _ _ _ _ ih => exact Nat.le_of_add_right_le ih

theorem Medium.Serves.le {Fresh : Nat → σ → Prop} {now last : Nat} {store final : σ}
    {calls : List AnyCall} {replies : List AnyReply}
    (h : Medium.Serves Fresh now store calls replies last final) : now ≤ last := by
  induction h with
  | nil => exact Nat.le_refl _
  | cons carries _ ih => exact Nat.le_trans carries.le ih

end

/-! ## The settings in force -/

namespace PlainMap

variable {k : ReplyKind} {map : PlainMap} {Allowed Allowed' : Settings → Prop}

/-- The settings in force, if any, are allowed. -/
def Under (Allowed : Settings → Prop) (map : PlainMap) : Prop :=
  ∀ settings, map.settings = some settings → Allowed settings

theorem Under.imp (h : map.Under Allowed) (weaker : ∀ settings, Allowed settings → Allowed' settings) :
    map.Under Allowed' :=
  fun settings hsettings => weaker settings (h settings hsettings)

theorem settings_foldl {α : Type} (change : PlainMap → α → PlainMap)
    (keeps : ∀ map a, (change map a).settings = map.settings) (list : List α) (map : PlainMap) :
    (list.foldl change map).settings = map.settings := by
  induction list generalizing map with
  | nil => rfl
  | cons a rest ih => exact (ih (change map a)).trans (keeps map a)

/-- The first settings stay in force. -/
theorem settings_after {settings : Settings} (call : Call k) (h : map.settings = some settings) :
    (map.after call).settings = some settings := by
  cases call with
  | init => simp [after, h]
  | put => simp [after, insert, h]
  | putAll entries => simpa [after, h] using settings_foldl insert (fun _ _ => rfl) entries map
  | deleteAll keys => exact (settings_foldl erase (fun _ _ => rfl) keys map).trans h
  | clear => simp [after, sweep, h]
  | _ => exact h

theorem settings_afterAll {settings : Settings} (calls : List AnyCall) (h : map.settings = some settings) :
    (map.afterAll calls).settings = some settings := by
  induction calls generalizing map with
  | nil => exact h
  | cons call calls ih => exact ih (settings_after call.call h)

theorem Under.of_afterAll {calls : List AnyCall} (h : (map.afterAll calls).Under Allowed) : map.Under Allowed :=
  fun settings hsettings => h settings (settings_afterAll calls hsettings)

end PlainMap

/-! ## Media that are maps -/

/-- The operation is on the way to a reply: it has been answered so, or it is a sweep that leads to it, and when
what it has left is deleted, the store is as it is to be afterwards. -/
def Operation.LeadsTo {σ : Type} {k : ReplyKind} (Last : σ → Prop) (deleteAll : σ → List String → σ)
    (reply : Reply k) (store : σ) : Operation k → Prop
  | .answered given => given = reply ∧ Last store
  | .sweeping rest => (reply : Reply .done) = .ok () ∧ Last (deleteAll store rest)
  | .asked _ | .held _ => False

/-- A sweep leads to what deleting all its keys leads to. -/
theorem Operation.leadsTo_afterPortion {σ : Type} {Last : σ → Prop} {deleteAll : σ → List String → σ} {store : σ}
    {keys : List String} (append : ∀ store keys others,
      deleteAll store (keys ++ others) = deleteAll (deleteAll store keys) others)
    (last : Last (deleteAll store keys)) :
    (afterPortion keys).LeadsTo Last deleteAll (.ok ()) (deleteAll store (keys.take sweepPortion)) := by
  cases keys with
  | nil => exact ⟨rfl, last⟩
  | cons first rest =>
    refine ⟨rfl, ?_⟩
    rwa [← append, List.take_append_drop]

/-- A medium that is a map while it is fresh, and has room for all the keys. A store `Mirrors` a map if it has
its entries and its settings, all under keys among these, for which it has room. -/
class PlainMedium (σ : Type) [Medium σ] where
  inOneGo : InOneGo σ
  kind : StoreKind
  contents : σ → String → Option String
  Fresh : Nat → σ → Prop
  Mirrors : Finset String → PlainMap → σ → Prop
  /-- Up to a time, entries can be given times to live by these settings. -/
  Bears : Nat → Settings → Prop
  deleteAll : σ → List String → σ
  contents_eq {room : Finset String} {map : PlainMap} {store : σ} (mirrors : Mirrors room map store)
    (key : String) : contents store key = map.entries[key]?
  bears_earlier {time later : Nat} {settings : Settings} (bears : Bears later settings) (le : time ≤ later) :
    Bears time settings
  /-- The first step of a call leads to the reply of the map. -/
  leadsTo_start {k : ReplyKind} {now : Nat} {room : Finset String} {map : PlainMap} {store : σ} {call : Call k}
    (mirrors : Mirrors room map store) (fresh : Fresh now store) (bears : map.Under (Bears now))
    (within : ∀ key ∈ map.putKeys call, key ∈ room) :
    Fresh now (inOneGo.start store now call).store ∧
      (inOneGo.start store now call).operation.LeadsTo (Mirrors room (map.after call)) deleteAll
        (map.reply kind call) (inOneGo.start store now call).store
  fresh_deleteAll {now : Nat} {store : σ} (fresh : Fresh now store) (keys : List String) :
    Fresh now (deleteAll store keys)
  deleteAll_append (store : σ) (keys others : List String) :
    deleteAll store (keys ++ others) = deleteAll (deleteAll store keys) others
  sweepOn_store (store : σ) (keys : List String) :
    (inOneGo.sweepOn store keys).store = deleteAll store (keys.take sweepPortion)
  sweepOn_operation (store : σ) (keys : List String) :
    (inOneGo.sweepOn store keys).operation = .afterPortion keys

namespace PlainMedium

variable {σ : Type} [Medium σ] [PlainMedium σ] {k : ReplyKind} {now last : Nat} {store final : σ}
  {room : Finset String} {map : PlainMap}

theorem leadsTo_sweepOn {keys : List String} {Last : σ → Prop} (last : Last (deleteAll store keys)) :
    (inOneGo.sweepOn store keys).operation.LeadsTo Last deleteAll (.ok ())
      (inOneGo.sweepOn store keys).store := by
  rw [sweepOn_operation, sweepOn_store]
  exact Operation.leadsTo_afterPortion deleteAll_append last

theorem fresh_sweepOn (fresh : Fresh now store) (keys : List String) :
    Fresh now (inOneGo.sweepOn store keys).store := by
  rw [sweepOn_store]
  exact fresh_deleteAll fresh _

/-- What leads to a reply comes to it. -/
theorem carries_of_leadsTo {operation : Operation k} {reply expected : Reply k} {Last : σ → Prop}
    (carries : Medium.Carries Fresh now store operation reply last final)
    (leads : operation.LeadsTo Last deleteAll expected store) : reply = expected ∧ Last final := by
  induction carries with
  | answered => exact leads
  | @step now store operation step reply last final wait fresh taken rest ih =>
    cases operation with
    | asked | held => exact leads.elim
    | sweeping =>
      obtain rfl := inOneGo.eq_sweepOn taken
      obtain ⟨rfl, hlast⟩ := leads
      exact ih (leadsTo_sweepOn hlast)
    | answered => exact absurd taken inOneGo.ne_answered

/-- A call is answered as by the map. -/
theorem carries_as_map {call : Call k} {reply : Reply k}
    (carries : Medium.Carries Fresh now store (.asked call) reply last final)
    (mirrors : Mirrors room map store) (bears : map.Under (Bears σ last))
    (within : ∀ key ∈ map.putKeys call, key ∈ room) :
    reply = map.reply (kind σ) call ∧ Mirrors room (map.after call) final := by
  cases carries with
  | @step now store operation step reply last final wait fresh taken rest =>
    obtain rfl := inOneGo.eq_start (.inl rfl) taken
    have hnow := bears.imp fun _ h => bears_earlier h rest.le
    exact carries_of_leadsTo rest (leadsTo_start mirrors fresh hnow within).2

/-- Calls are answered as by the map, one after another. -/
theorem serves_as_map {calls : List AnyCall} {replies : List AnyReply}
    (serves : Medium.Serves Fresh now store calls replies last final) (mirrors : Mirrors room map store)
    (bears : (map.afterAll calls).Under (Bears σ last)) (within : ∀ key ∈ map.allPutKeys calls, key ∈ room) :
    replies = map.replies (kind σ) calls ∧ Mirrors room (map.afterAll calls) final := by
  induction serves generalizing map with
  | nil => exact ⟨rfl, mirrors⟩
  | @cons now store call reply later next calls replies last final carries rest ih =>
    obtain ⟨hnow, hlater⟩ := List.forall_mem_append.mp within
    have hbears := bears.of_afterAll.imp fun _ h => bears_earlier h rest.le
    obtain ⟨rfl, hmirrors⟩ := carries_as_map carries mirrors hbears hnow
    obtain ⟨rfl, hlast⟩ := ih hmirrors bears hlater
    exact ⟨rfl, hlast⟩

/-- What leads to a reply can be carried out, even without any time passing. -/
theorem exists_carries_of_leadsTo {operation : Operation k} {expected : Reply k} {Last : σ → Prop}
    (answers : Medium.Answers now store operation) (fresh : Fresh now store)
    (leads : operation.LeadsTo Last deleteAll expected store) :
    ∃ reply final, Medium.Carries Fresh now store operation reply now final ∧ Fresh now final := by
  induction answers with
  | @answered store reply => exact ⟨reply, store, .answered, fresh⟩
  | @step store operation step taken later ih =>
    cases operation with
    | asked | held => exact leads.elim
    | sweeping =>
      obtain rfl := inOneGo.eq_sweepOn taken
      obtain ⟨rfl, hlast⟩ := leads
      obtain ⟨reply, final, hcarries, hfresh⟩ := ih (fresh_sweepOn fresh _) (leadsTo_sweepOn hlast)
      exact ⟨reply, final, .step 0 fresh taken hcarries, hfresh⟩
    | answered => exact absurd taken inOneGo.ne_answered

/-- Calls are always answered, even without any time passing. -/
theorem exists_serves [AnsweringMedium σ] (answering : ∀ store : σ, AnsweringMedium.Answering store)
    (mirrors : Mirrors room map store) (fresh : Fresh now store) (calls : List AnyCall)
    (bears : (map.afterAll calls).Under (Bears σ now)) (within : ∀ key ∈ map.allPutKeys calls, key ∈ room) :
    ∃ replies final, Medium.Serves Fresh now store calls replies now final := by
  induction calls generalizing map store with
  | nil => exact ⟨[], store, .nil⟩
  | cons call calls ih =>
    obtain ⟨hnow, hlater⟩ := List.forall_mem_append.mp within
    have hbears : map.Under (Bears σ now) := bears.of_afterAll
    have htaken : Medium.step? now store (.asked call.call) = some (inOneGo.start store now call.call) :=
      inOneGo.step_asks (.inl rfl)
    obtain ⟨hfresh, hleads⟩ := leadsTo_start mirrors fresh hbears hnow
    obtain ⟨reply, next, hcarries, hnext⟩ :=
      exists_carries_of_leadsTo (AnsweringMedium.answers now (answering _) _) hfresh hleads
    have hcall : Medium.Carries Fresh now store (.asked call.call) reply now next :=
      .step 0 fresh htaken hcarries
    have hmirrors := (carries_as_map hcall mirrors hbears hnow).2
    obtain ⟨replies, final, hserves⟩ := ih hmirrors hnext bears hlater
    exact ⟨_, final, .cons hcall hserves⟩

/-- Up to a time, these calls are answered as by a new map as long as the store is fresh, they leave the entries
that they leave in the map, and at each time they can be carried out. -/
structure ActsAsMap (store : σ) (calls : List AnyCall) (limit : Nat) : Prop where
  replies {now last : Nat} {replies : List AnyReply} {final : σ}
    (serves : Medium.Serves Fresh now store calls replies last final) (le : last ≤ limit) :
    replies = PlainMap.replies (kind σ) {} calls
  contents {now last : Nat} {replies : List AnyReply} {final : σ}
    (serves : Medium.Serves Fresh now store calls replies last final) (le : last ≤ limit) (key : String) :
    contents final key = (PlainMap.afterAll {} calls).entries[key]?
  serves {now : Nat} (le : now ≤ limit) :
    ∃ replies final, Medium.Serves Fresh now store calls replies now final

theorem actsAsMap [AnsweringMedium σ] (answering : ∀ store : σ, AnsweringMedium.Answering store)
    {calls : List AnyCall} {limit : Nat} (mirrors : Mirrors room {} store) (fresh : ∀ now, Fresh now store)
    (bears : (PlainMap.afterAll {} calls).Under (Bears σ limit))
    (within : ∀ key ∈ PlainMap.allPutKeys {} calls, key ∈ room) : ActsAsMap store calls limit := by
  have hbears : ∀ time ≤ limit, (PlainMap.afterAll {} calls).Under (Bears σ time) :=
    fun _ le => bears.imp fun _ h => bears_earlier h le
  exact {
    replies := fun serves le => (serves_as_map serves mirrors (hbears _ le) within).1
    contents := fun serves le => contents_eq (serves_as_map serves mirrors (hbears _ le) within).2
    serves := fun le => exists_serves answering mirrors (fresh _) calls (hbears _ le) within }

end PlainMedium

end ReadThrough
