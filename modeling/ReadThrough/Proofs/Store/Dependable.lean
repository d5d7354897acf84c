import ReadThrough.Proofs.Store.Exactness

/-! # Dependable stores

A store that never fails, and neither forgets an entry nor changes one by itself, behaves like a map.

* `MapMedium` lists the laws of such a medium, which hold as long as it is dependable; the recording
  store is, when it has no instructions to fail calls or to hold them back;
* `JobRun.IsFill` are the jobs that only put, and `JobRun.Puts` is the one that puts a single entry;
* `Filling` describes jobs on the way to put one entry, `Filling.set` a step of one of them, and
  `Filling.ended` what has become of the store.
-/

namespace ReadThrough
set_option autoImplicit false

def Call.IsPut {k : ReplyKind} : Call k → Prop
  | .put _ | .putAll _ => True
  | _ => False

/-- The operation was answered with a value that is held, or it failed because none is. -/
def Operation.FoundAmong (operation : Operation .text) (Held : String → Prop) : Prop :=
  (∃ value, operation = .answered (.ok value) ∧ Held value) ∨
    ∃ failure, operation = .answered (.error (.failed failure)) ∧ ∀ value, ¬ Held value

theorem Operation.FoundAmong.answered {operation : Operation .text} {Held : String → Prop}
    (h : operation.FoundAmong Held) : ∃ reply, operation = .answered reply := by
  rcases h with ⟨value, hreply, -⟩ | ⟨failure, hreply, -⟩ <;> exact ⟨_, hreply⟩

/-- A medium that behaves like a map as long as it is dependable. -/
class MapMedium (σ : Type) [Medium σ] [LawfulMedium σ] where
  Dependable : σ → Prop
  reliable {store : σ} (h : Dependable store) : LawfulMedium.Reliable store
  dependable {k : ReplyKind} {now : Nat} {store : σ} {operation : Operation k} {step : StoreStep σ k}
    (h : Dependable store) (taken : Medium.step? now store operation = some step) :
    Dependable step.store
  timeless {store : σ} {now later : Nat} {key value : String} (h : Dependable store)
    (held : LawfulMedium.Holds store now key value) : LawfulMedium.Holds store later key value
  unique {store : σ} {now : Nat} {key value value' : String} (h : Dependable store)
    (held : LawfulMedium.Holds store now key value)
    (held' : LawfulMedium.Holds store now key value') : value = value'
  /-- What an operation neither replaces nor deletes stays. -/
  keeps {k : ReplyKind} {now : Nat} {store : σ} {operation : Operation k} {step : StoreStep σ k}
    {key value : String} (h : Dependable store)
    (taken : Medium.step? now store operation = some step)
    (held : LawfulMedium.Holds store now key value)
    (unstored : ∀ value, ¬ operation.Stores key value) (spared : ¬ operation.Deletes key) :
    LawfulMedium.Holds step.store now key value
  get {store : σ} (h : Dependable store) (now : Nat) (key : String) :
    ∃ step, Medium.step? now store (.asked (.get key)) = some step ∧
      step.operation.FoundAmong (LawfulMedium.Holds store now key)
  puts {store : σ} {now : Nat} {call : Call .done} {step : StoreStep σ .done} (h : Dependable store)
    (puts : call.IsPut) (taken : Medium.step? now store (.asked call) = some step) :
    step.operation = .answered (.ok ())
  put {store : σ} {now : Nat} {entry : Entry} {step : StoreStep σ .done} (h : Dependable store)
    (taken : Medium.step? now store (.asked (.put entry)) = some step) :
    LawfulMedium.Holds step.store now entry.key entry.value

theorem MapMedium.get_holds_iff {σ : Type} [Medium σ] [LawfulMedium σ] [MapMedium σ] {now : Nat}
    {store : σ} {asked key value : String} {step : StoreStep σ .text} (h : Dependable store)
    (taken : Medium.step? now store (.asked (.get asked)) = some step) :
    LawfulMedium.Holds step.store now key value ↔ LawfulMedium.Holds store now key value :=
  ⟨fun held => (LawfulMedium.of_holds taken held).resolve_right id,
    fun held => keeps h taken held (fun _ => id) id⟩

/-! ## Jobs that put -/

/-- The operation is a put that has not failed. -/
def Operation.IsPut (operation : Operation .done) : Prop :=
  match operation with
  | .asked call => call.IsPut
  | .answered reply => reply = .ok ()
  | .held _ | .sweeping _ => False

theorem Call.IsPut.not_deletes {k : ReplyKind} {call : Call k} (h : call.IsPut) (key : String) :
    ¬ call.Deletes key := by
  cases call <;> first | exact id | cases h

namespace JobRun

/-- The job is about to put this entry, and has nothing else to do. -/
def Puts (entry : Entry) (run : JobRun) : Prop :=
  ∃ job onFailure, run = .working job (.asked (.put entry)) onFailure []

/-- The job only puts, and nothing of it has failed. -/
def IsFill (run : JobRun) : Prop :=
  match run with
  | .working _ operation _ rest => operation.IsPut ∧ ∀ later ∈ rest, later.1.IsPut
  | .finished => True
  | .brokeDown => False

theorem Puts.isFill {entry : Entry} {run : JobRun} (h : run.Puts entry) : run.IsFill := by
  obtain ⟨job, onFailure, rfl⟩ := h
  exact ⟨trivial, by simp⟩

theorem IsFill.unbroken {run : JobRun} (h : run.IsFill) : run.isBroken = false := by
  cases run with
  | working | finished => rfl
  | brokeDown => exact h.elim

theorem next_isFill {job : Job} {rest : List (Call .done × Notice)} :
    (next job rest).IsFill ↔ ∀ later ∈ rest, later.1.IsPut := by
  cases rest <;> simp [next, IsFill, Operation.IsPut]

variable {σ : Type} [Medium σ] [LawfulMedium σ] [MapMedium σ] {now : Nat} {store : σ} {run : JobRun}
  {step : JobStep σ} {key value : String} {entry : Entry}

omit [LawfulMedium σ] [MapMedium σ] in
/-- A step of a job that only puts: the store takes a call in progress, or its reply is taken in. -/
theorem IsFill.step_cases (h : run.IsFill) (taken : run.step? now store = some step) :
    (∃ job reply onFailure rest, run = .working job (.answered reply) onFailure rest ∧
      step.store = store ∧ step.run = next job rest) ∨
    ∃ job call onFailure rest, ∃ moved : StoreStep σ .done, call.IsPut ∧
      run = .working job (.asked call) onFailure rest ∧
      Medium.step? now store (.asked call) = some moved ∧ step.store = moved.store ∧
      step.run = .working job moved.operation onFailure rest := by
  cases run with
  | working job operation onFailure rest =>
    cases operation with
    | asked call =>
      obtain ⟨moved, hmoved, rfl⟩ := Option.map_eq_some_iff.mp taken
      exact .inr ⟨job, call, onFailure, rest, moved, h.1, rfl, hmoved, rfl, rfl⟩
    | answered reply =>
      obtain rfl : reply = .ok () := h.1
      obtain rfl := Option.some.inj taken
      exact .inl ⟨job, _, onFailure, rest, rfl, rfl, rfl⟩
    | held | sweeping => exact h.1.elim
  | finished | brokeDown => cases taken

theorem step_isFill (h : run.IsFill) (dependable : MapMedium.Dependable store)
    (taken : run.step? now store = some step) : step.run.IsFill := by
  rcases h.step_cases taken with ⟨job, reply, onFailure, rest, rfl, -, hnext⟩ |
    ⟨job, call, onFailure, rest, moved, hput, rfl, hmoved, -, hrun⟩
  · rw [hnext, next_isFill]
    exact h.2
  · rw [hrun, MapMedium.puts dependable hput hmoved]
    exact ⟨rfl, h.2⟩

theorem step_dependable (dependable : MapMedium.Dependable store)
    (taken : run.step? now store = some step) : MapMedium.Dependable step.store := by
  rcases step?_cases taken with ⟨job, reply, onFailure, rest, -, hstore, -⟩ |
    ⟨job, operation, onFailure, rest, moved, -, hmoved, hstore, -⟩
  · rwa [hstore]
  · rw [hstore]
    exact MapMedium.dependable dependable hmoved

theorem IsFill.step_holds_iff (h : run.IsFill) (dependable : MapMedium.Dependable store)
    (taken : run.step? now store = some step) (unstored : ∀ value, ¬ run.Stores key value) :
    LawfulMedium.Holds step.store now key value ↔ LawfulMedium.Holds store now key value := by
  constructor
  · intro held
    exact (of_holds taken held).resolve_right (unstored value)
  · intro held
    rcases h.step_cases taken with ⟨job, reply, onFailure, rest, rfl, hstore, -⟩ |
      ⟨job, call, onFailure, rest, moved, hput, rfl, hmoved, hstore, -⟩
    · rwa [hstore]
    · rw [hstore]
      exact MapMedium.keeps dependable hmoved held (fun value stores => unstored value (.inl stores))
        (hput.not_deletes key)

/-- The job that puts an entry has put it after a step, and only waits to take in the reply. -/
theorem step_puts (h : run.Puts entry) (dependable : MapMedium.Dependable store)
    (taken : run.step? now store = some step) :
    LawfulMedium.Holds step.store now entry.key entry.value ∧
      ∀ key value, ¬ step.run.Stores key value := by
  obtain ⟨job, onFailure, rfl⟩ := h
  obtain ⟨moved, hmoved, rfl⟩ := Option.map_eq_some_iff.mp taken
  have hput : (Call.put entry).IsPut := trivial
  refine ⟨MapMedium.put dependable hmoved, fun key value stores => ?_⟩
  dsimp only at stores
  rw [MapMedium.puts dependable hput hmoved] at stores
  rcases stores with hnow | ⟨later, hlater, -⟩
  · exact hnow
  · cases hlater

end JobRun

/-! ## An entry on its way -/

section

variable {σ : Type} [Medium σ] [LawfulMedium σ] [MapMedium σ] {now later : Nat} {store : σ}
  {Matters : String → Prop} {Before : String → String → Prop} {entry : Entry} {jobs : List JobRun}

/-- The store is on the way from one that held these entries to one that holds a further one, in the
place of what it held under its key. What the jobs store under keys that do not matter is left open. -/
structure Filling (Matters : String → Prop) (Before : String → String → Prop) (entry : Entry)
    (now : Nat) (store : σ) (jobs : List JobRun) : Prop where
  dependable : MapMedium.Dependable store
  fills : ∀ job ∈ jobs, job.IsFill
  elsewhere : ∀ job ∈ jobs, job.Puts entry ∨ ∀ key value, Matters key → ¬ job.Stores key value
  puts : LawfulMedium.Holds store now entry.key entry.value ∨ ∃ job ∈ jobs, job.Puts entry
  others : ∀ key value, Matters key → key ≠ entry.key →
    (LawfulMedium.Holds store now key value ↔ Before key value)

theorem MapMedium.timeless_iff (h : Dependable store) {key value : String} :
    LawfulMedium.Holds store later key value ↔ LawfulMedium.Holds store now key value :=
  ⟨timeless h, timeless h⟩

theorem Filling.wait (h : Filling Matters Before entry now store jobs) :
    Filling Matters Before entry later store jobs := by
  refine ⟨h.dependable, h.fills, h.elsewhere, ?_, fun key value matters other => ?_⟩
  · exact h.puts.imp (MapMedium.timeless h.dependable) id
  · rw [MapMedium.timeless_iff h.dependable, h.others key value matters other]

theorem Clearing.wait {Targets Pending : String → Prop} (dependable : MapMedium.Dependable store)
    (h : Clearing Targets Before now store Pending) : Clearing Targets Before later store Pending where
  reliable := h.reliable
  covers key value held := h.covers key value (MapMedium.timeless dependable held)
  targets := h.targets
  kept key value before spared := MapMedium.timeless dependable (h.kept key value before spared)
  old key value held := h.old key value (MapMedium.timeless dependable held)

/-- When all jobs have finished, the entry is held, and under other keys that matter nothing has
changed. -/
theorem Filling.ended (h : Filling Matters Before entry now store jobs)
    (ended : ∀ job ∈ jobs, job.isFinished) {key value : String} (matters : Matters key) :
    LawfulMedium.Holds store now key value ↔
      if key = entry.key then value = entry.value else Before key value := by
  have hheld : LawfulMedium.Holds store now entry.key entry.value := by
    refine h.puts.resolve_right ?_
    rintro ⟨job, hjob, _, _, rfl⟩
    cases ended _ hjob
  split
  · rename_i hkey
    subst hkey
    exact ⟨fun held => MapMedium.unique h.dependable held hheld, fun hvalue => hvalue ▸ hheld⟩
  · rename_i hkey
    exact h.others key value matters hkey

theorem Filling.set {index : Nat} {run : JobRun} {step : JobStep σ}
    (h : Filling Matters Before entry now store jobs) (matters : Matters entry.key)
    (found : jobs[index]? = some run) (taken : run.step? now store = some step) :
    Filling Matters Before entry now step.store (jobs.set index step.run) := by
  have hmem := List.mem_of_getElem? found
  have hfill := h.fills run hmem
  have hafter : ∀ key value, Matters key → ¬ step.run.Stores key value := by
    intro key value hkey stores
    rcases h.elsewhere run hmem with hputs | helsewhere
    · exact (JobRun.step_puts hputs h.dependable taken).2 key value stores
    · exact helsewhere key value hkey (JobRun.of_stores taken stores)
  refine ⟨JobRun.step_dependable h.dependable taken, ?_, ?_, ?_, ?_⟩
  · intro job hjob
    rcases List.mem_or_eq_of_mem_set hjob with hold | rfl
    · exact h.fills job hold
    · exact JobRun.step_isFill hfill h.dependable taken
  · intro job hjob
    rcases List.mem_or_eq_of_mem_set hjob with hold | rfl
    · exact h.elsewhere job hold
    · exact .inr hafter
  · rcases h.elsewhere run hmem with hputs | helsewhere
    · exact .inl (JobRun.step_puts hputs h.dependable taken).1
    · have hkeeps : LawfulMedium.Holds step.store now entry.key entry.value ↔
          LawfulMedium.Holds store now entry.key entry.value :=
        hfill.step_holds_iff h.dependable taken fun value => helsewhere entry.key value matters
      rcases h.puts with hheld | ⟨job, hjob, hputs⟩
      · exact .inl (hkeeps.mpr hheld)
      · -- it is another job that is going to put the entry
        obtain ⟨place, hplace⟩ := List.getElem?_of_mem hjob
        have hne : index ≠ place := by
          rintro rfl
          obtain rfl := Option.some.inj (found.symm.trans hplace)
          obtain ⟨_, _, rfl⟩ := hputs
          exact helsewhere entry.key entry.value matters (.inl rfl)
        have hkept : (jobs.set index step.run)[place]? = some job := by
          rw [List.getElem?_set_ne hne, hplace]
        exact .inr ⟨job, List.mem_of_getElem? hkept, hputs⟩
  · intro key value hkey hother
    rw [← h.others key value hkey hother]
    refine hfill.step_holds_iff h.dependable taken fun value stores => ?_
    rcases h.elsewhere run hmem with ⟨job, onFailure, rfl⟩ | helsewhere
    · rcases stores with hnow | ⟨later, hlater, -⟩
      · exact hother (congrArg Entry.key hnow).symm
      · cases hlater
    · exact helsewhere key value hkey stores

end

/-! ## The recording store -/

namespace RecordingStore

variable {store : RecordingStore} {key value : String} {k : ReplyKind}

/-- No call of the store is due to fail, and none is held back. -/
structure Dependable (store : RecordingStore) : Prop where
  reliable : store.Reliable
  free : store.heldMethods = []

theorem getElem?_insertAll_of_not_mem (map : Std.TreeMap String String) {entries : List Entry}
    (h : ∀ value, ⟨key, value⟩ ∉ entries) :
    (entries.foldl (fun map entry => map.insert entry.key entry.value) map)[key]? = map[key]? := by
  induction entries generalizing map with
  | nil => rfl
  | cons entry rest ih =>
    have hrest : ∀ value, ⟨key, value⟩ ∉ rest := fun value hmem =>
      h value (List.mem_cons_of_mem entry hmem)
    have hkey : entry.key ≠ key := by
      rintro rfl
      exact h entry.value List.mem_cons_self
    rw [List.foldl_cons, ih _ hrest, Std.TreeMap.getElem?_insert]
    simp [hkey]

theorem act_keeps {call : Call k} (held : store.entries[key]? = some value)
    (unstored : ∀ value, ¬ call.Stores key value) (spared : ¬ call.Deletes key) :
    (store.act call).store.entries[key]? = some value := by
  cases call with
  | init | clear | contains => exact held
  | containsAll keys =>
    cases keys with
    | nil => exact held
    | cons first rest =>
      simp only [act]
      split <;> exact held
  | get =>
    simp only [act]
    split <;> exact held
  | getAll keys =>
    simp only [act, slots]
    split <;> exact held
  | put entry =>
    have hother : ∀ value, ⟨key, value⟩ ∉ [entry] :=
      fun value hmem => unstored value (List.mem_singleton.mp hmem).symm
    exact (getElem?_insertAll_of_not_mem store.entries hother).trans held
  | putAll entries => exact (getElem?_insertAll_of_not_mem store.entries unstored).trans held
  | delete | deleteAll | sweep => exact act_spares trivial held spared

/-- A dependable store carries every call out at once, and only logs it besides. -/
theorem Dependable.step?_eq (h : store.Dependable) {operation : Operation k} {call : Call k}
    (asks : operation.Asks call) :
    ∃ log, store.step? operation = some (({ store with log := log } : RecordingStore).act call) := by
  have hattempt : ∀ log, ({ store with log := log } : RecordingStore).attempt call =
      ({ store with log := log } : RecordingStore).act call := by
    intro log
    rw [attempt, h.reliable call.method]
  rcases asks with rfl | rfl
  · simp only [step?]
    split
    · exact ⟨store.log, rfl⟩
    · rename_i record _
      rw [if_neg (by simp [h.free])]
      exact ⟨record :: store.log, congrArg some (hattempt _)⟩
  · simp only [step?]
    rw [if_neg (by simp [h.free])]
    exact ⟨store.log, congrArg some (hattempt store.log)⟩

theorem Dependable.step?_asks (h : store.Dependable) {operation : Operation k} {call : Call k}
    (asks : operation.Asks call) :
    ∃ next : RecordingStore, next.entries = store.entries ∧ next.Dependable ∧
      store.step? operation = some (next.act call) := by
  obtain ⟨log, htaken⟩ := h.step?_eq asks
  exact ⟨{ store with log := log }, rfl, ⟨h.reliable, h.free⟩, htaken⟩

theorem Dependable.act (h : store.Dependable) (call : Call k) : (store.act call).store.Dependable := by
  obtain ⟨hfailures, hheld⟩ := act_instructions store call
  refine ⟨fun method => ?_, hheld.trans h.free⟩
  rw [hfailures]
  exact h.reliable method

theorem Dependable.step (h : store.Dependable) {operation : Operation k}
    {step : StoreStep RecordingStore k} (taken : store.step? operation = some step) :
    step.store.Dependable := by
  have hasks : ∀ call, operation.Asks call → step.store.Dependable := by
    intro call asks
    obtain ⟨next, -, hnext, htaken⟩ := h.step?_asks asks
    obtain rfl := Option.some.inj (taken.symm.trans htaken)
    exact hnext.act call
  cases operation with
  | asked call => exact hasks call (.inl rfl)
  | held call => exact hasks call (.inr rfl)
  | sweeping rest =>
    obtain rfl := Option.some.inj taken
    exact ⟨h.reliable, h.free⟩
  | answered => cases taken

theorem Dependable.keeps (h : store.Dependable) {operation : Operation k}
    {step : StoreStep RecordingStore k} (taken : store.step? operation = some step)
    (held : store.entries[key]? = some value) (unstored : ∀ value, ¬ operation.Stores key value)
    (spared : ¬ operation.Deletes key) : step.store.entries[key]? = some value := by
  cases operation with
  | asked call =>
    obtain ⟨next, hentries, -, htaken⟩ := h.step?_asks (.inl rfl)
    obtain rfl := Option.some.inj (taken.symm.trans htaken)
    exact act_keeps (hentries ▸ held) unstored spared
  | held call =>
    obtain ⟨next, hentries, -, htaken⟩ := h.step?_asks (.inr rfl)
    obtain rfl := Option.some.inj (taken.symm.trans htaken)
    exact act_keeps (hentries ▸ held) unstored spared
  | sweeping rest =>
    obtain rfl := Option.some.inj taken
    exact (eraseAll_entries _ rest _).trans ((if_neg spared).trans held)
  | answered => cases taken

instance : MapMedium RecordingStore where
  Dependable := Dependable
  reliable h := h.reliable
  dependable h taken := h.step taken
  timeless _ held := held
  unique _ held held' := Option.some.inj (held.symm.trans held')
  keeps h taken held unstored spared := h.keeps taken held unstored spared
  get {store} h now key := by
    obtain ⟨next, hentries, -, htaken⟩ := h.step?_asks (.inl rfl : Operation.Asks _ (.get key))
    refine ⟨_, htaken, ?_⟩
    simp only [act]
    split
    · rename_i value hvalue
      rw [hentries] at hvalue
      exact .inl ⟨value, rfl, hvalue⟩
    · rename_i hnone
      rw [hentries] at hnone
      exact .inr ⟨_, rfl, fun value held => by cases hnone.symm.trans held⟩
  puts {store _ call step} h puts taken := by
    obtain ⟨next, -, -, htaken⟩ := h.step?_asks (.inl rfl : Operation.Asks _ call)
    obtain rfl := Option.some.inj (taken.symm.trans htaken)
    cases call with
    | put | putAll => rfl
    | _ => exact puts.elim
  put {store _ entry step} h taken := by
    obtain ⟨next, -, -, htaken⟩ := h.step?_asks (.inl rfl : Operation.Asks _ (.put entry))
    obtain rfl := Option.some.inj (taken.symm.trans htaken)
    exact Std.TreeMap.getElem?_insert_self

end RecordingStore

/-! ## Stores of any kind -/

namespace Store

/-- The in-process stores are not dependable: the one drops entries in time, the other for want of
space. -/
def Dependable : Store → Prop
  | .expiring _ | .recency _ => False
  | .recording store => MapMedium.Dependable store

theorem Dependable.recorded {store : Store} (h : store.Dependable) :
    ∃ inner : RecordingStore, store = .recording inner ∧ MapMedium.Dependable inner := by
  cases store with
  | expiring | recency => exact h.elim
  | recording inner => exact ⟨inner, rfl, h⟩

instance : MapMedium Store where
  Dependable := Dependable
  reliable h := by
    obtain ⟨inner, rfl, hinner⟩ := h.recorded
    have hreliable := MapMedium.reliable hinner
    exact hreliable
  dependable h taken := by
    obtain ⟨inner, rfl, hinner⟩ := h.recorded
    obtain ⟨step, hstep, rfl⟩ := Option.map_eq_some_iff.mp taken
    have hnext := MapMedium.dependable hinner hstep
    exact hnext
  timeless {_ now later key value} h held := by
    obtain ⟨inner, rfl, hinner⟩ := h.recorded
    have hheld : LawfulMedium.Holds inner now key value := held
    have hlater : LawfulMedium.Holds inner later key value := MapMedium.timeless hinner hheld
    exact hlater
  unique {_ now key value value'} h held held' := by
    obtain ⟨inner, rfl, hinner⟩ := h.recorded
    have hheld : LawfulMedium.Holds inner now key value := held
    have hheld' : LawfulMedium.Holds inner now key value' := held'
    exact MapMedium.unique hinner hheld hheld'
  keeps {_ now _ _ _ key value} h taken held unstored spared := by
    obtain ⟨inner, rfl, hinner⟩ := h.recorded
    obtain ⟨step, hstep, rfl⟩ := Option.map_eq_some_iff.mp taken
    have hheld : LawfulMedium.Holds inner now key value := held
    have hkept := MapMedium.keeps hinner hstep hheld unstored spared
    exact hkept
  get h now key := by
    obtain ⟨inner, rfl, hinner⟩ := h.recorded
    obtain ⟨step, hstep, hfound⟩ := MapMedium.get hinner now key
    exact ⟨wrap .recording step, congrArg (Option.map _) hstep, hfound⟩
  puts h puts taken := by
    obtain ⟨inner, rfl, hinner⟩ := h.recorded
    obtain ⟨step, hstep, rfl⟩ := Option.map_eq_some_iff.mp taken
    have hanswered := MapMedium.puts hinner puts hstep
    exact hanswered
  put h taken := by
    obtain ⟨inner, rfl, hinner⟩ := h.recorded
    obtain ⟨step, hstep, rfl⟩ := Option.map_eq_some_iff.mp taken
    have hput := MapMedium.put hinner hstep
    exact hput

end Store

end ReadThrough
