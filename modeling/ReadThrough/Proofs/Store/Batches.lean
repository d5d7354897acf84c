import ReadThrough.Proofs.Store.InProcessDeadlines

/-! # Batches and single calls

A batch on the recency store does what its single calls do one after another, at one time: it gives the same replies
and leaves the same slots in the same order, settings and factors drawn. There is one exception. Where a time to live
breaks a put down, the entries before it are stored, and a batch in which it breaks down stores nothing.

* `RecencyStore.inTurn?` carries out calls one after another, up to a reply that stops them;
* `RecencyStore.newSlot_place`: to make a slot and to place another can be exchanged;
* `RecencyStore.batches_are_single_calls` is the theorem, and `RecencyStore.late_breakdown_loses_batch` the exception.
-/

namespace ReadThrough.RecencyStore
set_option autoImplicit false

/-! ## Single calls in turn -/

/-- Calls of one kind, carried out one after another at one time up to a reply that stops them: the store after them
and the replies. There is no result if a call is not answered at once. -/
def inTurn? {k : ReplyKind} (stops : Reply k → Bool) (now : Nat) (store : RecencyStore) :
    List (Call k) → Option (RecencyStore × List (Reply k))
  | [] => some (store, [])
  | call :: rest =>
    match store.start now call with
    | ⟨next, .answered reply, _⟩ =>
      if stops reply then some (next, [reply])
      else (inTurn? stops now next rest).map fun last => (last.1, reply :: last.2)
    | _ => none

section

variable {k : ReplyKind} {stops : Reply k → Bool} {now : Nat} {store next : RecencyStore} {call : Call k}
  {reply : Reply k} {rest : List (Call k)}

theorem inTurn?_stop (answers : store.start now call = .answer next reply) (stop : stops reply = true) :
    inTurn? stops now store (call :: rest) = some (next, [reply]) := by
  rw [inTurn?, answers]
  exact if_pos stop

theorem inTurn?_goOn (answers : store.start now call = .answer next reply) (goOn : stops reply = false) :
    inTurn? stops now store (call :: rest) =
      (inTurn? stops now next rest).map fun last => (last.1, reply :: last.2) := by
  rw [inTurn?, answers]
  exact if_neg (Bool.eq_false_iff.mp goOn)

end

/-! ## Looking and deleting -/

/-- The reply to a single read. -/
def readReply : Option String → Reply .text
  | some value => .ok value
  | none => .error (.failed .notFound)

def isYes : Reply .flag → Bool
  | .ok found => found
  | .error _ => false

theorem start_get (store : RecencyStore) (now : Nat) (key : String) :
    store.start now (.get key) = .answer (store.look now key).1 (readReply (store.look now key).2) := by
  rw [start]
  generalize store.look now key = looked
  obtain ⟨next, none | value⟩ := looked <;> rfl

theorem inTurn?_gets (store : RecencyStore) (now : Nat) (keys : List String) :
    inTurn? (fun _ => false) now store (keys.map .get) =
      some ((store.lookAll now keys).1, (store.lookAll now keys).2.map readReply) := by
  induction keys generalizing store with
  | nil => rfl
  | cons key rest ih =>
    rw [List.map_cons, inTurn?_goOn (start_get store now key) rfl, ih]
    rfl

/-- Looking for several keys stops at the first miss. -/
theorem inTurn?_contains (store : RecencyStore) (now : Nat) (keys : List String) :
    ∃ replies, inTurn? (fun reply => !isYes reply) now store (keys.map .contains) =
        some ((store.containsAll now keys).1, replies) ∧ (store.containsAll now keys).2 = replies.all isYes := by
  induction keys generalizing store with
  | nil => exact ⟨[], rfl, rfl⟩
  | cons key rest ih =>
    have answers : store.start now (.contains key) =
        .answer (store.look now key).1 (.ok (store.look now key).2.isSome) := rfl
    rw [List.map_cons, containsAll]
    generalize store.look now key = looked at answers
    obtain ⟨next, none | value⟩ := looked
    · exact ⟨[.ok false], inTurn?_stop answers rfl, rfl⟩
    · obtain ⟨replies, run, all⟩ := ih next
      refine ⟨.ok true :: replies, ?_, all⟩
      rw [inTurn?_goOn answers rfl, run]
      rfl

theorem inTurn?_deletes (store : RecencyStore) (now : Nat) (keys : List String) :
    inTurn? (fun _ => false) now store (keys.map .delete) = some (store.deleteAll keys, keys.map fun _ => .ok ()) := by
  induction keys generalizing store with
  | nil => rfl
  | cons key rest ih =>
    have answers : store.start now (.delete key) = .answer (store.delete key) (.ok ()) := rfl
    rw [List.map_cons, inTurn?_goOn answers rfl, ih]
    rfl

/-! ## Storing -/

/-- Making a slot does not look at the slots there are. -/
theorem newSlot_place (store : RecencyStore) (now : Nat) (value key : String) (slot : Slot) :
    (store.place key slot).newSlot now value =
      ((store.newSlot now value).1.place key slot, (store.newSlot now value).2) := by
  unfold newSlot
  cases hsettings : store.settings with
  | none =>
    have hplaced : (store.place key slot).settings = none := hsettings
    rw [hplaced]
  | some settings =>
    have hplaced : (store.place key slot).settings = some settings := hsettings
    have hnext : (store.place key slot).jitter = store.jitter := rfl
    rw [hplaced, hnext]
    dsimp only
    cases settings.lifetime store.jitter.next with
    | error fault => rfl
    | ok ttl =>
      dsimp only
      cases deadline now ttl with
      | error fault => rfl
      | ok ends => rfl

theorem newSlots_place (store : RecencyStore) (now : Nat) (entries : List Entry) (key : String) (slot : Slot) :
    (store.place key slot).newSlots now entries =
      ((store.newSlots now entries).1.place key slot, (store.newSlots now entries).2) := by
  induction entries generalizing store with
  | nil => rfl
  | cons entry rest ih =>
    rw [newSlots, newSlots, newSlot_place]
    obtain ⟨middle, fault | made⟩ := store.newSlot now entry.value
    · rfl
    · dsimp only
      rw [ih]
      obtain ⟨last, fault | slots⟩ := middle.newSlots now rest <;> rfl

/-- The first entry of a batch may as well be stored before the slots of the others are made, if these can be made. -/
theorem putAll_cons {store middle : RecencyStore} {now : Nat} {entry : Entry} {slot : Slot}
    (made : store.newSlot now entry.value = (middle, .ok slot)) (rest : List Entry) :
    (store.putAll now (entry :: rest)).2 = ((middle.place entry.key slot).putAll now rest).2 ∧
    (store.putAll now (entry :: rest)).1.jitter = ((middle.place entry.key slot).putAll now rest).1.jitter ∧
    ((store.putAll now (entry :: rest)).2 = .ok () →
      (store.putAll now (entry :: rest)).1 = ((middle.place entry.key slot).putAll now rest).1) := by
  rw [putAll, putAll, newSlots, made, newSlots_place]
  dsimp only
  obtain ⟨last, fault | slots⟩ := middle.newSlots now rest
  · exact ⟨rfl, rfl, fun stored => by cases stored⟩
  · exact ⟨rfl, rfl, fun _ => rfl⟩

theorem put_settings (store : RecencyStore) (now : Nat) (entry : Entry) :
    (store.put now entry).1.settings = store.settings := by
  obtain ⟨slots, jitter, hput⟩ := putAll_eq store now [entry]
  rw [← putAll_single, hput]

theorem lifetime_error {settings : Settings} {factor : Factor} {fault : Fault}
    (failed : settings.lifetime factor = .error fault) : fault = .brokeDown := by
  unfold Settings.lifetime scaledTtl at failed
  split at failed
  · cases failed
  · split at failed
    · cases failed
    · cases failed
      rfl

theorem deadline_error {now : Nat} {ttl : Option Duration} {fault : Fault}
    (failed : deadline now ttl = .error fault) : fault = .brokeDown := by
  unfold deadline at failed
  split at failed
  · cases failed
  · split at failed
    · cases failed
    · cases failed
      rfl

/-- If there are settings, only a breakdown keeps a slot from being made. -/
theorem newSlot_error {store : RecencyStore} {settings : Settings} {now : Nat} {value : String} {fault : Fault}
    (ready : store.settings = some settings) (failed : (store.newSlot now value).2 = .error fault) :
    fault = .brokeDown := by
  rw [newSlot, ready] at failed
  dsimp only at failed
  cases hlifetime : settings.lifetime store.jitter.next with
  | error fault' =>
    rw [hlifetime] at failed
    obtain rfl := Except.error.inj failed
    exact lifetime_error hlifetime
  | ok ttl =>
    rw [hlifetime] at failed
    dsimp only at failed
    cases hdeadline : deadline now ttl with
    | error fault' =>
      rw [hdeadline] at failed
      obtain rfl := Except.error.inj failed
      exact deadline_error hdeadline
    | ok ends =>
      rw [hdeadline] at failed
      cases failed

theorem start_put_of_unmade {store middle : RecencyStore} {now : Nat} {entry : Entry} {fault : Fault}
    (unmade : store.newSlot now entry.value = (middle, .error fault)) :
    store.start now (.put entry) = .answer middle (.error fault) := by
  have hput : store.put now entry = (middle, .error fault) := by rw [put, unmade]
  change StoreStep.answer (store.put now entry).1 (store.put now entry).2 = _
  rw [hput]

theorem putAll_of_unmade {store middle : RecencyStore} {now : Nat} {entry : Entry} {fault : Fault}
    (unmade : store.newSlot now entry.value = (middle, .error fault)) (rest : List Entry) :
    store.putAll now (entry :: rest) = (middle, .error fault) := by
  rw [putAll, newSlots, unmade]

/-- Single puts in turn, on a store that was set up: they reply as the batch does, and leave what it leaves if it
does not break down. -/
theorem inTurn?_puts {store : RecencyStore} {settings : Settings} (ready : store.settings = some settings) (now : Nat)
    (entries : List Entry) :
    ∃ next replies, inTurn? (fun reply => !reply.isOk) now store (entries.map .put) = some (next, replies) ∧
      replies.getLast?.getD (.ok ()) = (store.putAll now entries).2 ∧
      next.jitter = (store.putAll now entries).1.jitter ∧
      ((store.putAll now entries).2 = .error .brokeDown ∨
        (store.putAll now entries).2 = .ok () ∧ next = (store.putAll now entries).1) := by
  induction entries generalizing store with
  | nil => exact ⟨store, [], rfl, rfl, rfl, .inr ⟨rfl, rfl⟩⟩
  | cons entry rest ih =>
    cases made : store.newSlot now entry.value with
    | mk middle result =>
      cases result with
      | error fault =>
        obtain rfl := newSlot_error ready (congrArg Prod.snd made)
        rw [putAll_of_unmade made rest]
        exact ⟨middle, [.error .brokeDown], inTurn?_stop (start_put_of_unmade made) rfl, rfl, rfl, .inl rfl⟩
      | ok slot =>
        have hput : store.put now entry = (middle.place entry.key slot, .ok ()) := by rw [put, made]
        have answers : store.start now (.put entry) = .answer (store.put now entry).1 (store.put now entry).2 := rfl
        have hsettings := put_settings store now entry
        rw [hput] at answers hsettings
        obtain ⟨next, replies, run, reply, jitter, same⟩ := ih (hsettings.trans ready)
        obtain ⟨hreply, hjitter, hstore⟩ := putAll_cons made rest
        rw [hreply, hjitter]
        refine ⟨next, .ok () :: replies, ?_, ?_, jitter, ?_⟩
        · rw [List.map_cons, inTurn?_goOn answers rfl, run]
          rfl
        · rw [List.getLast?_cons, Option.getD_some, reply]
        · exact same.imp_right fun h => ⟨h.1, h.2.trans (hstore (hreply.trans h.1)).symm⟩

/-- A batch that fails stores nothing. -/
theorem putAll_slots_of_failed {store : RecencyStore} {now : Nat} {entries : List Entry} {fault : Fault}
    (failed : (store.putAll now entries).2 = .error fault) : (store.putAll now entries).1.slots = store.slots := by
  have hsame := newSlots_slots store now entries
  rw [putAll] at failed ⊢
  generalize store.newSlots now entries = made at hsame failed ⊢
  obtain ⟨next, fault | slots⟩ := made
  · exact hsame
  · cases failed

/-! ## Batches -/

/-- A batch of puts and its single puts. They draw the same factors, and a batch that fails stores nothing. -/
structure PutsInTurn (store : RecencyStore) (now : Nat) (entries : List Entry) (batch next : RecencyStore)
    (reply : Reply .done) (replies : List (Reply .done)) : Prop where
  answers : store.start now (.putAll entries) = .answer batch reply
  inTurn : inTurn? (fun reply => !reply.isOk) now store (entries.map .put) = some (next, replies)
  last : reply = replies.getLast?.getD (.ok ())
  jitter : next.jitter = batch.jitter
  same : reply ≠ .error .brokeDown → next = batch
  failed : ∀ fault, reply = .error fault → batch.slots = store.slots

/-- The batches on a store at one time, and the single calls that they stand for. -/
structure BatchesAreCalls (store : RecencyStore) (now : Nat) : Prop where
  getAll : ∀ keys, ∃ next slots, store.start now (.getAll keys) = .answer next (.ok slots) ∧
    inTurn? (fun _ => false) now store (keys.map .get) = some (next, slots.map readReply)
  containsAll : ∀ keys, ∃ next replies,
    store.start now (.containsAll keys) = .answer next (.ok (replies.all isYes)) ∧
    inTurn? (fun reply => !isYes reply) now store (keys.map .contains) = some (next, replies)
  putAll : ∀ entries, ∃ batch next reply replies, PutsInTurn store now entries batch next reply replies
  deleteAll : ∀ keys, ∃ next, store.start now (.deleteAll keys) = .answer next (.ok ()) ∧
    inTurn? (fun _ => false) now store (keys.map .delete) = some (next, keys.map fun _ => .ok ())
  unready : ∀ entries, store.settings = none → entries ≠ [] →
    store.start now (.putAll entries) = .answer store (.error notReady)

theorem putsInTurn_of_unready {store : RecencyStore} (unready : store.settings = none) (now : Nat)
    (entry : Entry) (rest : List Entry) :
    PutsInTurn store now (entry :: rest) store store (.error notReady) [.error notReady] := by
  have unmade : store.newSlot now entry.value = (store, .error notReady) := newSlot_of_unready unready entry.value
  have batch : store.start now (.putAll (entry :: rest)) =
      .answer (store.putAll now (entry :: rest)).1 (store.putAll now (entry :: rest)).2 := rfl
  rw [putAll_of_unmade unmade rest] at batch
  exact ⟨batch, inTurn?_stop (start_put_of_unmade unmade) rfl, rfl, rfl, fun _ => rfl, fun _ _ => rfl⟩

theorem exists_putsInTurn (store : RecencyStore) (now : Nat) (entries : List Entry) :
    ∃ batch next reply replies, PutsInTurn store now entries batch next reply replies := by
  cases hsettings : store.settings with
  | none =>
    cases entries with
    | nil => exact ⟨store, store, .ok (), [], rfl, rfl, rfl, rfl, fun _ => rfl, nofun⟩
    | cons entry rest => exact ⟨_, _, _, _, putsInTurn_of_unready hsettings now entry rest⟩
  | some settings =>
    obtain ⟨next, replies, run, reply, jitter, same⟩ := inTurn?_puts hsettings now entries
    refine ⟨_, next, _, replies, rfl, run, reply.symm, jitter, fun unbroken => ?_, fun fault failed => ?_⟩
    · rcases same with broke | ⟨-, same⟩
      · exact absurd broke unbroken
      · exact same
    · exact putAll_slots_of_failed failed

/-- **Batches are single calls in turn**, on every recency store at every time: the replies are the same, and so is
the store after them, the order of its slots included, unless a put breaks down. -/
theorem batches_are_single_calls (store : RecencyStore) (now : Nat) : BatchesAreCalls store now where
  getAll keys := ⟨_, _, rfl, inTurn?_gets store now keys⟩
  containsAll keys := by
    obtain ⟨replies, run, all⟩ := inTurn?_contains store now keys
    exact ⟨_, replies, congrArg (StoreStep.answer _ ∘ Except.ok) all, run⟩
  putAll entries := exists_putsInTurn store now entries
  deleteAll keys := ⟨_, rfl, inTurn?_deletes store now keys⟩
  unready entries unready some_put := by
    obtain ⟨entry, rest, rfl⟩ := List.exists_cons_of_ne_nil some_put
    exact (putsInTurn_of_unready unready now entry rest).answers

/-- A store that was set up with a time to live close to the end of the clock: with the first factor drawn an entry
lives to a time that the clock can show, and with the later ones it does not. -/
def nearEnd : RecencyStore where
  capacity := 2
  capacity_pos := Nat.zero_lt_two
  settings := some ⟨⟨9000000000 * nanosPerSecond * nanosPerSecond, by decide⟩, false, "a"⟩
  jitter := ⟨fun number => if number = 0 then .one else .greatest, 0⟩

/-- Two puts one after another store the first entry before the second breaks down. The batch of both breaks down and
stores nothing. -/
theorem late_breakdown_loses_batch :
    ∃ batch next : RecencyStore,
      nearEnd.start 0 (.putAll [⟨"a:1", "x"⟩, ⟨"a:2", "y"⟩]) = .answer batch (.error .brokeDown) ∧
      inTurn? (fun reply => !reply.isOk) 0 nearEnd [.put ⟨"a:1", "x"⟩, .put ⟨"a:2", "y"⟩] =
        some (next, [.ok (), .error .brokeDown]) ∧
      batch.slots = [] ∧
      next.slots = [("a:1", ⟨"x", some (9000000000 * nanosPerSecond * nanosPerSecond)⟩)] := by
  exact ⟨_, _, rfl, rfl, rfl, rfl⟩

end ReadThrough.RecencyStore
