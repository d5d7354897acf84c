import ReadThrough.Proofs.Reads.Searches

/-! # What is remembered of searches

In a history of calls made one after another, the result of a search is remembered that was fetched
last, unless the searches of its table were swept since.

* `World.FetchedBy` and `Cache.Drops` are what a single activity adds and takes away;
* `World.Remembered` is what they come to in the history before an activity, `remembered_succ` how it
  grows with the history;
* `World.Recalls` says that entries hold all that is remembered and nothing else.
-/

namespace ReadThrough
set_option autoImplicit false

variable {ρ σ : Type}

/-- The activity sweeps the searches of a table, once it has an effect. -/
def Cache.Drops (c : Cache) (table : String) : Activity ρ → Prop
  | .change change _ => c.Heeds change ∧ change.table = table
  | .request .reset _ => True
  | .request (.invalidateSearches swept) _ => swept = table
  | _ => False

theorem Cache.drops_origin (c : Cache) (table : String) (activity : Activity ρ) :
    c.Drops table activity.origin ↔ c.Drops table activity := by
  cases activity with
  | read | change | job => exact Iff.rfl
  | request asked => cases asked <;> exact Iff.rfl

namespace World

/-! ## Histories -/

/-- The activity of this number is a read of this search that fetched this result and returned it, and
the result is cacheable. -/
inductive FetchedBy (c : Cache) (format : RowFormat ρ) (log : List (Event ρ)) (w : World ρ σ)
    (reader : ActivityId) (query : Query) (result : Option (ResultSet ρ)) : Prop
  | intro {earlier answer} (same : c.resultKey earlier = c.resultKey query)
      (delivered : .delivered reader earlier format (.answered answer) ∈ log)
      (normal : earlier.shape.normalize answer = result) (retains : c.Retains format result)
      (returned : w.Reads reader earlier format (.ended (.returned (.ok result))))

/-- Among the activities before this one there is a read that fetched this result of the search, and
none after it swept the searches of the table. -/
def Remembered (c : Cache) (format : RowFormat ρ) (log : List (Event ρ)) (w : World ρ σ)
    (i : ActivityId) (query : Query) (result : Option (ResultSet ρ)) : Prop :=
  ∃ reader < i, FetchedBy c format log w reader query result ∧
    ∀ later activity, reader < later → later < i → w.node.activities[later]? = some activity →
      ¬ c.Drops query.table activity

/-- Two histories are the same up to an activity. -/
structure Agrees (log : List (Event ρ)) (w : World ρ σ) (log' : List (Event ρ)) (w' : World ρ σ)
    (i : ActivityId) : Prop where
  events : ∀ event : Event ρ, event.reader < i → (event ∈ log' ↔ event ∈ log)
  activities : ∀ k < i, w'.node.activities[k]? = w.node.activities[k]?

variable {c : Cache} {format : RowFormat ρ} {log log' : List (Event ρ)} {w w' : World ρ σ}
  {i n : ActivityId} {query : Query} {result : Option (ResultSet ρ)} {activity : Activity ρ}

theorem Agrees.symm (h : Agrees log w log' w' i) : Agrees log' w' log w i :=
  ⟨fun event hi => (h.events event hi).symm, fun k hk => (h.activities k hk).symm⟩

theorem Agrees.mono (h : Agrees log w log' w' i) (le : n ≤ i) : Agrees log w log' w' n :=
  ⟨fun event hi => h.events event (Nat.lt_of_lt_of_le hi le),
    fun k hk => h.activities k (Nat.lt_of_lt_of_le hk le)⟩

theorem FetchedBy.agrees (h : FetchedBy c format log w n query result)
    (agrees : Agrees log w log' w' i) (hn : n < i) : FetchedBy c format log' w' n query result := by
  obtain @⟨earlier, answer, same, delivered, normal, retains, returned⟩ := h
  have hdelivered := (agrees.events (.delivered n earlier format (.answered answer)) hn).mpr delivered
  exact ⟨same, hdelivered, normal, retains, (agrees.activities n hn).trans returned⟩

theorem FetchedBy.of_same_key {query' : Query} (same : c.resultKey query = c.resultKey query')
    (h : FetchedBy c format log w n query result) : FetchedBy c format log w n query' result := by
  obtain ⟨hkey, delivered, normal, retains, returned⟩ := h
  exact ⟨hkey.trans same, delivered, normal, retains, returned⟩

theorem FetchedBy.of_returned {read : Query} {answer : Answer ρ}
    (h : FetchedBy c format log w n query result)
    (ended : w.Reads n read format (.ended answer)) :
    c.resultKey query = c.resultKey read ∧ c.Retains format result ∧
      answer = .returned (.ok result) := by
  obtain ⟨hkey, -, -, retains, returned⟩ := h
  obtain ⟨rfl, -, hstage⟩ := returned.inj ended
  exact ⟨hkey.symm, retains, (ReadStage.ended.inj hstage).symm⟩

theorem Remembered.agrees (h : Remembered c format log w i query result)
    (agrees : Agrees log w log' w' i) : Remembered c format log' w' i query result := by
  obtain ⟨reader, hreader, hfetched, hsince⟩ := h
  refine ⟨reader, hreader, hfetched.agrees agrees hreader, fun later activity hlater hi found => ?_⟩
  exact hsince later activity hlater hi ((agrees.activities later hi).symm.trans found)

theorem Remembered.of_same_key {query' : Query} (same : c.resultKey query = c.resultKey query')
    (tables : query.table = query'.table) (h : Remembered c format log w i query result) :
    Remembered c format log w i query' result := by
  obtain ⟨reader, hreader, hfetched, hsince⟩ := h
  exact ⟨reader, hreader, hfetched.of_same_key same, tables ▸ hsince⟩

theorem Agrees.remembered_iff (h : Agrees log w log' w' i) :
    Remembered c format log' w' i query result ↔ Remembered c format log w i query result :=
  ⟨fun hafter => hafter.agrees h.symm, fun hbefore => hbefore.agrees h⟩

theorem Remembered.stored (h : Remembered c format log w i query result) :
    ∃ value, format.stored? result = some value := by
  obtain ⟨reader, -, ⟨-, -, -, hretains, -⟩, -⟩ := h
  exact hretains.stored

/-- The last activity of a history adds what it fetched, or takes away what it sweeps. -/
theorem remembered_succ (found : w.node.activities[n]? = some activity) :
    Remembered c format log w (n + 1) query result ↔
      (Remembered c format log w n query result ∧ ¬ c.Drops query.table activity) ∨
        FetchedBy c format log w n query result := by
  constructor
  · rintro ⟨reader, hreader, hfetched, hsince⟩
    rcases Nat.lt_succ_iff_lt_or_eq.mp hreader with hbefore | rfl
    · refine .inl ⟨⟨reader, hbefore, hfetched, fun later activity hlater hn => ?_⟩, ?_⟩
      · exact hsince later activity hlater (Nat.lt_succ_of_lt hn)
      · exact hsince n activity hbefore (Nat.lt_succ_self n) found
    · exact .inr hfetched
  · rintro (⟨⟨reader, hreader, hfetched, hsince⟩, hkept⟩ | hfetched)
    · refine ⟨reader, Nat.lt_succ_of_lt hreader, hfetched, fun later other hlater hn hother => ?_⟩
      rcases Nat.lt_succ_iff_lt_or_eq.mp hn with hbefore | rfl
      · exact hsince later other hlater hbefore hother
      · obtain rfl := Option.some.inj (found.symm.trans hother)
        exact hkept
    · refine ⟨n, Nat.lt_succ_self n, hfetched, fun later other hlater hn => ?_⟩
      exact absurd (Nat.le_of_lt_succ hn) (Nat.not_le_of_lt hlater)

/-! ## Entries -/

/-- Under the keys of searches of cached tables these entries hold what is remembered, and nothing
else. -/
def Recalls (c : Cache) (format : RowFormat ρ) (log : List (Event ρ)) (w : World ρ σ) (i : ActivityId)
    (Held : String → String → Prop) : Prop :=
  ∀ query value, ColonFree query.table → c.config.caches query.table →
    (Held (c.resultKey query) value ↔
      ∃ result, Remembered c format log w i query result ∧ format.stored? result = some value)

variable {Held Held' : String → String → Prop}

theorem Recalls.agrees (h : Recalls c format log w i Held) (agrees : Agrees log w log' w' i) :
    Recalls c format log' w' i Held := by
  intro query value free cached
  simp only [h query value free cached, agrees.remembered_iff]

theorem Recalls.congr (h : Recalls c format log w i Held)
    (same : ∀ key value, Held' key value ↔ Held key value) : Recalls c format log w i Held' := by
  intro query value free cached
  rw [same, h query value free cached]

/-- At most one result of a search is remembered, if the entries are those of a map. -/
theorem Recalls.result_eq {value : String} (h : Recalls c format log w i Held)
    (back : ∀ rows, format.ReadsBack rows)
    (unique : ∀ key value value', Held key value → Held key value' → value = value')
    (free : ColonFree query.table) (cached : c.config.caches query.table)
    (held : Held (c.resultKey query) value) {stored : Option (ResultSet ρ)}
    (form : format.stored? stored = some value)
    (remembered : Remembered c format log w i query result) : result = stored := by
  obtain ⟨value', hvalue'⟩ := remembered.stored
  have hheld' : Held (c.resultKey query) value' :=
    (h query value' free cached).mpr ⟨result, remembered, hvalue'⟩
  obtain rfl := unique _ _ _ held hheld'
  exact Read.stored?_inj back hvalue' form

theorem Recalls.of_quiet (h : Recalls c format log w n Held)
    (found : w.node.activities[n]? = some activity) (keeps : ∀ table, ¬ c.Drops table activity)
    (fetches : ∀ query result, ColonFree query.table → c.config.caches query.table →
      FetchedBy c format log w n query result → Remembered c format log w n query result) :
    Recalls c format log w (n + 1) Held := by
  intro query value free cached
  rw [h query value free cached]
  refine exists_congr fun result => and_congr_left fun _ => ?_
  rw [remembered_succ found]
  constructor
  · intro hremembered
    exact .inl ⟨hremembered, keeps query.table⟩
  · rintro (⟨hremembered, -⟩ | hfetched)
    · exact hremembered
    · exact fetches query result free cached hfetched

theorem Recalls.of_swept (h : Recalls c format log w n Held)
    (found : w.node.activities[n]? = some activity) (other : activity.isRead = false)
    (swept : ∀ query value, ColonFree query.table → (Held' (c.resultKey query) value ↔
      Held (c.resultKey query) value ∧ ¬ c.Drops query.table activity)) :
    Recalls c format log w (n + 1) Held' := by
  intro query value free cached
  rw [swept query value free, h query value free cached, ← exists_and_right]
  refine exists_congr fun result => ?_
  rw [remembered_succ found, and_right_comm]
  refine and_congr_left fun _ => (or_iff_left ?_).symm
  rintro ⟨-, -, -, -, hreturned⟩
  obtain rfl := Option.some.inj (found.symm.trans hreturned)
  cases other

/-- A read puts the entry of a result that it fetched, where nothing was remembered. -/
theorem Recalls.of_stored {read : Query} {value : String} (h : Recalls c format log w n Held)
    (unknown : ∀ result, ¬ Remembered c format log w n read result)
    (fetched : FetchedBy c format log w n read result)
    (returned : w.Reads n read format (.ended (.returned (.ok result))))
    (free : ColonFree read.table) (form : format.stored? result = some value)
    (put : ∀ query value', Held' (c.resultKey query) value' ↔
      if c.resultKey query = c.resultKey read then value' = value
      else Held (c.resultKey query) value') :
    Recalls c format log w (n + 1) Held' := by
  intro query value' free' cached
  simp only [put query value', remembered_succ returned]
  split
  · rename_i hkey
    -- searches with one key are of one table, so nothing of this one was remembered, either
    have htables : query.table = read.table := KeyLayout.of_resultKey free' free hkey
    constructor
    · rintro rfl
      exact ⟨result, .inr (fetched.of_same_key hkey.symm), form⟩
    · rintro ⟨result', ⟨hremembered, -⟩ | hfetched, hform⟩
      · exact absurd (hremembered.of_same_key hkey htables) (unknown result')
      · obtain ⟨-, -, hanswer⟩ := hfetched.of_returned returned
        obtain rfl : result = result' := by simpa using hanswer
        exact Option.some.inj (hform.symm.trans form)
  · rename_i hkey
    rw [h query value' free' cached]
    refine exists_congr fun result' => and_congr_left fun _ => ?_
    constructor
    · exact fun hremembered => .inl ⟨hremembered, id⟩
    · rintro (⟨hremembered, -⟩ | hfetched)
      · exact hremembered
      · exact absurd (hfetched.of_returned returned).1 hkey

end World

end ReadThrough
