import ReadThrough.Proofs.Flights.LateReads
import ReadThrough.Proofs.Reads.Conduct

/-! # Failures that reads return

Whatever the store does, a read that returns a failure returns one of the data source: of its own
fetch, or of the fetch of the leader that it followed. The only other failure is that of a follower
whose row format does not read what its leader has left.

* `Escapes` lists these cases;
* `returned_failures_escape` is the theorem;
* `follower_fails_on_unreadable_rows` shows the last case.
-/

namespace ReadThrough
set_option autoImplicit false

variable {ρ σ : Type}

namespace World

/-- Where a failure comes from that a read returns. -/
inductive Escapes (log : List (Event ρ)) (w : World ρ σ) (i : ActivityId) (query : Query)
    (format : RowFormat ρ) : Failure → Prop
  | own {text} (delivered : .delivered i query format (.failed text) ∈ log) :
    Escapes log w i query format (.dataSource text)
  /-- The leader of the same key failed, and returned the same. -/
  | shared {text leader query' format' flight} (adopted : .adopted i query flight ∈ log)
      (led : .joined leader query' (.leader flight) ∈ log)
      (alike : query'.flightName = query.flightName)
      (delivered : .delivered leader query' format' (.failed text) ∈ log)
      (returned : w.Reads leader query' format' (.ended (.returned (.error (.dataSource text))))) :
    Escapes log w i query format (.dataSource text)
  /-- The leader of the same key returned rows, but the read cannot read what the leader left. -/
  | unreadable {leader query' format' flight payload rowsAffected found}
      (adopted : .adopted i query flight ∈ log)
      (led : .joined leader query' (.leader flight) ∈ log)
      (alike : query'.flightName = query.flightName)
      (left : LeftBy .none log leader query' format' (.found payload rowsAffected) (.ok (some found)))
      (returned : w.Reads leader query' format' (.ended (.returned (.ok (some found)))))
      (unread : format.decodeAll payload = none) :
    Escapes log w i query format .deserialization

variable [Medium σ] {w w' : World ρ σ} {log : List (Event ρ)} {i : ActivityId} {query : Query}
  {format : RowFormat ρ} {failure : Failure}

theorem escapes_of_adopted {flight : FlightId} (new : w.IsNew) (run : Runs Unrestricted w log w')
    (read : w'.Reads i query format (.ended (.returned (.error failure))))
    (adopted : .adopted i query flight ∈ log) : Escapes log w' i query format failure := by
  obtain ⟨outcome, leader, query', format', result, hadopts, halike, hled, hreturned, hleft⟩ :=
    (conducted_of_run new run).of_adopted new run read adopted
  cases outcome with
  | notFound => cases hadopts
  | failed text =>
    obtain rfl := Except.error.inj hadopts
    cases hleft with
    | failed delivered => exact .shared adopted hled halike delivered hreturned
  | found payload rowsAffected =>
    cases hunread : format.decodeAll payload with
    | some rows =>
      rw [Read.adopt, hunread] at hadopts
      cases hadopts
    | none =>
      rw [Read.adopt, hunread] at hadopts
      obtain rfl := Except.error.inj hadopts
      obtain ⟨found, rfl⟩ : ∃ found, result = .ok (some found) := by
        cases hleft <;> exact ⟨_, rfl⟩
      exact .unreadable adopted hled halike hleft hreturned hunread

/-- On any store, in any run: a failure that a read returns is the failure of its own fetch, or of the
fetch of the leader that it followed, or it is a follower that cannot read what its leader left. The
last does not happen if all reads use one row format, which reads back what it writes. -/
theorem returned_failures_escape (new : w.IsNew) (run : Runs Unrestricted w log w')
    (read : w'.Reads i query format (.ended (.returned (.error failure)))) :
    Escapes log w' i query format failure ∧
      ((∀ j query' format' stage, w'.Reads j query' format' stage → format' = format) →
        (∀ rows, format.ReadsBack rows) → ∃ text, failure = .dataSource text) := by
  have hobeys := conducted_of_run new run
  have hescapes : Escapes log w' i query format failure := by
    have hreturns : Returns .none log i query format (.error failure) := hobeys.reads _ _ _ _ read
    cases hreturns with
    | left left =>
      cases left with
      | failed delivered => exact .own delivered
    | bypassFailed bypasses delivered => exact .own delivered
    | adopted adopted => exact escapes_of_adopted new run read adopted
  refine ⟨hescapes, fun same back => ?_⟩
  cases hescapes with
  | own | shared => exact ⟨_, rfl⟩
  | unreadable adopted led alike left returned unread =>
    obtain rfl := same _ _ _ _ returned
    have hadopts := left.adopt fun found _ => back found.rows
    rw [Read.adopt, unread] at hadopts
    cases hadopts

/-- The data source fails a read, and the read that follows it returns the same failure. -/
theorem follower_returns_failure_of_leader :
    ∃ (w : World Row RecordingStore) (log : List (Event Row)),
      atRest.IsNew ∧ Runs Unrestricted atRest log w ∧
      w.Reads 1 usersRead Row.integers (.ended (.returned (.error (.dataSource "down")))) ∧
      Escapes log w 1 usersRead Row.integers (.dataSource "down") := by
  have hrun : (atRest.perform? Unrestricted (twoReads 0 1 ++ [.move (.go 0), .move (.go 0),
      .move (.deliver 0 (.failed "down")), .move (.go 1)])).map
        (fun last => last.1.node.activities[1]?) =
      some (some (.read usersRead Row.integers
        (.ended (.returned (.error (.dataSource "down")))))) := by cbv
  obtain ⟨⟨w, log⟩, hlast, returned⟩ := Option.map_eq_some_iff.mp hrun
  have new : atRest.IsNew := ⟨⟨{}, "a", rfl⟩, rfl⟩
  have run : Runs Unrestricted atRest log w := .of_perform? hlast
  exact ⟨w, log, new, run, returned, (returned_failures_escape new run returned).1⟩

/-- A caller reads numbers, and another reads the same as records, while the first waits for the data
source. No fetch fails, but what the first leaves is no array of records, and the second returns this
as a failure. -/
theorem follower_fails_on_unreadable_rows :
    ∃ (w : World Row RecordingStore) (log : List (Event Row)),
      atRest.IsNew ∧ Runs Unrestricted atRest log w ∧
      (∀ i query format text, Event.delivered i query format (.failed text) ∉ log) ∧
      w.Reads 0 usersRead Row.integers (.ended (.returned (.ok (some (.one (.integer 5)))))) ∧
      w.Reads 1 usersRead Row.records (.ended (.returned (.error .deserialization))) := by
  have hrun : (atRest.perform? Unrestricted [.read usersRead Row.integers, .move (.go 0),
      .move (.go 0), .move (.go 0), .read usersRead Row.records, .move (.go 1),
      .move (.deliver 0 (.answered (some (.one (.integer 5))))), .move (.goJob 0 0),
      .move (.goJob 0 0), .move (.goJob 0 1), .move (.goJob 0 1), .move (.go 0), .move (.go 1)]).map
        (fun last => (last.1.node.activities[0]?, last.1.node.activities[1]?, last.2)) =
      some (some (.read usersRead Row.integers (.ended (.returned (.ok (some (.one (.integer 5))))))),
        some (.read usersRead Row.records (.ended (.returned (.error .deserialization)))),
        [.joined 0 usersRead (.leader 0), .asked 0 usersRead, .joined 1 usersRead (.follower 0),
          .delivered 0 usersRead Row.integers (.answered (some (.one (.integer 5)))),
          .adopted 1 usersRead 0]) := by cbv
  obtain ⟨⟨w, log⟩, hlast, hfacts⟩ := Option.map_eq_some_iff.mp hrun
  simp only [Prod.mk.injEq] at hfacts
  obtain ⟨first, second, hlog⟩ := hfacts
  exact ⟨w, log, ⟨⟨{}, "a", rfl⟩, rfl⟩, .of_perform? hlast, by simp [hlog], first, second⟩

end World

end ReadThrough
