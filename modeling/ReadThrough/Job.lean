import ReadThrough.Store.Call

/-! # Upkeep jobs

A `Job` fills the cache or deletes from it. It makes its store calls one after another and goes on
after a failure, which it only reports.

* `Job.steps` are the calls, each with the notice to give if it fails;
* a `JobRun` is a job under way, and `JobRun.step?` its next step.
-/

namespace ReadThrough

/-- A unit of upkeep of the cache of a table. -/
inductive Job
  | putSearch (table : String) (entry : Entry)
  | putPoints (table : String) (entries : List Entry)
  /-- Remember that a search found nothing. -/
  | putNotFound (table : String) (entry : Entry)
  /-- Delete from the point namespaces. -/
  | deletePoints (table : String) (deletions : List Deletion)
  /-- Delete all search results of a table. -/
  | sweepSearches (table : String) (segments : String)

def Deletion.call : Deletion → Call .done
  | .keys list => .deleteAll list
  | .under segments => .sweep segments

namespace Job

/-- The calls of a job in order, each with the notice that its failure gives. -/
def steps : Job → List (Call .done × Notice)
  | .putSearch table entry => [(.put entry, .searchFillFailed table)]
  | .putPoints table entries => [(.putAll entries, .pointFillFailed table entries.length)]
  | .putNotFound table entry => [(.put entry, .negativeFillFailed table)]
  | .deletePoints table deletions =>
    deletions.map fun deletion => (deletion.call, .deletionFailed table deletion)
  | .sweepSearches table segments => [(.sweep segments, .sweepFailed table)]

def closing (lastFailed : Bool) : Job → List Notice
  | .deletePoints table deletions => [.pointsInvalidated table deletions.length]
  | .sweepSearches table _ => if lastFailed then [] else [.searchesInvalidated table]
  | _ => []

end Job

/-- A job under way: the operation in progress, the notice for its failure, and the steps to come;
or that the job has ended, or broken down with its caller. -/
inductive JobRun
  | working (job : Job) (operation : Operation .done) (onFailure : Notice)
      (rest : List (Call .done × Notice))
  | finished
  | brokeDown

/-- A step of a job: the store and the job after it, and what was reported. -/
structure JobStep (σ : Type) where
  store : σ
  run : JobRun
  notices : List Notice := []

namespace JobRun

def next (job : Job) : List (Call .done × Notice) → JobRun
  | [] => .finished
  | (call, onFailure) :: rest => .working job (.asked call) onFailure rest

def start (job : Job) : JobRun := next job job.steps

def isFinished : JobRun → Bool
  | .finished => true
  | _ => false

def isBroken : JobRun → Bool
  | .brokeDown => true
  | _ => false

def isHeld : JobRun → Bool
  | .working _ operation _ _ => operation.isHeld
  | _ => false

def isSweeping : JobRun → Bool
  | .working _ operation _ _ => operation.isSweeping
  | _ => false

def receive {σ : Type} (store : σ) (job : Job) (onFailure : Notice)
    (rest : List (Call .done × Notice)) : Reply .done → JobStep σ
  | .error .brokeDown => { store := store, run := .brokeDown }
  | .error (.failed _) =>
    { store := store
      run := next job rest
      notices := onFailure :: (if rest.isEmpty then job.closing true else []) }
  | .ok () =>
    { store := store
      run := next job rest
      notices := if rest.isEmpty then job.closing false else [] }

/-- The next step: of the store on the call in progress, or of the job on its reply. -/
def step? {σ : Type} [Medium σ] (now : Nat) (store : σ) : JobRun → Option (JobStep σ)
  | .working job (.answered reply) onFailure rest => some (receive store job onFailure rest reply)
  | .working job operation onFailure rest =>
    (Medium.step? now store operation).map fun step =>
      { store := step.store
        run := .working job step.operation onFailure rest
        notices := step.notices }
  | .finished | .brokeDown => none

end JobRun

end ReadThrough
