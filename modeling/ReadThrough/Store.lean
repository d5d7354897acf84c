import ReadThrough.Store.Expiring
import ReadThrough.Store.Recency
import ReadThrough.Store.Recording

/-! # Stores

A `Store` is one of the media that a cache can run on within the program. It is a medium
itself and passes every operation on.
-/

namespace ReadThrough

/-- A store of any of the kinds. -/
inductive Store
  | expiring (store : ExpiringStore)
  | recency (store : RecencyStore)
  | recording (store : RecordingStore)

namespace Store

def kind : Store → StoreKind
  | .expiring store => Medium.kind store
  | .recency store => Medium.kind store
  | .recording store => Medium.kind store

def wrap {σ : Type} {k : ReplyKind} (embed : σ → Store) (step : StoreStep σ k) :
    StoreStep Store k :=
  { store := embed step.store, operation := step.operation, notices := step.notices }

def step? {k : ReplyKind} (now : Nat) (operation : Operation k) :
    Store → Option (StoreStep Store k)
  | .expiring store => (Medium.step? now store operation).map (wrap .expiring)
  | .recency store => (Medium.step? now store operation).map (wrap .recency)
  | .recording store => (Medium.step? now store operation).map (wrap .recording)

instance : Medium Store where
  kind := kind
  step? now store operation := store.step? now operation

end Store

/-- Carry an operation on, at most `turns` steps, until it is answered or held back. -/
def Medium.runFor {σ : Type} [Medium σ] {k : ReplyKind} (now : Nat) :
    (turns : Nat) → σ → Operation k → List Notice → σ × Operation k × List Notice
  | 0, store, operation, notices => (store, operation, notices)
  | turns + 1, store, operation, notices =>
    match Medium.step? now store operation with
    | none => (store, operation, notices)
    | some step => Medium.runFor now turns step.store step.operation (notices ++ step.notices)

/-- More steps than any call can take: one for each key that it names, and the portions of a
sweep. -/
def stepLimit : Nat := Nat.pow 2 40

/-- Carry a call out by itself, until it is answered or held back. -/
def Medium.run {σ : Type} [Medium σ] {k : ReplyKind} (now : Nat) (store : σ) (call : Call k) :
    σ × Operation k × List Notice :=
  Medium.runFor now stepLimit store (.asked call) []

end ReadThrough
