import ReadThrough.KeyLayout
import ReadThrough.Notice
import ReadThrough.Store.Settings

/-! # Calls to a store

* `Call` lists what a store can be asked, each call with the kind of its reply;
* an `Operation` is a call under way: asked, held back, in the middle of a sweep, or answered;
* a `Medium` is a store, given by what it does next about an operation.

A store works in steps, and between two steps of one operation it may work on others.
-/

namespace ReadThrough

/-! ## Calls and replies -/

/-- A key with its value. -/
structure Entry where
  key : String
  value : String
deriving DecidableEq

/-- The kinds of replies. -/
inductive ReplyKind
  | done
  | flag
  | text
  | slots
deriving DecidableEq

/-- The values of a kind of reply. A reply in slots has one slot for each key asked about. -/
abbrev ReplyKind.Value : ReplyKind → Type
  | .done => Unit
  | .flag => Bool
  | .text => String
  | .slots => List (Option String)

/-- What a store can be asked. -/
inductive Call : ReplyKind → Type
  /-- Set up; only the first time counts. -/
  | init (settings : Settings) : Call .done
  | contains (key : String) : Call .flag
  | containsAll (keys : List String) : Call .flag
  | get (key : String) : Call .text
  | getAll (keys : List String) : Call .slots
  | put (entry : Entry) : Call .done
  | putAll (entries : List Entry) : Call .done
  | delete (key : String) : Call .done
  | deleteAll (keys : List String) : Call .done
  /-- Delete all keys that lie under a prefix. -/
  | sweep (segments : String) : Call .done
  /-- Delete all keys that lie under the scope of the settings. -/
  | clear : Call .done

abbrev Reply (kind : ReplyKind) := Except Fault kind.Value

/-! ## Operations -/

/-- A call under way. -/
inductive Operation : ReplyKind → Type
  | asked {kind : ReplyKind} (call : Call kind) : Operation kind
  | held {kind : ReplyKind} (call : Call kind) : Operation kind
  /-- A sweep that still has these keys to delete. -/
  | sweeping (rest : List String) : Operation .done
  | answered {kind : ReplyKind} (reply : Reply kind) : Operation kind

namespace Operation

def isHeld {kind : ReplyKind} : Operation kind → Bool
  | .held _ => true
  | _ => false

/-- Whether the operation is a sweep between two of its portions. -/
def isSweeping {kind : ReplyKind} : Operation kind → Bool
  | .sweeping _ => true
  | _ => false

end Operation

def sweepPortion : Nat := 5000

/-! ## Media -/

/-- A step of a store: its new state, the operation after it, and what it reported. -/
structure StoreStep (σ : Type) (kind : ReplyKind) where
  store : σ
  operation : Operation kind
  notices : List Notice := []

/-- A storage medium. At a given time it takes the next step of an operation, or has none to take
as long as it holds the operation back. -/
class Medium (σ : Type) where
  kind : σ → StoreKind
  step? {k : ReplyKind} (now : Nat) (store : σ) (operation : Operation k) : Option (StoreStep σ k)

def StoreStep.answer {σ : Type} {k : ReplyKind} (store : σ) (reply : Reply k) : StoreStep σ k :=
  { store := store, operation := .answered reply }

end ReadThrough
