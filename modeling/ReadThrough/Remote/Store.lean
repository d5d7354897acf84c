import ReadThrough.Remote.Address
import ReadThrough.Remote.Glob
import ReadThrough.Remote.Wire
import ReadThrough.Store.Call

/-! # The remote store

A store whose entries are kept by a server. Every call is a conversation over a `Line`.

* `RemoteStore.create` checks where the server is; `init` connects and loads the script that looks
  for several keys at once;
* `RemoteStore.sweepPages` walks the keys page by page and deletes what it is told about, in
  portions;
* `RemoteStore.call` carries out any call.
-/

namespace ReadThrough

/-! ## Conversations -/

abbrev Talk := ExceptT Fault (StateM Line)

namespace Talk

def serverError {α : Type} (text : String) : Talk α :=
  throw (.failed (.backend (.server text)))

def ofExcept {α : Type} : Except Fault α → Talk α
  | .ok value => pure value
  | .error fault => throw fault

def exchange (command : Command) : Talk WireReply :=
  fun line =>
    let (line, reply) := line.send command
    (.ok reply, line)

/-- Read a reply as a value. An error, or a reply of another type, is a failure. -/
def read {α : Type} (as? : WireReply → Option α) (reply : WireReply) : Talk α :=
  match reply.firstError? with
  | some text => serverError text
  | none =>
    match as? reply with
    | some value => pure value
    | none => throw (.failed (.backend .unreadableReply))

def ask {α : Type} (command : Command) (as? : WireReply → Option α) : Talk α := do
  read as? (← exchange command)

/-- Send several commands, and then see whether one of the replies is an error. -/
def pipeline (commands : List Command) : Talk Unit := do
  let replies ← commands.mapM exchange
  match WireReply.firstErrorOf? replies with
  | some text => serverError text
  | none => pure ()

end Talk

/-! ## The store -/

/-- The script that looks for several keys at once, up to the first that is absent. -/
def containsAllScript : String :=
  "\nfor _, key in ipairs(KEYS) do\n    if redis.call('EXISTS', key) == 0 then\n" ++
    "        return 0\n    end\nend\nreturn 1\n"

def containsAllDigest : String := "643910d04cc6fca988492875558a321dabd41aa0"

def scanCount : Nat := 1000

/-- The settings of the first set-up, whether there is a connection, and the factors for times to
live. -/
structure RemoteStore where
  settings : Option Settings := none
  connected : Bool := false
  jitter : Jitter := .steady

/-- Where a server is: given by an address, or by a client that was set up elsewhere. -/
structure RemoteTarget where
  address : Option String := none
  hasClient : Bool := false

namespace RemoteStore

/-- A store for a server. A client goes before an address; nothing is connected yet. -/
def create (target : RemoteTarget) : Except Failure RemoteStore :=
  match target.hasClient, target.address with
  | true, _ => .ok {}
  | false, none => .error (.configuration .noServer)
  | false, some address =>
    match Address.check address with
    | none => .ok {}
    | some fault => .error (.configuration (.badAddress address fault.message))

/-- The failure of a call that needs the settings or the connection. -/
def notReady : Fault := .failed (.configuration (.usedBeforeInit .redis))

def debugText (store : RemoteStore) : String :=
  Text.recordText "RedisStore" [
    ("connection", Text.quoted "<ConnectionManager>"),
    ("settings", Text.optionText (store.settings.map Settings.debugText))]

def needConnection (store : RemoteStore) : Talk Unit :=
  if store.connected then pure () else throw notReady

/-! ### Storing -/

/-- A time to live in whole milliseconds: at least one, and no more than 64 bits hold. -/
def ttlMillis (ttl : Duration) : Nat := max 1 (min ttl.millis (UInt64.size - 1))

/-- The command that stores an entry, with a fresh time to live. -/
def putCommand (store : RemoteStore) (entry : Entry) : Except Fault Command :=
  match store.settings with
  | none => .error notReady
  | some settings =>
    match settings.lifetime store.jitter.next with
    | .error fault => .error fault
    | .ok none => .ok ["SET", entry.key, entry.value]
    | .ok (some ttl) => .ok ["SET", entry.key, entry.value, "PX", toString (ttlMillis ttl)]

def putCommands (store : RemoteStore) : List Entry → Except Fault (List Command)
  | [] => .ok []
  | entry :: rest =>
    match store.putCommand entry with
    | .error fault => .error fault
    | .ok command =>
      match { store with jitter := store.jitter.advance }.putCommands rest with
      | .error fault => .error fault
      | .ok commands => .ok (command :: commands)

def afterDraws (store : RemoteStore) (count : Nat) : RemoteStore :=
  { store with jitter := { store.jitter with drawn := store.jitter.drawn + count } }

/-! ### Deleting -/

def portionsFor : (fuel : Nat) → List String → List (List String)
  | 0, _ => []
  | _ + 1, [] => []
  | fuel + 1, keys => keys.take sweepPortion :: portionsFor fuel (keys.drop sweepPortion)

/-- Keys in portions of at most `sweepPortion`, in order. -/
def portions (keys : List String) : List (List String) := portionsFor keys.length keys

def deleteKeys (keys : List String) : Talk Unit :=
  (portions keys).forM fun portion => Talk.ask ("DEL" :: portion) WireReply.asAnything?

def scanCommand (pattern : String) (cursor : UInt64) : Command :=
  ["SCAN", toString cursor.toNat, "MATCH", pattern, "COUNT", toString scanCount]

/-- Walk the pages from a cursor on, with keys reported and not yet deleted, and count the keys
deleted. Keys are deleted when there is a portion of them, and at the end. A page takes a reply of
the line, which bounds the walk. -/
def sweepPagesFor (pattern : String) :
    (fuel : Nat) → (cursor : UInt64) → (pending : List String) → (deleted : Nat) → Talk Nat
  | 0, _, _, _ => throw (.failed (.backend .unreadableReply))
  | fuel + 1, cursor, pending, deleted => do
    let (next, keys) ← Talk.ask (scanCommand pattern cursor) WireReply.asPage?
    let pending := pending ++ keys
    let due := sweepPortion ≤ pending.length || (next = 0 && !pending.isEmpty)
    if due then
      deleteKeys pending
    let deleted := if due then deleted + pending.length else deleted
    let pending := if due then [] else pending
    if next = 0 then return deleted
    sweepPagesFor pattern fuel next pending deleted

def sweepPages (segments : String) : Talk Nat := do
  let line ← get
  sweepPagesFor (Glob.underPattern segments) (line.replies.length + 1) 0 [] 0

def sweep (store : RemoteStore) (segments : String) : Talk (List Notice) := do
  store.needConnection
  let deleted ← sweepPages segments
  return if store.settings.any Settings.debug then [.remoteSweep segments deleted] else []

/-! ### Looking -/

/-- Invoke the script by its digest. If the server does not know it, load it and try once more. -/
def invokeScript (keys : List String) : Talk Bool := do
  let command := "EVALSHA" :: containsAllDigest :: toString keys.length :: keys
  let reply ← Talk.exchange command
  let all ← match reply.firstError? with
    | some text =>
      if WireReply.isUnknownScript text then do
        Talk.ask ["SCRIPT", "LOAD", containsAllScript] WireReply.asAnything?
        Talk.ask command WireReply.asInt64?
      else Talk.serverError text
    | none => Talk.read WireReply.asInt64? reply
  return all = 1

/-- Slots for so many keys: missing ones are empty, and surplus ones are left out. -/
def fitSlots (count : Nat) (slots : List (Option String)) : List (Option String) :=
  (slots ++ List.replicate (count - slots.length) none).take count

/-! ### Calls -/

def connect (store : RemoteStore) : Talk (RemoteStore × List Notice) :=
  if store.connected then pure (store, [])
  else do
    let script ← Talk.ask ["SCRIPT", "LOAD", containsAllScript] WireReply.asText?
    return ({ store with connected := true }, [.remoteReady script])

/-- What a call that does not set the store up says over the line, with what it reports. -/
def converse {k : ReplyKind} (store : RemoteStore) : Call k → Talk (k.Value × List Notice)
  | .init _ => pure ((), [])
  | .contains key => do
    store.needConnection
    return (0 < (← Talk.ask ["EXISTS", key] WireReply.asInt64?), [])
  | .containsAll keys => do
    if keys.isEmpty then return (true, [])
    store.needConnection
    return (← invokeScript keys, [])
  | .get key => do
    store.needConnection
    match ← Talk.ask ["GET", key] WireReply.asSlot? with
    | some value => return (value, [])
    | none => throw (.failed .notFound)
  | .getAll keys => do
    if keys.isEmpty then return ([], [])
    store.needConnection
    return (fitSlots keys.length (← Talk.ask ("MGET" :: keys) WireReply.asSlots?), [])
  | .put entry => do
    store.needConnection
    Talk.ask (← Talk.ofExcept (store.putCommand entry)) WireReply.asAnything?
    return ((), [])
  | .putAll entries => do
    if entries.isEmpty then return ((), [])
    store.needConnection
    Talk.pipeline (← Talk.ofExcept (store.putCommands entries))
    return ((), [])
  | .delete key => do
    store.needConnection
    Talk.ask ["DEL", key] WireReply.asAnything?
    return ((), [])
  | .deleteAll keys => do
    store.needConnection
    deleteKeys keys
    return ((), [])
  | .sweep segments => return ((), ← store.sweep segments)
  | .clear =>
    match store.settings with
    | none => throw notReady
    | some settings => return ((), ← store.sweep settings.scope)

def drawsOf {k : ReplyKind} : Call k → Nat
  | .put _ => 1
  | .putAll entries => entries.length
  | _ => 0

/-- A call carried out: the store and the line after it, the reply, and what was reported. -/
structure Exchange (k : ReplyKind) where
  store : RemoteStore
  line : Line
  reply : Reply k
  notices : List Notice

/-- Set the store up. Only the first settings count, and a connection that could not be made is
tried again the next time. -/
def init (store : RemoteStore) (line : Line) (settings : Settings) : Exchange .done :=
  let (store, notices) : RemoteStore × List Notice :=
    match store.settings with
    | none => ({ store with settings := some settings }, [])
    | some _ => (store, [.alreadyInitialized .redis])
  match store.connect line with
  | (.ok (store, more), line) => ⟨store, line, .ok (), notices ++ more⟩
  | (.error fault, line) => ⟨store, line, .error fault, notices⟩

def call {k : ReplyKind} (store : RemoteStore) (line : Line) : Call k → Exchange k
  | .init settings => store.init line settings
  | call =>
    match store.converse call line with
    | (.ok (value, notices), line) =>
      ⟨store.afterDraws (drawsOf call), line, .ok value, notices⟩
    | (.error fault, line) => ⟨store.afterDraws (drawsOf call), line, .error fault, []⟩

end RemoteStore

end ReadThrough
