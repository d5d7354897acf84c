import ReadThrough.Proofs.Remote.Conversations

/-! # Deleting keys on a server

Keys are deleted in portions, one command for each, until a command fails.

* `portionsFor_flatten` and `isPortion_of_mem`: the portions are the keys in order, and none is empty or too large;
* `Saying` is one exchange of a sweep or of a batch of deletions, and `EndsIn` says how a failure ends it;
* `deleteKeys_deletes` says what is said when keys are deleted.
-/

namespace ReadThrough.RemoteStore
set_option autoImplicit false

/-! ## Portions -/

theorem portionsFor_cons (fuel : Nat) (key : String) (keys : List String) :
    portionsFor (fuel + 1) (key :: keys) =
      (key :: keys).take sweepPortion :: portionsFor fuel ((key :: keys).drop sweepPortion) := rfl

theorem portionsFor_flatten {fuel : Nat} {keys : List String} (enough : keys.length ≤ fuel) :
    (portionsFor fuel keys).flatten = keys := by
  induction fuel generalizing keys with
  | zero =>
    obtain rfl := List.eq_nil_of_length_eq_zero (Nat.le_zero.mp enough)
    rfl
  | succ fuel ih =>
    cases keys with
    | nil => rfl
    | cons key keys =>
      have shorter : ((key :: keys).drop sweepPortion).length ≤ fuel := by
        rw [List.length_drop, sweepPortion]
        rw [List.length_cons] at enough ⊢
        omega
      rw [portionsFor_cons, List.flatten_cons, ih shorter, List.take_append_drop]

/-- So many keys as one command deletes. -/
def IsPortion (keys : List String) : Prop := 1 ≤ keys.length ∧ keys.length ≤ 5000

theorem isPortion_of_mem {fuel : Nat} {keys portion : List String} (mem : portion ∈ portionsFor fuel keys) :
    IsPortion portion := by
  induction fuel generalizing keys with
  | zero => cases mem
  | succ fuel ih =>
    cases keys with
    | nil => cases mem
    | cons key keys =>
      rw [portionsFor_cons] at mem
      rcases List.mem_cons.mp mem with rfl | later
      · rw [IsPortion, List.length_take, List.length_cons, sweepPortion]
        omega
      · exact ih later

/-! ## What is said -/

/-- One exchange of a sweep: the command that asks for a page, or one that deletes keys, and the reply. -/
inductive Saying
  | scan (pattern : String) (cursor : UInt64) (reply : WireReply)
  | delete (keys : List String) (reply : WireReply)

namespace Saying

/-- The words that are sent. -/
def command : Saying → Command
  | .scan pattern cursor _ => ["SCAN", toString cursor.toNat, "MATCH", pattern, "COUNT", "1000"]
  | .delete keys _ => "DEL" :: keys

def reply : Saying → WireReply
  | .scan _ _ reply | .delete _ reply => reply

def exchange (saying : Saying) : Command × WireReply := (saying.command, saying.reply)

theorem exchange_scan (pattern : String) (cursor : UInt64) (reply : WireReply) :
    (scan pattern cursor reply).exchange = (scanCommand pattern cursor, reply) := rfl

/-- What the reply comes to: a failure, or the page if one was asked for. -/
def outcome : Saying → Except Fault (Option (UInt64 × List String))
  | .scan _ _ reply => (reply.readAs WireReply.asPage?).map some
  | .delete _ reply => (reply.readAs WireReply.asAnything?).map fun _ => none

def Succeeds (saying : Saying) : Prop := ∃ page?, saying.outcome = .ok page?

def page? (saying : Saying) : Option (UInt64 × List String) := saying.outcome.toOption.join

def IsDeletion : Saying → Prop
  | .scan _ _ _ => False
  | .delete keys _ => IsPortion keys

/-- The exchange asks for a page of the keys that match the pattern, or deletes a portion of keys. -/
def Fits (pattern : String) : Saying → Prop
  | .scan pattern' _ _ => pattern' = pattern
  | .delete keys _ => IsPortion keys

theorem IsDeletion.fits {saying : Saying} (deletion : saying.IsDeletion) (pattern : String) :
    saying.Fits pattern := by
  cases saying with
  | scan => cases deletion
  | delete => exact deletion

end Saying

/-- The pages that were read, each with the cursor of the next one. -/
def pagesIn (said : List Saying) : List (UInt64 × List String) := said.filterMap Saying.page?

/-- The cursors of the next pages, in digits. -/
def cursorsReturned (said : List Saying) : List String := (pagesIn said).map fun page => toString page.1.toNat

def keysReported (said : List Saying) : List String := (pagesIn said).flatMap Prod.snd

/-- The cursor in a command that asks for a page. -/
def cursorIn? : Command → Option String
  | "SCAN" :: cursor :: _ => some cursor
  | _ => none

/-- The keys in a command that deletes. -/
def keysIn : Command → List String
  | "DEL" :: keys => keys
  | _ => []

def cursorsSent (said : List Saying) : List String := said.filterMap fun saying => cursorIn? saying.command

def keysDeleted (said : List Saying) : List String := said.flatMap fun saying => keysIn saying.command

/-- The first command that fails is the last one, and its failure is the result. -/
def EndsIn {α : Type} (said : List Saying) : Except Fault α → Prop
  | .ok _ => ∀ saying ∈ said, saying.Succeeds
  | .error fault => ∃ before last, said = before ++ [last] ∧ last.outcome = .error fault ∧
      ∀ saying ∈ before, saying.Succeeds

section

variable {α : Type} {said said' : List Saying} {result : Except Fault α}

theorem EndsIn.after (fine : ∀ saying ∈ said, saying.Succeeds) (ends : EndsIn said' result) :
    EndsIn (said ++ said') result := by
  cases result with
  | ok value =>
    intro saying mem
    rcases List.mem_append.mp mem with first | second
    · exact fine saying first
    · exact ends saying second
  | error fault =>
    obtain ⟨before, last, rfl, failed, fine'⟩ := ends
    refine ⟨said ++ before, last, (List.append_assoc _ _ _).symm, failed, ?_⟩
    intro saying mem
    rcases List.mem_append.mp mem with first | second
    · exact fine saying first
    · exact fine' saying second

theorem pagesIn_of_deletions (deletions : ∀ saying ∈ said, saying.IsDeletion) : pagesIn said = [] := by
  refine List.filterMap_eq_nil_iff.mpr fun saying mem => ?_
  cases saying with
  | scan => exact (deletions _ mem).elim
  | delete keys reply =>
    rw [Saying.page?, Saying.outcome]
    cases reply.readAs WireReply.asAnything? <;> rfl

theorem cursorsSent_of_deletions (deletions : ∀ saying ∈ said, saying.IsDeletion) : cursorsSent said = [] := by
  refine List.filterMap_eq_nil_iff.mpr fun saying mem => ?_
  cases saying with
  | scan => exact (deletions _ mem).elim
  | delete => rfl

end

/-! ## Deleting keys -/

/-- Deleting keys says this: portions of them in order, up to the end or to the first failure. -/
structure Deletes (keys : List String) (said : List Saying) (result : Except Fault Unit) : Prop where
  deletions : ∀ saying ∈ said, saying.IsDeletion
  in_order : keysDeleted said <+: keys
  all : result = .ok () → keysDeleted said = keys
  ends : EndsIn said result

theorem Deletes.nothing : Deletes [] [] (.ok ()) where
  deletions _ mem := absurd mem List.not_mem_nil
  in_order := List.nil_prefix
  all _ := rfl
  ends _ mem := absurd mem List.not_mem_nil

variable {portion keys : List String} {reply : WireReply} {said : List Saying}

theorem Deletes.failed {fault : Fault} (fits : IsPortion portion)
    (read : reply.readAs WireReply.asAnything? = .error fault) :
    Deletes (portion ++ keys) [.delete portion reply] (.error fault) where
  deletions := List.forall_mem_singleton.mpr fits
  in_order := by simp [keysDeleted, Saying.command, keysIn]
  all done := nomatch done
  ends := ⟨[], .delete portion reply, rfl, by rw [Saying.outcome, read]; rfl,
    fun _ mem => absurd mem List.not_mem_nil⟩

theorem Deletes.first {result : Except Fault Unit} (fits : IsPortion portion)
    (read : reply.readAs WireReply.asAnything? = .ok ()) (rest : Deletes keys said result) :
    Deletes (portion ++ keys) (.delete portion reply :: said) result where
  deletions := List.forall_mem_cons.mpr ⟨fits, rest.deletions⟩
  in_order := (List.prefix_append_right_inj portion).mpr rest.in_order
  all done := congrArg (portion ++ ·) (rest.all done)
  ends := EndsIn.after (List.forall_mem_singleton.mpr ⟨none, by rw [Saying.outcome, read]; rfl⟩) rest.ends

/-- What is said by deleting portions one after another. The induction is on the portions. -/
theorem forM_deletes {portions : List (List String)} (fit : ∀ portion ∈ portions, IsPortion portion)
    {line line' : Line} {result : Except Fault Unit}
    (run : portions.forM (fun portion => Talk.ask ("DEL" :: portion) WireReply.asAnything?) line = (result, line')) :
    ∃ said : List Saying, line.Says (said.map Saying.exchange) line' ∧ Deletes portions.flatten said result := by
  induction portions generalizing line with
  | nil =>
    obtain ⟨rfl, rfl⟩ := Prod.mk.inj run
    exact ⟨[], .nothing line, .nothing⟩
  | cons portion portions ih =>
    obtain ⟨fits, fit⟩ := List.forall_mem_cons.mp fit
    have asked := Talk.ask_eq ("DEL" :: portion) WireReply.asAnything? line
    rw [List.forM] at run
    cases read : (line.send ("DEL" :: portion)).2.readAs WireReply.asAnything? with
    | error fault =>
      rw [read] at asked
      obtain ⟨rfl, rfl⟩ := Prod.mk.inj ((Talk.bind_of_error asked).symm.trans run)
      exact ⟨[.delete portion _], .next (.nothing _), .failed fits read⟩
    | ok done =>
      rw [read] at asked
      obtain ⟨said, told, deletes⟩ := ih fit ((Talk.bind_of_ok asked).symm.trans run)
      exact ⟨.delete portion _ :: said, .next told, .first fits read deletes⟩

theorem deleteKeys_deletes {line line' : Line} {result : Except Fault Unit}
    (run : deleteKeys keys line = (result, line')) :
    ∃ said : List Saying, line.Says (said.map Saying.exchange) line' ∧ Deletes keys said result := by
  obtain ⟨said, told, deletes⟩ := forM_deletes (fun _ mem => isPortion_of_mem mem) run
  rw [portionsFor_flatten (Nat.le_refl _)] at deletes
  exact ⟨said, told, deletes⟩

theorem Deletes.eq_nil {said : List Saying} {result : Except Fault Unit} (deletes : Deletes [] said result) :
    said = [] := by
  cases said with
  | nil => rfl
  | cons saying said =>
    have nothing : keysIn saying.command = [] :=
      (List.append_eq_nil_iff.mp (List.prefix_nil.mp deletes.in_order)).1
    have portion := deletes.deletions saying List.mem_cons_self
    cases saying with
    | scan => cases portion
    | delete keys =>
      obtain rfl : keys = [] := nothing
      exact absurd portion.1 (Nat.not_succ_le_zero 0)

end ReadThrough.RemoteStore
