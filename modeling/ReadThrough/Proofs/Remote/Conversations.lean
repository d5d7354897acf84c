import ReadThrough.Remote.Store

/-! # What is said over a line

A conversation sends commands over a line and reads the replies.

* `Line.Says` relates two states of a line by the commands sent and the replies to them;
* `WireReply.readAs` is what a reply is read as, and `Talk.ask_eq` that asking is sending and reading;
* `Talk.bind_of_ok` and `Talk.bind_of_error` take a conversation apart.
-/

namespace ReadThrough
set_option autoImplicit false

/-! ## Exchanges -/

/-- From the first state of the line to the second, these commands were sent and got these replies, in order. -/
inductive Line.Says : Line → List (Command × WireReply) → Line → Prop
  | nothing (line : Line) : line.Says [] line
  | next {line line' : Line} {command : Command} {said : List (Command × WireReply)}
      (later : (line.send command).1.Says said line') :
    line.Says ((command, (line.send command).2) :: said) line'

namespace Line.Says

variable {line line' line'' : Line} {said said' : List (Command × WireReply)}

theorem append (first : line.Says said line') (second : line'.Says said' line'') :
    line.Says (said ++ said') line'' := by
  induction first with
  | nothing => exact second
  | next _ ih => exact .next (ih second)

theorem length_send_le (line : Line) (command : Command) :
    (line.send command).1.replies.length ≤ line.replies.length := by
  unfold Line.send
  split
  · exact Nat.le_refl _
  · rename_i hreplies
    rw [hreplies]
    exact Nat.le_succ _

theorem length_le (told : line.Says said line') : line'.replies.length ≤ line.replies.length := by
  induction told with
  | nothing => exact Nat.le_refl _
  | @next line _ command _ _ ih => exact Nat.le_trans ih (length_send_le line command)

end Line.Says

/-! ## Reading replies -/

/-- What a reply is read as: a value, or the failure of its command. -/
def WireReply.readAs {α : Type} (as? : WireReply → Option α) (reply : WireReply) : Except Fault α :=
  match reply.firstError? with
  | some text => .error (.failed (.backend (.server text)))
  | none =>
    match as? reply with
    | some value => .ok value
    | none => .error (.failed (.backend .unreadableReply))

/-- A reply that can be read was waiting on the line. -/
theorem Line.length_send_lt {α : Type} {as? : WireReply → Option α} {line : Line} {command : Command} {value : α}
    (read : (line.send command).2.readAs as? = .ok value) :
    (line.send command).1.replies.length < line.replies.length := by
  unfold Line.send at read ⊢
  split at read
  · cases read
  · rename_i hreplies
    rw [hreplies]
    exact Nat.lt_succ_self _

/-! ## Conversations -/

namespace Talk

variable {α β : Type}

theorem ask_eq (command : Command) (as? : WireReply → Option α) (line : Line) :
    ask command as? line = ((line.send command).2.readAs as?, (line.send command).1) := by
  change read as? (line.send command).2 (line.send command).1 = _
  unfold read WireReply.readAs
  cases (line.send command).2.firstError? with
  | some text => rfl
  | none =>
    cases as? (line.send command).2 with
    | some value => rfl
    | none => rfl

variable {talk : Talk α} {more : α → Talk β} {line line' : Line}

theorem bind_of_ok {value : α} (h : talk line = (.ok value, line')) : (talk >>= more) line = more value line' := by
  change ExceptT.bindCont more (talk line).1 (talk line).2 = _
  rw [h]
  rfl

theorem bind_of_error {fault : Fault} (h : talk line = (.error fault, line')) :
    (talk >>= more) line = (.error fault, line') := by
  change ExceptT.bindCont more (talk line).1 (talk line).2 = _
  rw [h]
  rfl

end Talk

end ReadThrough
