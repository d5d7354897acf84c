import ReadThrough.Proofs.Layout
import ReadThrough.Proofs.Remote.Deletions

/-! # Remote sweeps delete what they are told about

A sweep asks the server for its keys page by page, keeps the keys it was told about until there is a portion of
them, and deletes them in portions.

* `deleteDue_settles` says what is said between two pages, and `sweepPagesFor_turn` what one turn of the walk does
  if nothing fails;
* `KeepsPace` holds of a sweep at any time: it asks only with cursors returned, and deletes only keys reported;
* `SweepsFrom.page` adds a page in front of a sweep, and `sweepPagesFor_sweeps` is the walk over all pages;
* `sweepPagesFor_of_pages`: there are replies for every sequence of pages;
* `remote_deletions_follow_reports` is the theorem.
-/

namespace ReadThrough.RemoteStore
set_option autoImplicit false

/-! ## Deleting what is due -/

/-- Delete the keys if it is time to, and keep them otherwise. -/
def deleteDue (next : UInt64) (pending : List String) : Talk (List String) := do
  if sweepPortion ≤ pending.length || (next = 0 && !pending.isEmpty) then
    deleteKeys pending
    return []
  return pending

theorem sweepPagesFor_succ (pattern : String) (fuel : Nat) (cursor : UInt64) (pending : List String) (count : Nat) :
    sweepPagesFor pattern (fuel + 1) cursor pending count = (do
      let page ← Talk.ask (scanCommand pattern cursor) WireReply.asPage?
      let still ← deleteDue page.1 (pending ++ page.2)
      let count := count + ((pending ++ page.2).length - still.length)
      if page.1 = 0 then return count
      sweepPagesFor pattern fuel page.1 still count) := by
  rw [sweepPagesFor]
  refine bind_congr fun page => ?_
  unfold deleteDue
  cases due : decide (sweepPortion ≤ (pending ++ page.2).length) ||
    (decide (page.1 = 0) && !(pending ++ page.2).isEmpty) with
  | false => simp only [due]; simp
  | true => simp only [due]; simp

/-- What is said when the keys that are due are deleted, with the keys still to delete as the result. -/
structure Settles (next : UInt64) (pending : List String) (said : List Saying)
    (result : Except Fault (List String)) : Prop where
  deletions : ∀ saying ∈ said, saying.IsDeletion
  in_order : keysDeleted said <+: pending
  kept : ∀ still, result = .ok still → keysDeleted said ++ still = pending ∧ (next = 0 → still = [])
  ends : EndsIn said result

/-- As many keys are deleted as are no longer waiting. -/
theorem Settles.counted {next : UInt64} {pending still : List String} {said : List Saying}
    (settles : Settles next pending said (.ok still)) :
    pending.length - still.length = (keysDeleted said).length := by
  rw [← (settles.kept still rfl).1, List.length_append, Nat.add_sub_cancel]

theorem deleteDue_settles {next : UInt64} {pending : List String} {line line' : Line}
    {result : Except Fault (List String)} (run : deleteDue next pending line = (result, line')) :
    ∃ said : List Saying, line.Says (said.map Saying.exchange) line' ∧ Settles next pending said result := by
  unfold deleteDue at run
  split at run
  · cases deleting : deleteKeys pending line with
    | mk done line'' =>
      obtain ⟨said, told, deletes⟩ := deleteKeys_deletes deleting
      cases done with
      | error fault =>
        obtain ⟨rfl, rfl⟩ := Prod.mk.inj ((Talk.bind_of_error deleting).symm.trans run)
        exact ⟨said, told, deletes.deletions, deletes.in_order, nofun, deletes.ends⟩
      | ok done =>
        obtain ⟨rfl, rfl⟩ := Prod.mk.inj ((Talk.bind_of_ok deleting).symm.trans run)
        refine ⟨said, told, deletes.deletions, deletes.in_order, ?_, deletes.ends⟩
        rintro still ⟨⟩
        exact ⟨by rw [List.append_nil, deletes.all rfl], fun _ => rfl⟩
  · rename_i notDue
    obtain ⟨rfl, rfl⟩ := Prod.mk.inj run
    refine ⟨[], .nothing line, Deletes.nothing.deletions, List.nil_prefix, ?_, Deletes.nothing.ends⟩
    rintro still ⟨⟩
    refine ⟨rfl, fun last => ?_⟩
    simp only [last, Bool.or_eq_true, Bool.and_eq_true, not_or] at notDue
    simpa using notDue.2

/-! ## Walking the pages -/

/-- A page is asked for only with the first cursor, or with the one that the page before it returned, and keys are
deleted only after they were reported, in order. -/
structure KeepsPace (cursor : UInt64) (pending : List String) (said : List Saying) : Prop where
  asks : cursorsSent said <+: toString cursor.toNat :: cursorsReturned said
  in_order : keysDeleted said <+: pending ++ keysReported said

/-- What a sweep says from a cursor on, with keys it was told about before and has still to delete. -/
structure SweepsFrom {α : Type} (pattern : String) (cursor : UInt64) (pending : List String) (said : List Saying)
    (result : Except Fault α) : Prop where
  fits : ∀ saying ∈ said, saying.Fits pattern
  paces : ∀ earlier, earlier <+: said → KeepsPace cursor pending earlier
  goes_on : ∀ later ∈ (cursorsSent said).tail, later ≠ "0"
  all : ∀ value, result = .ok value → keysDeleted said = pending ++ keysReported said ∧
    cursorsSent said ++ ["0"] = toString cursor.toNat :: cursorsReturned said
  ends : EndsIn said result

section

variable {α : Type} {pattern : String} {cursor next : UInt64} {pending keys still : List String} {reply : WireReply}
  {deletions rest : List Saying} {result : Except Fault α}

theorem pagesIn_page (read : reply.readAs WireReply.asPage? = .ok (next, keys))
    (only : ∀ saying ∈ deletions, saying.IsDeletion) :
    pagesIn (.scan pattern cursor reply :: (deletions ++ rest)) = (next, keys) :: pagesIn rest := by
  have first : (Saying.scan pattern cursor reply).page? = some (next, keys) := by
    rw [Saying.page?, Saying.outcome, read]
    rfl
  rw [pagesIn, List.filterMap_cons_some first, List.filterMap_append]
  exact congrArg ((next, keys) :: · ++ pagesIn rest) (pagesIn_of_deletions only)

theorem cursorsSent_page (only : ∀ saying ∈ deletions, saying.IsDeletion) :
    cursorsSent (.scan pattern cursor reply :: (deletions ++ rest)) = toString cursor.toNat :: cursorsSent rest := by
  change _ :: cursorsSent (deletions ++ rest) = _
  rw [cursorsSent, List.filterMap_append]
  exact congrArg (toString cursor.toNat :: · ++ cursorsSent rest) (cursorsSent_of_deletions only)

theorem told_page {line line' line'' : Line}
    (deleting : (line.send (scanCommand pattern cursor)).1.Says (deletions.map Saying.exchange) line')
    (told : line'.Says (rest.map Saying.exchange) line'') :
    line.Says ((Saying.scan pattern cursor (line.send (scanCommand pattern cursor)).2 ::
      (deletions ++ rest)).map Saying.exchange) line'' := by
  rw [List.map_cons, List.map_append, Saying.exchange_scan]
  exact .next (deleting.append told)

theorem keysDeleted_page :
    keysDeleted (.scan pattern cursor reply :: (deletions ++ rest)) = keysDeleted deletions ++ keysDeleted rest := by
  simp [keysDeleted, Saying.command, keysIn]

theorem scan_succeeds (read : reply.readAs WireReply.asPage? = .ok (next, keys)) :
    ∀ saying ∈ [Saying.scan pattern cursor reply], saying.Succeeds :=
  List.forall_mem_singleton.mpr ⟨some (next, keys), by rw [Saying.outcome, read]; rfl⟩

theorem keysDeleted_isPrefix {earlier said : List Saying} (before : earlier <+: said) :
    keysDeleted earlier <+: keysDeleted said := by
  obtain ⟨later, rfl⟩ := before
  rw [keysDeleted, keysDeleted, List.flatMap_append]
  exact List.prefix_append _ _

/-! ### At any time -/

theorem KeepsPace.nothing (cursor : UInt64) (pending : List String) : KeepsPace cursor pending [] :=
  ⟨List.nil_prefix, List.nil_prefix⟩

/-- A page was read, and then some of the keys due were deleted. -/
theorem KeepsPace.first (read : reply.readAs WireReply.asPage? = .ok (next, keys))
    (only : ∀ saying ∈ deletions, saying.IsDeletion) (in_order : keysDeleted deletions <+: pending ++ keys) :
    KeepsPace cursor pending (.scan pattern cursor reply :: (deletions ++ [])) where
  asks := by
    rw [cursorsSent_page only]
    exact (List.prefix_cons_inj _).mpr List.nil_prefix
  in_order := by
    rw [keysDeleted_page, keysReported, pagesIn_page read only]
    simpa [keysDeleted, pagesIn] using in_order

/-- A page was read, then keys were deleted, and then more was said. -/
theorem KeepsPace.page (read : reply.readAs WireReply.asPage? = .ok (next, keys))
    (settles : Settles next (pending ++ keys) deletions (.ok still)) (paces : KeepsPace next still rest) :
    KeepsPace cursor pending (.scan pattern cursor reply :: (deletions ++ rest)) where
  asks := by
    rw [cursorsSent_page settles.deletions, cursorsReturned, pagesIn_page read settles.deletions]
    exact (List.prefix_cons_inj _).mpr paces.asks
  in_order := by
    rw [keysDeleted_page, keysReported, pagesIn_page read settles.deletions, List.flatMap_cons,
      ← List.append_assoc, ← (settles.kept still rfl).1, List.append_assoc]
    exact (List.prefix_append_right_inj _).mpr paces.in_order

/-- Up to some time nothing was said, or the page was asked for and some of the deletions were made, or more. -/
theorem prefix_page_cases {scan : Saying} {earlier : List Saying} (before : earlier <+: scan :: (deletions ++ rest)) :
    earlier = [] ∨ (∃ made, made <+: deletions ∧ earlier = scan :: (made ++ [])) ∨
      ∃ said, said <+: rest ∧ earlier = scan :: (deletions ++ said) := by
  cases earlier with
  | nil => exact .inl rfl
  | cons first earlier =>
    obtain ⟨rfl, after⟩ := List.cons_prefix_cons.mp before
    refine .inr ?_
    rcases List.prefix_or_prefix_of_prefix after (List.prefix_append deletions rest) with within | beyond
    · exact .inl ⟨earlier, within, by rw [List.append_nil]⟩
    · obtain ⟨said, rfl⟩ := beyond
      exact .inr ⟨said, (List.prefix_append_right_inj deletions).mp after, rfl⟩

theorem KeepsPace.of_stopped {settled : Except Fault (List String)}
    (read : reply.readAs WireReply.asPage? = .ok (next, keys))
    (settles : Settles next (pending ++ keys) deletions settled) {earlier : List Saying}
    (before : earlier <+: .scan pattern cursor reply :: (deletions ++ [])) : KeepsPace cursor pending earlier := by
  rcases prefix_page_cases before with rfl | ⟨made, made_of, rfl⟩ | ⟨said, none, rfl⟩
  · exact .nothing cursor pending
  · exact .first read (fun saying mem => settles.deletions saying (made_of.subset mem))
      ((keysDeleted_isPrefix made_of).trans settles.in_order)
  · obtain rfl := List.prefix_nil.mp none
    exact .first read settles.deletions settles.in_order

theorem KeepsPace.of_page (read : reply.readAs WireReply.asPage? = .ok (next, keys))
    (settles : Settles next (pending ++ keys) deletions (.ok still))
    (paces : ∀ earlier, earlier <+: rest → KeepsPace next still earlier) {earlier : List Saying}
    (before : earlier <+: .scan pattern cursor reply :: (deletions ++ rest)) : KeepsPace cursor pending earlier := by
  rcases prefix_page_cases before with rfl | ⟨made, made_of, rfl⟩ | ⟨said, said_of, rfl⟩
  · exact .nothing cursor pending
  · exact .first read (fun saying mem => settles.deletions saying (made_of.subset mem))
      ((keysDeleted_isPrefix made_of).trans settles.in_order)
  · exact .page read settles (paces said said_of)

/-- Only the cursor 0 reads as such. -/
theorem digits_ne_zero (more : next ≠ 0) : toString next.toNat ≠ "0" := by
  intro same
  have reads := SearchEntry.count?_toString next
  rw [same] at reads
  exact more (Option.some.inj (reads.symm.trans (SearchEntry.count?_toString 0)))

/-! ### From a page on -/

/-- The page could not be read. -/
theorem SweepsFrom.unread {fault : Fault} (read : reply.readAs WireReply.asPage? = .error fault) :
    SweepsFrom pattern cursor pending [.scan pattern cursor reply] (.error fault : Except Fault α) where
  fits := List.forall_mem_singleton.mpr rfl
  paces earlier before := by
    rcases List.prefix_cons_iff.mp before with rfl | ⟨said, rfl, none⟩
    · exact .nothing cursor pending
    · obtain rfl := List.prefix_nil.mp none
      exact ⟨(List.prefix_cons_inj _).mpr List.nil_prefix, List.nil_prefix⟩
  goes_on _ mem := absurd mem List.not_mem_nil
  all _ done := nomatch done
  ends := ⟨[], .scan pattern cursor reply, rfl, by rw [Saying.outcome, read]; rfl,
    fun _ mem => absurd mem List.not_mem_nil⟩

/-- A page was read, and the sweep ended with the deletions after it. -/
theorem SweepsFrom.stops {settled : Except Fault (List String)}
    (read : reply.readAs WireReply.asPage? = .ok (next, keys))
    (settles : Settles next (pending ++ keys) deletions settled) (ends : EndsIn deletions result)
    (last : ∀ value, result = .ok value → next = 0 ∧ keysDeleted deletions = pending ++ keys) :
    SweepsFrom pattern cursor pending (.scan pattern cursor reply :: (deletions ++ [])) result where
  fits := by
    rw [List.append_nil]
    exact List.forall_mem_cons.mpr ⟨rfl, fun saying mem => (settles.deletions saying mem).fits pattern⟩
  paces _ before := .of_stopped read settles before
  goes_on := by
    rw [cursorsSent_page settles.deletions]
    exact fun _ mem => absurd mem List.not_mem_nil
  all value done := by
    obtain ⟨rfl, deleted⟩ := last value done
    rw [keysDeleted_page, keysReported, cursorsReturned, cursorsSent_page settles.deletions,
      pagesIn_page read settles.deletions, deleted]
    have zero : Nat.repr 0 = "0" := by decide
    simp [keysDeleted, cursorsSent, pagesIn, zero]
  ends := by
    rw [List.append_nil]
    exact EndsIn.after (scan_succeeds read) ends

/-- A page was read, then keys were deleted, and then the rest was said. -/
theorem SweepsFrom.page (read : reply.readAs WireReply.asPage? = .ok (next, keys))
    (settles : Settles next (pending ++ keys) deletions (.ok still)) (more : next ≠ 0)
    (sweeps : SweepsFrom pattern next still rest result) :
    SweepsFrom pattern cursor pending (.scan pattern cursor reply :: (deletions ++ rest)) result where
  fits := by
    refine List.forall_mem_cons.mpr ⟨rfl, List.forall_mem_append.mpr ⟨?_, sweeps.fits⟩⟩
    exact fun saying mem => (settles.deletions saying mem).fits pattern
  paces _ before := .of_page read settles sweeps.paces before
  goes_on := by
    rw [cursorsSent_page settles.deletions, List.tail_cons]
    intro later mem
    cases hsent : cursorsSent rest with
    | nil =>
      rw [hsent] at mem
      exact absurd mem List.not_mem_nil
    | cons first others =>
      have asks := (sweeps.paces rest List.prefix_rfl).asks
      have goes_on := sweeps.goes_on
      rw [hsent] at mem asks goes_on
      rcases List.mem_cons.mp mem with rfl | mem
      · rw [(List.cons_prefix_cons.mp asks).1]
        exact digits_ne_zero more
      · exact goes_on later mem
  all value done := by
    obtain ⟨deleted, asked⟩ := sweeps.all value done
    constructor
    · rw [keysDeleted_page, keysReported, pagesIn_page read settles.deletions, List.flatMap_cons,
        ← List.append_assoc, ← (settles.kept still rfl).1, List.append_assoc, deleted]
      rfl
    · rw [cursorsSent_page settles.deletions, cursorsReturned, pagesIn_page read settles.deletions]
      exact congrArg (toString cursor.toNat :: ·) asked
  ends := EndsIn.after (scan_succeeds read) (EndsIn.after settles.ends sweeps.ends)

end

section

variable {pattern : String} {cursor next : UInt64} {pending keys : List String} {fault : Fault} {line line' : Line}

/-- The walk ends at a page that cannot be read. -/
theorem sweepPagesFor_unread (fuel count : Nat)
    (read : (line.send (scanCommand pattern cursor)).2.readAs WireReply.asPage? = .error fault) :
    sweepPagesFor pattern (fuel + 1) cursor pending count line =
      (.error fault, (line.send (scanCommand pattern cursor)).1) := by
  have asked := Talk.ask_eq (scanCommand pattern cursor) WireReply.asPage? line
  rw [read] at asked
  rw [sweepPagesFor_succ]
  exact Talk.bind_of_error asked

/-- The walk ends where the keys that are due cannot be deleted. -/
theorem sweepPagesFor_broken (fuel count : Nat)
    (read : (line.send (scanCommand pattern cursor)).2.readAs WireReply.asPage? = .ok (next, keys))
    (settling : deleteDue next (pending ++ keys) (line.send (scanCommand pattern cursor)).1 = (.error fault, line')) :
    sweepPagesFor pattern (fuel + 1) cursor pending count line = (.error fault, line') := by
  have asked := Talk.ask_eq (scanCommand pattern cursor) WireReply.asPage? line
  rw [read] at asked
  rw [sweepPagesFor_succ, Talk.bind_of_ok asked]
  exact Talk.bind_of_error settling

/-- One turn of the walk: a page is read, what is due is deleted, and the walk ends or goes on. -/
theorem sweepPagesFor_turn {still : List String} (line : Line) (fuel count : Nat)
    (read : (line.send (scanCommand pattern cursor)).2.readAs WireReply.asPage? = .ok (next, keys))
    (settling : deleteDue next (pending ++ keys) (line.send (scanCommand pattern cursor)).1 = (.ok still, line')) :
    sweepPagesFor pattern (fuel + 1) cursor pending count line =
      if next = 0 then (.ok (count + ((pending ++ keys).length - still.length)), line')
      else sweepPagesFor pattern fuel next still (count + ((pending ++ keys).length - still.length)) line' := by
  have asked := Talk.ask_eq (scanCommand pattern cursor) WireReply.asPage? line
  rw [read] at asked
  rw [sweepPagesFor_succ, Talk.bind_of_ok asked]
  refine (Talk.bind_of_ok settling).trans ?_
  split
  · rfl
  · rfl

end

/-- The walk over the pages, which goes on as long as there are replies. The induction is on the fuel, and every page
takes a reply off the line. -/
theorem sweepPagesFor_sweeps {pattern : String} {fuel : Nat} {cursor : UInt64} {pending : List String} {count : Nat}
    {line line' : Line} {result : Except Fault Nat} (enough : line.replies.length < fuel)
    (run : sweepPagesFor pattern fuel cursor pending count line = (result, line')) :
    ∃ said : List Saying, line.Says (said.map Saying.exchange) line' ∧
      SweepsFrom pattern cursor pending said result ∧
      ∀ total, result = .ok total → total = count + (keysDeleted said).length := by
  induction fuel generalizing cursor pending count line with
  | zero => exact absurd enough (Nat.not_lt_zero _)
  | succ fuel ih =>
    cases read : (line.send (scanCommand pattern cursor)).2.readAs WireReply.asPage? with
    | error fault =>
      rw [sweepPagesFor_unread fuel count read] at run
      obtain ⟨rfl, rfl⟩ := Prod.mk.inj run
      exact ⟨[.scan pattern cursor _], .next (.nothing _), .unread read, nofun⟩
    | ok page =>
      obtain ⟨next, keys⟩ := page
      cases settling : deleteDue next (pending ++ keys) (line.send (scanCommand pattern cursor)).1 with
      | mk settled line'' =>
        obtain ⟨deletions, deleting, settles⟩ := deleteDue_settles settling
        cases settled with
        | error fault =>
          rw [sweepPagesFor_broken fuel count read settling] at run
          obtain ⟨rfl, rfl⟩ := Prod.mk.inj run
          exact ⟨_, told_page deleting (.nothing _), .stops read settles settles.ends nofun, nofun⟩
        | ok still =>
          rw [sweepPagesFor_turn line fuel count read settling, settles.counted] at run
          by_cases last : next = 0
          · rw [if_pos last] at run
            obtain ⟨rfl, rfl⟩ := Prod.mk.inj run
            obtain ⟨kept, emptied⟩ := settles.kept still rfl
            rw [emptied last, List.append_nil] at kept
            refine ⟨_, told_page deleting (.nothing _),
              .stops read settles settles.ends fun _ _ => ⟨last, kept⟩, ?_⟩
            rintro total ⟨⟩
            rw [keysDeleted_page]
            simp [keysDeleted]
          · rw [if_neg last] at run
            have shorter : line''.replies.length < fuel := by
              have := Line.length_send_lt read
              have := deleting.length_le
              omega
            obtain ⟨rest, told, sweeps, total⟩ := ih shorter run
            refine ⟨_, told_page deleting told, .page read settles last sweeps, fun value done => ?_⟩
            rw [total value done, keysDeleted_page, List.length_append, Nat.add_assoc]

/-! ## Every sequence of pages can be swept -/

/-- A page as a server replies with it, with the cursor in digits. -/
def pageReply (page : UInt64 × List String) : WireReply :=
  .array [.bulk (toString page.1.toNat), .array (page.2.map WireReply.bulk)]

theorem asCursor_digits (cursor : UInt64) : (WireReply.bulk (toString cursor.toNat)).asCursor? = some cursor :=
  SearchEntry.count?_toString cursor

theorem firstErrorOf_bulks (keys : List String) : WireReply.firstErrorOf? (keys.map WireReply.bulk) = none := by
  induction keys with
  | nil => rfl
  | cons key keys ih =>
    rw [List.map_cons, WireReply.firstErrorOf?, WireReply.firstError?]
    · exact ih
    all_goals nofun

theorem asText_bulks (keys : List String) : keys.mapM (WireReply.asText? ∘ WireReply.bulk) = some keys := by
  induction keys with
  | nil => rfl
  | cons key keys ih =>
    rw [List.mapM_cons, ih]
    rfl

theorem readAs_pageReply (page : UInt64 × List String) : (pageReply page).readAs WireReply.asPage? = .ok page := by
  obtain ⟨cursor, keys⟩ := page
  have fine : (pageReply (cursor, keys)).firstError? = none := by
    simp [pageReply, WireReply.firstError?, WireReply.firstErrorOf?, firstErrorOf_bulks]
  have page : (pageReply (cursor, keys)).asPage? = some (cursor, keys) := by
    simp [pageReply, WireReply.asPage?, asCursor_digits, WireReply.asList?, asText_bulks,
      -Nat.toString_eq_repr]
  rw [WireReply.readAs, fine, page]

theorem forM_answered (portions : List (List String)) (sent : List Command) :
    ∃ sent', ∀ more, portions.forM (fun portion => Talk.ask ("DEL" :: portion) WireReply.asAnything?)
      ⟨List.replicate portions.length (.int 0) ++ more, sent⟩ = (.ok (), ⟨more, sent'⟩) := by
  induction portions generalizing sent with
  | nil => exact ⟨sent, fun _ => rfl⟩
  | cons portion portions ih =>
    obtain ⟨sent', run⟩ := ih (("DEL" :: portion) :: sent)
    refine ⟨sent', fun more => ?_⟩
    rw [List.forM]
    exact (Talk.bind_of_ok (Talk.ask_eq _ _ _)).trans (run more)

theorem deleteDue_answered (next : UInt64) (pending : List String) (sent : List Command) :
    ∃ count still sent', ∀ more, deleteDue next pending ⟨List.replicate count (.int 0) ++ more, sent⟩ =
      (.ok still, ⟨more, sent'⟩) := by
  unfold deleteDue
  split
  · obtain ⟨sent', run⟩ := forM_answered (portions pending) sent
    exact ⟨_, [], sent', fun more => Talk.bind_of_ok (run more)⟩
  · exact ⟨0, pending, sent, fun more => rfl⟩

/-- The sequence of pages that a sweep reads to its end. -/
def EndsAtZero (pages : List (UInt64 × List String)) : Prop :=
  ∃ earlier keys, pages = earlier ++ [(0, keys)] ∧ ∀ page ∈ earlier, page.1 ≠ 0

/-- Some replies make a sweep read these pages and come to its end. The induction is on the pages: each is replied
with, and then what is due is deleted, before the replies that the rest of the pages need. -/
theorem sweepPagesFor_of_pages (pattern : String) {earlier : List (UInt64 × List String)} (keys : List String)
    (going : ∀ page ∈ earlier, page.1 ≠ 0) (cursor : UInt64) (pending : List String) (count : Nat)
    (sent : List Command) :
    ∃ replies line' total said,
      (∀ fuel, replies.length < fuel →
        sweepPagesFor pattern fuel cursor pending count ⟨replies, sent⟩ = (.ok total, line')) ∧
      Line.Says ⟨replies, sent⟩ (said.map Saying.exchange) line' ∧
      SweepsFrom pattern cursor pending said (.ok total : Except Fault Nat) ∧
      pagesIn said = earlier ++ [(0, keys)] := by
  induction earlier generalizing cursor pending count sent with
  | nil =>
    have read := readAs_pageReply (0, keys)
    obtain ⟨answers, still, sent', settling⟩ :=
      deleteDue_answered 0 (pending ++ keys) (scanCommand pattern cursor :: sent)
    obtain ⟨deletions, deleting, settles⟩ := deleteDue_settles (settling [])
    obtain ⟨kept, emptied⟩ := settles.kept still rfl
    rw [emptied rfl, List.append_nil] at kept
    refine ⟨pageReply (0, keys) :: (List.replicate answers (WireReply.int 0) ++ []), ⟨[], sent'⟩,
      count + ((pending ++ keys).length - still.length),
      .scan pattern cursor (pageReply (0, keys)) :: (deletions ++ []), fun fuel enough => ?_,
      told_page deleting (.nothing _), .stops read settles settles.ends fun _ _ => ⟨rfl, kept⟩,
      pagesIn_page read settles.deletions⟩
    obtain ⟨fuel, rfl⟩ := Nat.exists_eq_succ_of_ne_zero (Nat.ne_zero_of_lt enough)
    exact sweepPagesFor_turn ⟨pageReply (0, keys) :: (List.replicate answers (WireReply.int 0) ++ []), sent⟩
      fuel count read (settling [])
  | cons page earlier ih =>
    obtain ⟨next, reported⟩ := page
    obtain ⟨more, going⟩ := List.forall_mem_cons.mp going
    have read := readAs_pageReply (next, reported)
    obtain ⟨answers, still, sent', settling⟩ :=
      deleteDue_answered next (pending ++ reported) (scanCommand pattern cursor :: sent)
    obtain ⟨replies, line', total, rest, run, told, sweeps, pages⟩ :=
      ih going next still (count + ((pending ++ reported).length - still.length)) sent'
    obtain ⟨deletions, deleting, settles⟩ := deleteDue_settles (settling replies)
    refine ⟨pageReply (next, reported) :: (List.replicate answers (WireReply.int 0) ++ replies), line', total,
      .scan pattern cursor (pageReply (next, reported)) :: (deletions ++ rest), fun fuel enough => ?_,
      told_page deleting told, .page read settles more sweeps, ?_⟩
    · obtain ⟨fuel, rfl⟩ := Nat.exists_eq_succ_of_ne_zero (Nat.ne_zero_of_lt enough)
      refine (sweepPagesFor_turn ⟨pageReply (next, reported) :: (List.replicate answers (WireReply.int 0) ++ replies),
        sent⟩ fuel count read (settling replies)).trans ?_
      rw [if_neg more]
      refine run fuel ?_
      rw [List.length_cons, List.length_append] at enough
      omega
    · rw [pagesIn_page read settles.deletions, pages]
      rfl

/-! ## Calls -/

theorem needConnection_eq {store : RemoteStore} (connected : store.connected = true) (line : Line) :
    store.needConnection line = (.ok (), line) := by
  rw [needConnection, if_pos connected]
  rfl

/-- What a sweep reports in debug mode: how many keys it deleted. -/
def sweepNotices (store : RemoteStore) (segments : String) : Except Fault Nat → List Notice
  | .ok total => if store.settings.any Settings.debug then [.remoteSweep segments total] else []
  | .error _ => []

theorem call_sweep {store : RemoteStore} (connected : store.connected = true) {segments : String} {line line' : Line}
    {result : Except Fault Nat}
    (run : sweepPagesFor (Glob.underPattern segments) (line.replies.length + 1) 0 [] 0 line = (result, line')) :
    store.call line (.sweep segments) =
      ⟨store.afterDraws 0, line', result.map fun _ => (), store.sweepNotices segments result⟩ := by
  have swept : sweepPages segments line = (result, line') := run
  have conversed : store.sweep segments line = _ := Talk.bind_of_ok (needConnection_eq connected line)
  cases result with
  | ok total =>
    rw [Talk.bind_of_ok swept] at conversed
    rw [call, converse, Talk.bind_of_ok conversed]
    · rfl
    · nofun
  | error fault =>
    rw [Talk.bind_of_error swept] at conversed
    rw [call, converse, Talk.bind_of_error conversed]
    · rfl
    · nofun

theorem call_deleteAll {store : RemoteStore} (connected : store.connected = true) {keys : List String}
    {line line' : Line} {result : Except Fault Unit} (run : deleteKeys keys line = (result, line')) :
    store.call line (.deleteAll keys) = ⟨store.afterDraws 0, line', result, []⟩ := by
  have conversed : store.converse (.deleteAll keys) line = _ := Talk.bind_of_ok (needConnection_eq connected line)
  cases result with
  | ok done =>
    rw [Talk.bind_of_ok run] at conversed
    rw [call, conversed]
    · rfl
    · nofun
  | error fault =>
    rw [Talk.bind_of_error run] at conversed
    rw [call, conversed]
    · rfl
    · nofun

/-- The failure of a sweep is that of the walk. -/
theorem SweepsFrom.map {α β : Type} {pattern : String} {cursor : UInt64} {pending : List String} {said : List Saying}
    {result : Except Fault α} (sweeps : SweepsFrom pattern cursor pending said result) (f : α → β) :
    SweepsFrom pattern cursor pending said (result.map f) where
  fits := sweeps.fits
  paces := sweeps.paces
  goes_on := sweeps.goes_on
  all _ done := by
    cases result with
    | ok value => exact sweeps.all value rfl
    | error => cases done
  ends := by
    cases result with
    | ok => exact sweeps.ends
    | error => exact sweeps.ends

/-- **A remote store deletes what the server told it about.** A sweep asks for the first page and then for each next
one, and deletes all keys reported, in order and in portions, until a command fails. Any sequence of pages up to one
with no page after it can be swept. A batch of deletions deletes its keys in the same way. -/
theorem remote_deletions_follow_reports {store : RemoteStore} (connected : store.connected = true) :
    (∀ (line : Line) (segments : String), ∃ said : List Saying,
      line.Says (said.map Saying.exchange) (store.call line (.sweep segments)).line ∧
      SweepsFrom (Glob.underPattern segments) 0 [] said (store.call line (.sweep segments)).reply ∧
      ((store.call line (.sweep segments)).reply = .ok () → store.settings.any Settings.debug →
        (store.call line (.sweep segments)).notices = [.remoteSweep segments (keysDeleted said).length])) ∧
    (∀ (segments : String) (pages : List (UInt64 × List String)), EndsAtZero pages →
      ∃ (line : Line) (said : List Saying),
        line.Says (said.map Saying.exchange) (store.call line (.sweep segments)).line ∧
        SweepsFrom (Glob.underPattern segments) 0 [] said (store.call line (.sweep segments)).reply ∧
        pagesIn said = pages ∧ (store.call line (.sweep segments)).reply = .ok ()) ∧
    ∀ (line : Line) (keys : List String), ∃ said : List Saying,
      line.Says (said.map Saying.exchange) (store.call line (.deleteAll keys)).line ∧
      Deletes keys said (store.call line (.deleteAll keys)).reply ∧ (keys = [] → said = []) := by
  refine ⟨fun line segments => ?_, fun segments pages ends => ?_, fun line keys => ?_⟩
  · cases run : sweepPagesFor (Glob.underPattern segments) (line.replies.length + 1) 0 [] 0 line with
    | mk result line' =>
      obtain ⟨said, told, sweeps, counted⟩ := sweepPagesFor_sweeps (Nat.lt_succ_self line.replies.length) run
      rw [call_sweep connected run]
      refine ⟨said, told, sweeps.map fun _ => (), fun done debug => ?_⟩
      cases result with
      | ok total =>
        rw [sweepNotices, if_pos debug, counted total rfl, Nat.zero_add]
      | error => cases done
  · obtain ⟨earlier, keys, rfl, going⟩ := ends
    obtain ⟨replies, line', total, said, run, told, sweeps, pages⟩ :=
      sweepPagesFor_of_pages (Glob.underPattern segments) keys going 0 [] 0 []
    refine ⟨⟨replies, []⟩, said, ?_⟩
    rw [call_sweep connected (run _ (Nat.lt_succ_self replies.length))]
    exact ⟨told, sweeps.map fun _ => (), pages, rfl⟩
  · obtain ⟨said, told, deletes⟩ := @deleteKeys_deletes keys line _ _ rfl
    rw [call_deleteAll connected rfl]
    exact ⟨said, told, deletes, fun empty => (empty ▸ deletes).eq_nil⟩

theorem two_pages_end_at_zero : EndsAtZero [(7, ["a:p:users:1", "a:p:users:2"]), (0, ["a:p:users:3"])] :=
  ⟨[(7, ["a:p:users:1", "a:p:users:2"])], ["a:p:users:3"], rfl, by decide⟩

/-- Two pages of a table are swept over a connection. -/
theorem two_pages_can_be_swept :
    let store : RemoteStore := { connected := true }
    let pages : List (UInt64 × List String) := [(7, ["a:p:users:1", "a:p:users:2"]), (0, ["a:p:users:3"])]
    store.connected = true ∧ EndsAtZero pages ∧ ∃ (line : Line) (said : List Saying),
      line.Says (said.map Saying.exchange) (store.call line (.sweep "a:p:users")).line ∧
      SweepsFrom (Glob.underPattern "a:p:users") 0 [] said (store.call line (.sweep "a:p:users")).reply ∧
      pagesIn said = pages ∧ (store.call line (.sweep "a:p:users")).reply = .ok () :=
  ⟨rfl, two_pages_end_at_zero, (remote_deletions_follow_reports rfl).2.1 "a:p:users" _ two_pages_end_at_zero⟩

end ReadThrough.RemoteStore
