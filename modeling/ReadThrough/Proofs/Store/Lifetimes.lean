import Mathlib
import ReadThrough.Cache
import ReadThrough.Proofs.Store.Batches
import ReadThrough.Proofs.Remote.Conversations

/-! # Times to live that are too long

A configuration may ask for any duration as the time to live. Each put stretches it by a factor between 9/10 and
11/10, and breaks down where the product is no duration, or ends beyond the clock of the recency store.

* `Duration.Reaches` compares the exact product, rounded to a nanosecond, with a length of time, and
  `Duration.forall_not_reaches_iff` says when no factor makes it so long;
* `Jitter.draws` are the factors that a put draws, and `Jitter.Decides` that they alone decide about its reply;
* `lifetimes_decide_puts` is the theorem for all settings and stores, and `accepted_lifetime_breaks_puts` a
  time to live that is accepted and breaks puts down.
-/

namespace ReadThrough
set_option autoImplicit false

/-! ## Exact products -/

namespace Factor

def ratio (factor : Factor) : ℚ := factor.num / factor.den

theorem cast_den_pos (factor : Factor) : (0 : ℚ) < factor.den := by exact_mod_cast factor.den_pos

theorem ratio_le (factor : Factor) : factor.ratio ≤ 11 / 10 := by
  have high : (10 : ℚ) * factor.num ≤ 11 * factor.den := by exact_mod_cast factor.high
  rw [ratio, div_le_iff₀ factor.cast_den_pos]
  linarith

theorem le_ratio (factor : Factor) : 9 / 10 ≤ factor.ratio := by
  have low : (9 : ℚ) * factor.den ≤ 10 * factor.num := by exact_mod_cast factor.low
  rw [ratio, le_div_iff₀ factor.cast_den_pos]
  linarith

theorem ratio_greatest : greatest.ratio = 11 / 10 := by norm_num [ratio, greatest]

end Factor

namespace Duration

/-- All durations are shorter than this, in nanoseconds. -/
def limit : Nat := UInt64.size * nanosPerSecond

/-- Multiplied by the factor and rounded to the nearest nanosecond, the duration is this long or longer. -/
def Reaches (base : Duration) (factor : Factor) (nanos : Nat) : Prop :=
  (nanos : ℚ) ≤ base.nanos * factor.ratio + 1 / 2

/-- The duration is the product of the other with the factor, up to half a nanosecond. -/
def IsProduct (scaled base : Duration) (factor : Factor) : Prop :=
  |(scaled.nanos : ℚ) - base.nanos * factor.ratio| ≤ 1 / 2

variable {base scaled : Duration} {factor : Factor} {nanos : Nat}

theorem reaches_iff :
    base.Reaches factor nanos ↔ nanos ≤ (2 * base.nanos * factor.num + factor.den) / (2 * factor.den) := by
  have hden := factor.cast_den_pos
  have hsum : (base.nanos : ℚ) * factor.ratio + 1 / 2 =
      (2 * base.nanos * factor.num + factor.den) / (2 * factor.den) := by
    rw [Factor.ratio]
    field_simp
  rw [Reaches, hsum, le_div_iff₀ (by linarith), Nat.le_div_iff_mul_le (Nat.mul_pos Nat.two_pos factor.den_pos)]
  exact_mod_cast Iff.rfl

theorem scale?_eq_none_iff : base.scale? factor = none ↔ base.Reaches factor limit := by
  rw [reaches_iff, ← Nat.not_lt, scale?, ofNanos?]
  split
  · rename_i hlt
    exact iff_of_false (Option.some_ne_none _) fun hge => hge hlt
  · rename_i hge
    exact iff_of_true rfl hge

theorem reaches_iff_of_scale? (h : base.scale? factor = some scaled) :
    base.Reaches factor nanos ↔ nanos ≤ scaled.nanos := by
  rw [scale?, ofNanos?] at h
  split at h
  · rw [reaches_iff, ← Option.some.inj h]
  · cases h

theorem isProduct_of_scale? (h : base.scale? factor = some scaled) : scaled.IsProduct base factor := by
  have hlow : base.Reaches factor scaled.nanos := (reaches_iff_of_scale? h).mpr (Nat.le_refl _)
  have hhigh : ¬ base.Reaches factor (scaled.nanos + 1) := by
    rw [reaches_iff_of_scale? h]
    exact Nat.not_succ_le_self _
  rw [Reaches] at hlow hhigh
  push_cast at hhigh
  rw [IsProduct, abs_le]
  constructor <;> linarith

theorem scale?_cases (base : Duration) (factor : Factor) :
    base.Reaches factor limit ∧ base.scale? factor = none ∨
    ¬ base.Reaches factor limit ∧ ∃ scaled, base.scale? factor = some scaled := by
  rw [← scale?_eq_none_iff]
  cases base.scale? factor with
  | none => exact .inl ⟨rfl, rfl⟩
  | some scaled => exact .inr ⟨Option.some_ne_none scaled, scaled, rfl⟩

theorem Reaches.shorter {less : Nat} (h : base.Reaches factor nanos) (le : less ≤ nanos) : base.Reaches factor less :=
  reaches_iff.mpr (Nat.le_trans le (reaches_iff.mp h))

/-- The greatest factor is the one to look at. -/
theorem forall_not_reaches_iff : (∀ factor, ¬ base.Reaches factor nanos) ↔ 11 * base.nanos + 5 < 10 * nanos := by
  have hcast : ((11 * base.nanos + 5 : Nat) : ℚ) < (10 * nanos : Nat) ↔ 11 * base.nanos + 5 < 10 * nanos :=
    Nat.cast_lt
  push_cast at hcast
  rw [← hcast]
  constructor
  · intro short
    have h := short .greatest
    rw [Reaches, Factor.ratio_greatest] at h
    linarith
  · intro lt factor reaches
    have hgrown : (base.nanos : ℚ) * factor.ratio ≤ base.nanos * (11 / 10) :=
      mul_le_mul_of_nonneg_left factor.ratio_le (Nat.cast_nonneg _)
    rw [Reaches] at reaches
    linarith

end Duration

/-! ## The times to live of single entries -/

namespace Settings

theorem scales_iff (settings : Settings) :
    settings.Scales ↔ ∀ factor, ¬ settings.ttl.Reaches factor Duration.limit :=
  Duration.forall_not_reaches_iff.symm

theorem fits_iff (settings : Settings) (now : Nat) :
    settings.Fits now ↔ ∀ factor, ¬ settings.ttl.Reaches factor (clockLimit - now) := by
  rw [Duration.forall_not_reaches_iff, Fits]
  omega

theorem not_reaches_of_isZero {settings : Settings} (zero : settings.ttl.isZero = true) (factor : Factor) :
    ¬ settings.ttl.Reaches factor Duration.limit := by
  refine settings.scales_iff.mp ?_ factor
  have hzero : settings.ttl.nanos = 0 := by simpa [Duration.isZero] using zero
  rw [Scales, hzero]
  decide

theorem lifetime_of_isZero {settings : Settings} (zero : settings.ttl.isZero = true) (factor : Factor) :
    settings.lifetime factor = .ok none := by
  rw [lifetime, if_pos zero]

theorem lifetime_of_scale? {settings : Settings} {factor : Factor} {scaled : Duration}
    (positive : settings.ttl.isZero = false) (h : settings.ttl.scale? factor = some scaled) :
    settings.lifetime factor = .ok (some scaled) := by
  rw [lifetime, if_neg (Bool.eq_false_iff.mp positive), scaledTtl, h]
  rfl

theorem lifetime_of_reaches {settings : Settings} {factor : Factor}
    (reaches : settings.ttl.Reaches factor Duration.limit) : settings.lifetime factor = .error .brokeDown := by
  have positive : ¬ settings.ttl.isZero = true := fun zero => not_reaches_of_isZero zero factor reaches
  rw [lifetime, if_neg positive, scaledTtl, Duration.scale?_eq_none_iff.mpr reaches]
  rfl

theorem exists_lifetime_iff (settings : Settings) (factor : Factor) :
    (∃ ttl, settings.lifetime factor = .ok ttl) ↔ ¬ settings.ttl.Reaches factor Duration.limit := by
  rcases settings.ttl.scale?_cases factor with ⟨reaches, -⟩ | ⟨short, scaled, hscaled⟩
  · rw [lifetime_of_reaches reaches]
    exact iff_of_false (fun h => by cases h.choose_spec) (not_not_intro reaches)
  · refine iff_of_true ?_ short
    cases hzero : settings.ttl.isZero with
    | true => exact ⟨_, lifetime_of_isZero hzero factor⟩
    | false => exact ⟨_, lifetime_of_scale? hzero hscaled⟩

/-- Where every entry expires, the time to live is a duration under the same condition: a day always is. -/
theorem boundedLifetime_cases (settings : Settings) (factor : Factor) :
    settings.ttl.Reaches factor Duration.limit ∧ settings.boundedLifetime factor = .error .brokeDown ∨
    ¬ settings.ttl.Reaches factor Duration.limit ∧ ∃ ttl, settings.boundedLifetime factor = .ok ttl := by
  have hsame : settings.boundedBase.Reaches factor Duration.limit ↔ settings.ttl.Reaches factor Duration.limit := by
    unfold boundedBase
    split
    · rename_i zero
      refine iff_of_false ?_ (not_reaches_of_isZero zero factor)
      exact Duration.forall_not_reaches_iff.mpr (by decide) factor
    · exact Iff.rfl
  rw [← hsame, boundedLifetime, scaledTtl]
  rcases settings.boundedBase.scale?_cases factor with ⟨reaches, hnone⟩ | ⟨short, scaled, hscaled⟩
  · exact .inl ⟨reaches, by rw [hnone]⟩
  · exact .inr ⟨short, scaled, by rw [hscaled]⟩

theorem exists_boundedLifetime_iff (settings : Settings) (factor : Factor) :
    (∃ ttl, settings.boundedLifetime factor = .ok ttl) ↔ ¬ settings.ttl.Reaches factor Duration.limit := by
  rcases settings.boundedLifetime_cases factor with ⟨reaches, broken⟩ | ⟨short, unbroken⟩
  · rw [broken]
    exact iff_of_false (fun h => by cases h.choose_spec) (not_not_intro reaches)
  · exact iff_of_true unbroken short

/-- The time to live of an entry, stretched by the factor, ends at a time that the clock cannot show. -/
def Outlives (settings : Settings) (now : Nat) (factor : Factor) : Prop :=
  settings.ttl.isZero = false ∧ settings.ttl.Reaches factor (clockLimit - now)

end Settings

/-! ## The factors that a put draws -/

namespace Jitter

/-- The next factors, so many of them. -/
def draws (jitter : Jitter) : Nat → List Factor
  | 0 => []
  | count + 1 => jitter.next :: jitter.advance.draws count

/-- Whether a put breaks down is up to the factors that it draws: it does if one of them is bad, and else it
succeeds. -/
def Decides (jitter : Jitter) (bad : Factor → Prop) (count : Nat) (reply : Reply .done) : Prop :=
  (∃ factor ∈ jitter.draws count, bad factor) ∧ reply = .error .brokeDown ∨
    (∀ factor ∈ jitter.draws count, ¬ bad factor) ∧ reply = .ok ()

variable {jitter : Jitter} {bad : Factor → Prop} {count : Nat} {reply : Reply .done}

theorem decides_zero : jitter.Decides bad 0 (.ok ()) :=
  .inr ⟨List.forall_mem_nil _, rfl⟩

theorem decides_of_bad (h : bad jitter.next) : jitter.Decides bad (count + 1) (.error .brokeDown) :=
  .inl ⟨⟨_, List.mem_cons_self, h⟩, rfl⟩

theorem Decides.of_good (h : ¬ bad jitter.next) (later : jitter.advance.Decides bad count reply) :
    jitter.Decides bad (count + 1) reply := by
  rcases later with ⟨⟨factor, drawn, hbad⟩, hreply⟩ | ⟨good, hreply⟩
  · exact .inl ⟨⟨factor, List.mem_cons_of_mem _ drawn, hbad⟩, hreply⟩
  · exact .inr ⟨List.forall_mem_cons.mpr ⟨h, good⟩, hreply⟩

end Jitter

theorem Jitter.Decides.breaks_iff {jitter : Jitter} {bad : Factor → Prop} {count : Nat} {reply : Reply .done}
    (decides : jitter.Decides bad count reply) :
    reply = .error .brokeDown ↔ ∃ factor ∈ jitter.draws count, bad factor := by
  rcases decides with ⟨drawn, hreply⟩ | ⟨good, hreply⟩
  · exact iff_of_true hreply drawn
  · rw [hreply]
    refine iff_of_false (fun h => by cases h) ?_
    rintro ⟨factor, drawn, hbad⟩
    exact good factor drawn hbad

/-- The put is answered in the next step, and the factors drawn decide whether it breaks down. -/
def Medium.PutTurnsOn {σ : Type} [Medium σ] (now : Nat) (store : σ) (call : Call .done) (jitter : Jitter)
    (bad : Factor → Prop) : Prop :=
  ∃ next reply, Medium.step? now store (.asked call) = some (.answer next reply) ∧
    jitter.Decides bad call.entries.length reply

/-! ## Puts on the three kinds of store -/

theorem ExpiringStore.decides_putAll {store : ExpiringStore} {settings : Settings}
    (ready : store.settings = some settings) (now : Nat) (entries : List Entry) :
    store.jitter.Decides (settings.ttl.Reaches · Duration.limit) entries.length (store.putAll now entries).2 := by
  induction entries generalizing store with
  | nil => exact Jitter.decides_zero
  | cons entry rest ih =>
    rw [putAll]
    rcases settings.boundedLifetime_cases store.jitter.next with ⟨reaches, broken⟩ | ⟨short, ttl, unbroken⟩
    · rw [put_of_broken ready broken]
      exact Jitter.decides_of_bad reaches
    · rw [put_of_unbroken ready unbroken]
      exact .of_good short (@ih { store with
        jitter := store.jitter.advance
        entries := store.entries.insert entry.key ⟨entry.value, now + ttl.nanos⟩ } ready)

theorem ExpiringStore.put_turnsOn {store : ExpiringStore} {settings : Settings}
    (ready : store.settings = some settings) (now : Nat) {call : Call .done} (puts : call.IsPut) :
    Medium.PutTurnsOn now store call store.jitter (settings.ttl.Reaches · Duration.limit) := by
  cases call with
  | put entry =>
    refine ⟨(store.put now entry).1, (store.put now entry).2, rfl, ?_⟩
    rw [← putAll_single]
    exact decides_putAll ready now [entry]
  | putAll entries => exact ⟨_, _, rfl, decides_putAll ready now entries⟩
  | _ => cases puts

namespace RecencyStore

variable {store : RecencyStore} {settings : Settings}

/-- A slot cannot be made if its deadline is beyond the clock. -/
theorem newSlot_cases (ready : store.settings = some settings) (now : Nat) (value : String) :
    settings.Outlives now store.jitter.next ∧
      store.newSlot now value = ({ store with jitter := store.jitter.advance }, .error .brokeDown) ∨
    ¬ settings.Outlives now store.jitter.next ∧
      ∃ slot, store.newSlot now value = ({ store with jitter := store.jitter.advance }, .ok slot) := by
  have hmade : ∀ {ttl ends}, settings.lifetime store.jitter.next = .ok ttl → deadline now ttl = .ok ends →
      store.newSlot now value = ({ store with jitter := store.jitter.advance }, .ok ⟨value, ends⟩) := by
    intro ttl ends hlifetime hends
    simp only [newSlot, ready, hlifetime, hends]
  cases hzero : settings.ttl.isZero with
  | true =>
    have hwithin : ¬ settings.Outlives now store.jitter.next := fun outlives => by
      have hnonzero := outlives.1
      rw [hzero] at hnonzero
      cases hnonzero
    exact .inr ⟨hwithin, _, hmade (Settings.lifetime_of_isZero hzero _) rfl⟩
  | false =>
    rcases settings.ttl.scale?_cases store.jitter.next with ⟨reaches, -⟩ | ⟨-, scaled, hscaled⟩
    · have hclock : clockLimit - now ≤ Duration.limit :=
        Nat.le_trans (Nat.sub_le _ _) (by decide)
      refine .inl ⟨⟨hzero, reaches.shorter hclock⟩, ?_⟩
      simp only [newSlot, ready, Settings.lifetime_of_reaches reaches]
    · have hlifetime := Settings.lifetime_of_scale? hzero hscaled
      have hends : settings.ttl.Reaches store.jitter.next (clockLimit - now) ↔ clockLimit ≤ now + scaled.nanos := by
        rw [Duration.reaches_iff_of_scale? hscaled]
        omega
      by_cases hwithin : now + scaled.nanos < clockLimit
      · have hdeadline : deadline now (some scaled) = .ok (some (now + scaled.nanos)) := if_pos hwithin
        refine .inr ⟨fun outlives => ?_, _, hmade hlifetime hdeadline⟩
        exact absurd (hends.mp outlives.2) (Nat.not_le.mpr hwithin)
      · have hdeadline : deadline now (some scaled) = .error .brokeDown := if_neg hwithin
        refine .inl ⟨⟨hzero, hends.mpr (Nat.not_lt.mp hwithin)⟩, ?_⟩
        simp only [newSlot, ready, hlifetime, hdeadline]

theorem decides_newSlots (ready : store.settings = some settings) (now : Nat) (entries : List Entry) :
    store.jitter.Decides (settings.Outlives now) entries.length ((store.newSlots now entries).2.map fun _ => ()) := by
  induction entries generalizing store with
  | nil => exact Jitter.decides_zero
  | cons entry rest ih =>
    rw [newSlots]
    rcases newSlot_cases ready now entry.value with ⟨outlives, unmade⟩ | ⟨within, slot, made⟩
    · rw [unmade]
      exact Jitter.decides_of_bad outlives
    · rw [made]
      have hrest := @ih { store with jitter := store.jitter.advance } ready
      dsimp only
      generalize { store with jitter := store.jitter.advance }.newSlots now rest = last at hrest ⊢
      obtain ⟨next, fault | slots⟩ := last
      · exact .of_good within hrest
      · exact .of_good within hrest

theorem decides_putAll (ready : store.settings = some settings) (now : Nat) (entries : List Entry) :
    store.jitter.Decides (settings.Outlives now) entries.length (store.putAll now entries).2 := by
  have hslots := decides_newSlots ready now entries
  rw [putAll]
  generalize store.newSlots now entries = made at hslots ⊢
  obtain ⟨next, fault | slots⟩ := made
  · exact hslots
  · exact hslots

theorem put_turnsOn (ready : store.settings = some settings) (now : Nat) {call : Call .done} (puts : call.IsPut) :
    Medium.PutTurnsOn now store call store.jitter (settings.Outlives now) := by
  cases call with
  | put entry =>
    refine ⟨(store.put now entry).1, (store.put now entry).2, rfl, ?_⟩
    rw [← putAll_single]
    exact decides_putAll ready now [entry]
  | putAll entries => exact ⟨_, _, rfl, decides_putAll ready now entries⟩
  | _ => cases puts

end RecencyStore

/-! ## Puts on the remote store -/

namespace Talk

variable {α β : Type} {talk : Talk α} {more : α → Talk β}

/-- The conversation may fail, but nothing in it breaks down. -/
def Survives (talk : Talk α) : Prop := ∀ line, (talk line).1 ≠ .error .brokeDown

theorem survives_pure (value : α) : Survives (pure value) := by
  intro line h
  cases h

theorem survives_serverError (text : String) : Survives (serverError text : Talk α) := by
  intro line h
  cases h

theorem survives_exchange (command : Command) : Survives (exchange command) := by
  intro line h
  cases h

theorem Survives.bind (first : talk.Survives) (later : ∀ value, (more value).Survives) :
    (talk >>= more).Survives := by
  intro line
  cases htalk : talk line with
  | mk result line' =>
    cases result with
    | ok value =>
      rw [bind_of_ok htalk]
      exact later value line'
    | error fault =>
      rw [bind_of_error htalk]
      have hfault := first line
      rw [htalk] at hfault
      intro h
      cases h
      exact hfault rfl

theorem survives_ask (command : Command) (as? : WireReply → Option α) : Survives (ask command as?) := by
  intro line
  rw [ask_eq]
  unfold WireReply.readAs
  split
  · intro h
    cases h
  · split
    · intro h
      cases h
    · intro h
      cases h

theorem survives_pipeline (commands : List Command) : Survives (pipeline commands) := by
  have hexchanges : Survives (commands.mapM exchange) := by
    induction commands with
    | nil => exact survives_pure []
    | cons command rest ih =>
      rw [List.mapM_cons]
      exact (survives_exchange command).bind fun reply => ih.bind fun replies => survives_pure _
  refine hexchanges.bind fun replies => ?_
  cases WireReply.firstErrorOf? replies with
  | some text => exact survives_serverError text
  | none => exact survives_pure ()

end Talk

namespace RemoteStore

variable {store : RemoteStore} {settings : Settings}

theorem putCommand_cases (ready : store.settings = some settings) (entry : Entry) :
    settings.ttl.Reaches store.jitter.next Duration.limit ∧ store.putCommand entry = .error .brokeDown ∨
    ¬ settings.ttl.Reaches store.jitter.next Duration.limit ∧ ∃ command, store.putCommand entry = .ok command := by
  by_cases reaches : settings.ttl.Reaches store.jitter.next Duration.limit
  · exact .inl ⟨reaches, by simp only [putCommand, ready, Settings.lifetime_of_reaches reaches]⟩
  · obtain ⟨ttl, httl⟩ := (settings.exists_lifetime_iff store.jitter.next).mpr reaches
    simp only [putCommand, ready, httl]
    cases ttl with
    | none => exact .inr ⟨reaches, _, rfl⟩
    | some ttl => exact .inr ⟨reaches, _, rfl⟩

theorem decides_putCommand (ready : store.settings = some settings) (entry : Entry) :
    store.jitter.Decides (settings.ttl.Reaches · Duration.limit) 1 ((store.putCommand entry).map fun _ => ()) := by
  rcases putCommand_cases ready entry with ⟨reaches, broken⟩ | ⟨short, command, written⟩
  · rw [broken]
    exact Jitter.decides_of_bad reaches
  · rw [written]
    exact .of_good short Jitter.decides_zero

theorem decides_putCommands (ready : store.settings = some settings) (entries : List Entry) :
    store.jitter.Decides (settings.ttl.Reaches · Duration.limit) entries.length
      ((store.putCommands entries).map fun _ => ()) := by
  induction entries generalizing store with
  | nil => exact Jitter.decides_zero
  | cons entry rest ih =>
    rw [putCommands]
    rcases putCommand_cases ready entry with ⟨reaches, broken⟩ | ⟨short, command, written⟩
    · rw [broken]
      exact Jitter.decides_of_bad reaches
    · rw [written]
      have hrest := @ih { store with jitter := store.jitter.advance } ready
      dsimp only
      generalize { store with jitter := store.jitter.advance }.putCommands rest = later at hrest ⊢
      cases later with
      | error fault => exact .of_good short hrest
      | ok commands => exact .of_good short hrest

/-- Commands that are written once there is a connection, and then sent. -/
theorem sent_breaks_iff {α β : Type} (written : Except Fault α) {send : α → Talk β}
    (survives : ∀ commands, (send commands).Survives) (line : Line) :
    ((store.needConnection >>= fun _ => Talk.ofExcept written >>= send) line).1 = .error .brokeDown ↔
      store.connected = true ∧ written = .error .brokeDown := by
  cases hconnected : store.connected with
  | false =>
    have hneed : store.needConnection line = (.error notReady, line) := by
      rw [needConnection, hconnected]
      rfl
    rw [Talk.bind_of_error hneed]
    exact iff_of_false (fun h => by cases h) fun h => by cases h.1
  | true =>
    have hneed : store.needConnection line = (.ok (), line) := by
      rw [needConnection, hconnected]
      rfl
    rw [Talk.bind_of_ok hneed]
    cases written with
    | error fault =>
      have hwritten : (Talk.ofExcept (.error fault) : Talk α) line = (.error fault, line) := rfl
      rw [Talk.bind_of_error hwritten]
      simp
    | ok commands =>
      have hwritten : Talk.ofExcept (.ok commands) line = (.ok commands, line) := rfl
      rw [Talk.bind_of_ok hwritten]
      exact iff_of_false (survives commands line) fun h => by cases h.2

/-- The reply to a put is what its conversation came to. -/
theorem reply_of_put (store : RemoteStore) (line : Line) {call : Call .done} (puts : call.IsPut) :
    (store.call line call).reply = (store.converse call line).1.map fun _ => () := by
  cases hsaid : store.converse call line with
  | mk result line' =>
    cases call with
    | put | putAll => cases result <;> simp [RemoteStore.call, hsaid, Except.map]
    | _ => cases puts

theorem map_breaks_iff {α : Type} {result : Except Fault α} :
    (result.map fun _ => ()) = .error .brokeDown ↔ result = .error .brokeDown := by
  cases result with
  | ok value => exact iff_of_false (fun h => by cases h) fun h => by cases h
  | error fault => simp [Except.map]

/-- A put breaks down before anything is sent, and only over the factors drawn. -/
theorem put_breaks_iff (ready : store.settings = some settings) (line : Line) {call : Call .done} (puts : call.IsPut) :
    (store.call line call).reply = .error .brokeDown ↔
      store.connected = true ∧
        ∃ factor ∈ store.jitter.draws call.entries.length, settings.ttl.Reaches factor Duration.limit := by
  rw [reply_of_put store line puts, map_breaks_iff]
  cases call with
  | put entry =>
    have hwritten := (decides_putCommand ready entry).breaks_iff
    rw [map_breaks_iff] at hwritten
    refine Iff.trans ?_ (and_congr_right fun _ => hwritten)
    exact sent_breaks_iff _ (fun command => (Talk.survives_ask command _).bind fun _ => Talk.survives_pure _) line
  | putAll entries =>
    have hwritten := (decides_putCommands ready entries).breaks_iff
    rw [map_breaks_iff] at hwritten
    refine Iff.trans ?_ (and_congr_right fun _ => hwritten)
    cases entries with
    | nil => exact iff_of_false (fun h => by cases h) fun h => by cases h.2
    | cons entry rest =>
      exact sent_breaks_iff _
        (fun commands => (Talk.survives_pipeline commands).bind fun _ => Talk.survives_pure _) line
  | _ => cases puts

end RemoteStore

/-! ## Settings and puts -/

/-- What the time to live of settings does to the puts of the stores that were set up with them. -/
structure Settings.DecidePuts (settings : Settings) : Prop where
  product (factor : Factor) (scaled : Duration) :
    settings.ttl.scale? factor = some scaled → scaled.IsProduct settings.ttl factor
  overflow (factor : Factor) : settings.ttl.scale? factor = none ↔ settings.ttl.Reaches factor Duration.limit
  lifetime (factor : Factor) :
    (∃ ttl, settings.lifetime factor = .ok ttl) ↔ ¬ settings.ttl.Reaches factor Duration.limit
  boundedLifetime (factor : Factor) :
    (∃ ttl, settings.boundedLifetime factor = .ok ttl) ↔ ¬ settings.ttl.Reaches factor Duration.limit
  expiring (store : ExpiringStore) (now : Nat) (call : Call .done) :
    store.settings = some settings → call.IsPut →
      Medium.PutTurnsOn now store call store.jitter (settings.ttl.Reaches · Duration.limit)
  recency (store : RecencyStore) (now : Nat) (call : Call .done) :
    store.settings = some settings → call.IsPut →
      Medium.PutTurnsOn now store call store.jitter (settings.Outlives now)
  remote (store : RemoteStore) (line : Line) (call : Call .done) :
    store.settings = some settings → call.IsPut →
      ((store.call line call).reply = .error .brokeDown ↔ store.connected = true ∧
        ∃ factor ∈ store.jitter.draws call.entries.length, settings.ttl.Reaches factor Duration.limit)
  /-- No factor makes the time to live too long for a duration. -/
  scales : settings.Scales ↔ ∀ factor, ¬ settings.ttl.Reaches factor Duration.limit
  /-- No factor makes an entry outlive the clock. -/
  fits (now : Nat) :
    settings.ttl.isZero = true ∨ settings.Fits now ↔ ∀ factor, ¬ settings.Outlives now factor

theorem Settings.not_outlives_iff (settings : Settings) (now : Nat) :
    settings.ttl.isZero = true ∨ settings.Fits now ↔ ∀ factor, ¬ settings.Outlives now factor := by
  unfold Outlives
  rw [settings.fits_iff now]
  cases settings.ttl.isZero with
  | true => simp
  | false => simp

/-- **Only the time to live breaks puts down**, whatever the settings. Its product with a drawn factor is exact up to
half a nanosecond, and there is one unless it reaches the limit of durations. On a store that was set up, a put breaks
down if and only if one of the factors that it draws makes the time to live too long for a duration, or on the recency
store for the clock. No factor does so if and only if 11/10 of the time to live is short enough. -/
theorem lifetimes_decide_puts (settings : Settings) : settings.DecidePuts where
  product _ _ h := Duration.isProduct_of_scale? h
  overflow _ := Duration.scale?_eq_none_iff
  lifetime := settings.exists_lifetime_iff
  boundedLifetime := settings.exists_boundedLifetime_iff
  expiring _ now _ ready puts := ExpiringStore.put_turnsOn ready now puts
  recency _ now _ ready puts := RecencyStore.put_turnsOn ready now puts
  remote _ line _ ready puts := RemoteStore.put_breaks_iff ready line puts
  scales := settings.scales_iff
  fits := settings.not_outlives_iff

/-- The longest time to live there is. -/
def longestLived : Configuration where
  ttl := ⟨Duration.limit - 1, by decide⟩

/-- The configuration is accepted. On the expiring store its puts break down under the greatest factor, and on the
recency store under every factor. -/
theorem accepted_lifetime_breaks_puts :
    ∃ cache : Cache, Cache.create longestLived "a" = .ok cache ∧ cache.settings.ttl.scale? .greatest = none ∧
      (∃ store next : ExpiringStore, store.settings = some cache.settings ∧
        Medium.step? 0 store (.asked (.put ⟨"a:1", "x"⟩)) = some (.answer next (.error .brokeDown))) ∧
      ∀ jitter : Jitter, ∃ store next : RecencyStore, store.settings = some cache.settings ∧ store.jitter = jitter ∧
        Medium.step? 0 store (.asked (.put ⟨"a:1", "x"⟩)) = some (.answer next (.error .brokeDown)) := by
  have outlives : ∀ factor, Settings.Outlives ⟨longestLived.ttl, false, "a"⟩ 0 factor := by
    intro factor
    have hreaches : ((clockLimit - 0 : Nat) : ℚ) ≤ longestLived.ttl.nanos * (9 / 10) + 1 / 2 := by
      norm_num [clockLimit, longestLived, Duration.limit, Int64.size, UInt64.size, nanosPerSecond]
    refine ⟨rfl, le_trans hreaches ?_⟩
    gcongr
    exact factor.le_ratio
  have created : Cache.create longestLived "a" = .ok _ := rfl
  refine ⟨_, created, rfl,
    ⟨{ settings := some _, jitter := ⟨fun _ => .greatest, 0⟩ }, _, rfl, rfl⟩, fun jitter => ?_⟩
  let store : RecencyStore := ⟨2, Nat.two_pos, [], some ⟨longestLived.ttl, false, "a"⟩, jitter⟩
  have ready : store.settings = some ⟨longestLived.ttl, false, "a"⟩ := rfl
  have puts : (Call.put ⟨"a:1", "x"⟩).IsPut := trivial
  obtain ⟨next, reply, answered, decided⟩ := RecencyStore.put_turnsOn ready 0 puts
  obtain rfl := decided.breaks_iff.mpr ⟨_, List.mem_cons_self, outlives jitter.next⟩
  exact ⟨store, next, rfl, rfl, answered⟩

end ReadThrough
