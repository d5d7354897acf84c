import Mathlib.Data.List.Basic
import Mathlib.Data.List.Forall2
import Mathlib.Data.List.TakeWhile
import ReadThrough.Json.Parser
import ReadThrough.RowFormat

/-! # JSON values side by side

The reader of a value looks no further than the character after it, and that only to see whether a number goes on.
So what it took it takes again when something else follows, and values that can be read one by one can be read in
one array.

* `Framed` says this of a reader, and holds of the reader of values, `framed_readValue`;
* `IsValue` says that a text is one value: `isValue_of_parse?` takes an array of one value apart, and
  `items_of_values` puts values together, which is how `parse?_rowArray` reads a whole array.
-/

namespace ReadThrough.Json
set_option autoImplicit false

variable {α β : Type} {cs rest other : List Char}

/-! ## What follows a value -/

/-- No number goes on like this. -/
def Ends (cs : List Char) : Prop := ∀ c ∈ cs.head?, c.isDigit = false ∧ c ≠ '.' ∧ c ≠ 'e' ∧ c ≠ 'E'

/-- The one starts as the other does, or no number goes on like it. -/
def Fits (rest other : List Char) : Prop := other.head? = rest.head? ∨ Ends other

theorem Fits.append (fits : Fits rest other) (taken : List Char) : Fits (taken ++ rest) (taken ++ other) := by
  cases taken with
  | nil => exact fits
  | cons c taken => exact .inl rfl

theorem Fits.of_taken {taken : List Char} (ne : taken ≠ []) (rest other : List Char) :
    Fits (taken ++ rest) (taken ++ other) := by
  left
  rw [List.head?_append_of_ne_nil taken ne, List.head?_append_of_ne_nil taken ne]

theorem Fits.nil (rest : List Char) : Fits rest [] := .inr fun _ h => by simp at h

/-- What such a reader took it takes again, if what follows then fits. -/
def Framed (reader : Reader α) : Prop :=
  ∀ ⦃cs rest : List Char⦄ ⦃a : α⦄, reader cs = some (a, rest) →
    ∃ taken, cs = taken ++ rest ∧ ∀ other, Fits rest other → reader (taken ++ other) = some (a, other)

namespace Framed

theorem give (a : α) : Framed fun cs => some (a, cs) := by
  intro cs rest b h
  obtain ⟨rfl, rfl⟩ := Prod.mk.inj (Option.some.inj h)
  exact ⟨[], rfl, fun _ _ => rfl⟩

theorem refuse : Framed fun _ : List Char => (none : Option (α × List Char)) := by
  intro cs rest a h
  cases h

theorem bind {first : Reader α} {second : α → Reader β} (hfirst : Framed first)
    (hsecond : ∀ a, Framed (second a)) : Framed fun cs => (first cs).bind fun r => second r.1 r.2 := by
  intro cs rest b h
  obtain ⟨⟨a, middle⟩, hread, hrest⟩ := Option.bind_eq_some_iff.mp h
  obtain ⟨taken, rfl, hagain⟩ := hfirst hread
  obtain ⟨taken', rfl, hagain'⟩ := hsecond a hrest
  refine ⟨taken ++ taken', (List.append_assoc _ _ _).symm, fun other fits => ?_⟩
  show (first (taken ++ taken' ++ other)).bind _ = _
  rw [List.append_assoc, hagain _ (fits.append taken')]
  exact hagain' other fits

theorem map {reader : Reader α} (framed : Framed reader) (f : α → β) :
    Framed fun cs => (reader cs).map fun r => (f r.1, r.2) := by
  intro cs rest b h
  obtain ⟨⟨a, middle⟩, hread, hrest⟩ := Option.map_eq_some_iff.mp h
  obtain ⟨rfl, rfl⟩ := Prod.mk.inj hrest
  obtain ⟨taken, rfl, hagain⟩ := framed hread
  refine ⟨taken, rfl, fun other fits => ?_⟩
  simp only [hagain other fits, Option.map_some]

/-- A reader that finds nothing in no text takes something. -/
theorem ne_nil {reader : Reader α} (empty : reader [] = none) {a : α} {taken : List Char}
    (again : ∀ other, Fits rest other → reader (taken ++ other) = some (a, other)) : taken ≠ [] := by
  rintro rfl
  have hempty := again [] (.nil rest)
  rw [List.nil_append, empty] at hempty
  cases hempty

end Framed

theorem Framed.tail {reader : Reader α} (framed : Framed reader) (empty : reader [] = none) (c : Char) :
    Framed fun cs => reader (c :: cs) := by
  intro cs rest a h
  obtain ⟨taken, hcs, hagain⟩ := framed h
  cases taken with
  | nil => exact absurd rfl (Framed.ne_nil empty hagain)
  | cons d taken =>
    obtain ⟨rfl, rfl⟩ := List.cons.inj hcs
    exact ⟨taken, rfl, hagain⟩

/-! ## White space and literals -/

theorem skipBlanks_append {blanks : List Char} (blank : ∀ c ∈ blanks, isBlank c = true) {c : Char}
    (nonblank : isBlank c = false) (other : List Char) : skipBlanks (blanks ++ c :: other) = c :: other := by
  rw [skipBlanks, List.dropWhile_append_of_pos blank]
  simp [nonblank]

theorem skipBlanks_eq_cons {c : Char} (skipped : skipBlanks cs = c :: rest) :
    ∃ blanks, cs = blanks ++ c :: rest ∧ (∀ d ∈ blanks, isBlank d = true) ∧
      ∀ other, skipBlanks (blanks ++ c :: other) = c :: other := by
  have hc : isBlank c = false := by
    have hne : skipBlanks cs ≠ [] := by simp [skipped]
    have hhead := List.head_dropWhile_not isBlank hne
    simpa [← skipBlanks.eq_def, skipped] using hhead
  have hblank : ∀ d ∈ cs.takeWhile isBlank, isBlank d = true := fun _ h => List.mem_takeWhile_imp h
  refine ⟨cs.takeWhile isBlank, ?_, hblank, skipBlanks_append hblank hc⟩
  rw [← skipped, skipBlanks, List.takeWhile_append_dropWhile]

/-- A reader that skips white space before a character and then goes on with another reader. -/
theorem again_after_blanks {reader inner : Reader α} {c : Char} {after : List Char} {a : α} (framed : Framed inner)
    (skipped : skipBlanks cs = c :: after) (read : inner after = some (a, rest))
    (goes : ∀ cs' after', skipBlanks cs' = c :: after' → reader cs' = inner after') :
    ∃ taken, cs = taken ++ rest ∧ ∀ other, Fits rest other → reader (taken ++ other) = some (a, other) := by
  obtain ⟨blanks, rfl, -, hblanks⟩ := skipBlanks_eq_cons skipped
  obtain ⟨taken, rfl, hagain⟩ := framed read
  refine ⟨blanks ++ c :: taken, by simp, fun other fits => ?_⟩
  rw [List.append_assoc, List.cons_append, goes _ _ (hblanks _)]
  exact hagain other fits

theorem framed_literal (word : List Char) : Framed (literal word) := by
  intro cs rest a h
  unfold literal at h
  split at h
  · rename_i hprefix
    obtain ⟨after, rfl⟩ := List.isPrefixOf_iff_prefix.mp hprefix
    obtain ⟨rfl, rfl⟩ := Prod.mk.inj (Option.some.inj h)
    refine ⟨word, by simp, fun other _ => ?_⟩
    simp [literal]
  · cases h

/-! ## Numbers -/

theorem head?_of_fits {c : Char} (fits : Fits rest other) (head : other.head? = some c) :
    rest.head? = some c ∨ (c.isDigit = false ∧ c ≠ '.' ∧ c ≠ 'e' ∧ c ≠ 'E') := by
  rcases fits with hsame | hends
  · exact .inl (hsame ▸ head)
  · exact .inr (hends c head)

theorem digits_split {ds after : List Char} (h : digits cs = (ds, after)) :
    cs = ds ++ after ∧ ∀ other, Fits after other → digits (ds ++ other) = (ds, other) := by
  obtain ⟨rfl, rfl⟩ := Prod.mk.inj h
  refine ⟨(List.takeWhile_append_dropWhile).symm, fun other fits => ?_⟩
  have hstop : ∀ c ∈ other.head?, c.isDigit = false := by
    intro c hc
    rcases head?_of_fits fits hc with hhead | hends
    · have hne : cs.dropWhile Char.isDigit ≠ [] := by
        intro hnil
        simp [hnil] at hhead
      have hnot := List.head_dropWhile_not Char.isDigit hne
      rw [List.head?_eq_some_head hne] at hhead
      rw [← Option.some.inj hhead]
      simpa using hnot
    · exact hends.1
  have hall : ∀ c ∈ cs.takeWhile Char.isDigit, c.isDigit = true := fun _ h => List.mem_takeWhile_imp h
  rw [digits, List.takeWhile_append_of_pos hall, List.dropWhile_append_of_pos hall]
  cases other with
  | nil => simp
  | cons c other =>
    have hc : c.isDigit = false := hstop c rfl
    simp [hc]

theorem framed_wholePart : Framed wholePart := by
  intro cs rest a h
  unfold wholePart at h
  split at h
  · cases h
  · rename_i ds after hdigits
    split at h
    · rename_i hempty
      obtain ⟨rfl, rfl⟩ := Prod.mk.inj (Option.some.inj h)
      obtain ⟨rfl, hagain⟩ := digits_split hdigits
      refine ⟨'0' :: ds, rfl, fun other fits => ?_⟩
      rw [wholePart, hagain other fits]
      simp [hempty]
    · cases h
  · rename_i ds after hne hzero hdigits
    obtain ⟨rfl, rfl⟩ := Prod.mk.inj (Option.some.inj h)
    obtain ⟨rfl, hagain⟩ := digits_split hdigits
    refine ⟨ds, rfl, fun other fits => ?_⟩
    rw [wholePart, hagain other fits]
    split
    · rename_i heq
      exact absurd (Prod.mk.inj heq).1 hne
    · rename_i heq
      exact absurd (Prod.mk.inj heq).1 (hzero _)
    · rename_i heq
      obtain ⟨rfl, rfl⟩ := Prod.mk.inj heq
      rfl

theorem framed_fractionPart : Framed fractionPart := by
  intro cs rest a h
  unfold fractionPart at h
  split at h
  · rename_i cs
    split at h
    · cases h
    · rename_i ds after hne hdigits
      obtain ⟨rfl, rfl⟩ := Prod.mk.inj (Option.some.inj h)
      obtain ⟨rfl, hagain⟩ := digits_split hdigits
      refine ⟨'.' :: ds, rfl, fun other fits => ?_⟩
      rw [List.cons_append, fractionPart, hagain other fits]
      split
      · rename_i heq
        exact absurd (Prod.mk.inj heq).1 hne
      · rename_i heq
        obtain ⟨rfl, rfl⟩ := Prod.mk.inj heq
        rfl
  · rename_i hpoint
    obtain ⟨rfl, rfl⟩ := Prod.mk.inj (Option.some.inj h)
    refine ⟨[], rfl, fun other fits => ?_⟩
    rw [List.nil_append]
    unfold fractionPart
    split
    · rename_i after
      rcases head?_of_fits fits rfl with hhead | hends
      · obtain ⟨after', rfl⟩ := List.head?_eq_some_iff.mp hhead
        exact absurd rfl (hpoint after')
      · exact absurd rfl hends.2.1
    · rfl

/-- The digits of an exponent after its sign. -/
def exponentDigits (negative : Bool) : Reader (Option Int) := fun cs =>
  match digits cs with
  | ([], _) => none
  | (ds, after) =>
    some (some (if negative then -(Text.valueOfDigits ds : Int) else (Text.valueOfDigits ds : Int)), after)

/-- The sign of an exponent, and what comes after it. -/
def exponentSign : List Char → Bool × List Char
  | '-' :: rest => (true, rest)
  | '+' :: rest => (false, rest)
  | rest => (false, rest)

theorem exponentSign_of_unsigned (hminus : cs.head? ≠ some '-') (hplus : cs.head? ≠ some '+') :
    exponentSign cs = (false, cs) := by
  unfold exponentSign
  split
  · exact absurd rfl hminus
  · exact absurd rfl hplus
  · rfl

theorem exponentPart_of_letter {c : Char} (hc : c = 'e' ∨ c = 'E') (cs : List Char) :
    exponentPart (c :: cs) = exponentDigits (exponentSign cs).1 (exponentSign cs).2 :=
  if_pos hc

theorem exponentPart_signed (c : Char) (hc : c = 'e' ∨ c = 'E') (cs : List Char) :
    exponentPart (c :: '-' :: cs) = exponentDigits true cs ∧
    exponentPart (c :: '+' :: cs) = exponentDigits false cs :=
  ⟨exponentPart_of_letter hc ('-' :: cs), exponentPart_of_letter hc ('+' :: cs)⟩

theorem exponentPart_unsigned (c : Char) (hc : c = 'e' ∨ c = 'E') (hminus : cs.head? ≠ some '-')
    (hplus : cs.head? ≠ some '+') : exponentPart (c :: cs) = exponentDigits false cs := by
  rw [exponentPart_of_letter hc, exponentSign_of_unsigned hminus hplus]

theorem framed_exponentDigits (negative : Bool) : Framed (exponentDigits negative) := by
  intro cs rest a h
  unfold exponentDigits at h
  split at h
  · cases h
  · rename_i ds after hne hdigits
    obtain ⟨rfl, rfl⟩ := Prod.mk.inj (Option.some.inj h)
    obtain ⟨rfl, hagain⟩ := digits_split hdigits
    refine ⟨ds, rfl, fun other fits => ?_⟩
    rw [exponentDigits, hagain other fits]
    split
    · rename_i heq
      exact absurd (Prod.mk.inj heq).1 hne
    · rename_i heq
      obtain ⟨rfl, rfl⟩ := Prod.mk.inj heq
      rfl

theorem exponentPart_absent (absent : ∀ c ∈ cs.head?, c ≠ 'e' ∧ c ≠ 'E') :
    exponentPart cs = some (none, cs) := by
  cases cs with
  | nil => rfl
  | cons c cs =>
    have hc := absent c rfl
    simp [exponentPart, hc.1, hc.2]

theorem framed_exponentPart : Framed exponentPart := by
  intro cs rest a h
  by_cases habsent : ∀ c ∈ cs.head?, c ≠ 'e' ∧ c ≠ 'E'
  · rw [exponentPart_absent habsent] at h
    obtain ⟨rfl, rfl⟩ := Prod.mk.inj (Option.some.inj h)
    refine ⟨[], rfl, fun other fits => exponentPart_absent fun c hc => ?_⟩
    rcases head?_of_fits fits hc with hhead | hends
    · exact habsent c hhead
    · exact hends.2.2
  obtain ⟨c, cs, rfl, hc⟩ : ∃ c tail, cs = c :: tail ∧ (c = 'e' ∨ c = 'E') := by
    cases cs with
    | nil => simp at habsent
    | cons c tail =>
      refine ⟨c, tail, rfl, ?_⟩
      by_contra hneither
      simp [not_or.mp hneither] at habsent
  by_cases hminus : cs.head? = some '-'
  · obtain ⟨cs, rfl⟩ := List.head?_eq_some_iff.mp hminus
    rw [(exponentPart_signed c hc cs).1] at h
    obtain ⟨taken, rfl, hagain⟩ := framed_exponentDigits true h
    exact ⟨c :: '-' :: taken, rfl, fun other fits => (exponentPart_signed c hc _).1.trans (hagain other fits)⟩
  by_cases hplus : cs.head? = some '+'
  · obtain ⟨cs, rfl⟩ := List.head?_eq_some_iff.mp hplus
    rw [(exponentPart_signed c hc cs).2] at h
    obtain ⟨taken, rfl, hagain⟩ := framed_exponentDigits false h
    exact ⟨c :: '+' :: taken, rfl, fun other fits => (exponentPart_signed c hc _).2.trans (hagain other fits)⟩
  · rw [exponentPart_unsigned c hc hminus hplus] at h
    obtain ⟨taken, rfl, hagain⟩ := framed_exponentDigits false h
    have hne : taken ≠ [] := Framed.ne_nil rfl hagain
    refine ⟨c :: taken, rfl, fun other fits => ?_⟩
    have hhead : (taken ++ other).head? = (taken ++ rest).head? := by
      rw [List.head?_append_of_ne_nil taken hne, List.head?_append_of_ne_nil taken hne]
    rw [← hhead] at hminus hplus
    exact (exponentPart_unsigned c hc hminus hplus).trans (hagain other fits)

/-- The number that these parts make. -/
def numberOf? (negative : Bool) (whole : List Char) (fraction : Option (List Char)) (exponent : Option Int) :
    Option Number :=
  match fraction, exponent with
  | none, none => wholeNumber negative (Text.valueOfDigits whole)
  | _, _ =>
    nearestDouble negative (Text.valueOfDigits (whole ++ fraction.getD []))
      (exponent.getD 0 - (fraction.getD []).length)

/-- A number after its sign. -/
def unsignedNumber (negative : Bool) : Reader Number := fun cs =>
  (wholePart cs).bind fun whole =>
    (fractionPart whole.2).bind fun fraction =>
      (exponentPart fraction.2).bind fun exponent =>
        (numberOf? negative whole.1 fraction.1 exponent.1).bind fun value => some (value, exponent.2)

theorem readNumber_negative (cs : List Char) : readNumber ('-' :: cs) = unsignedNumber true cs := by
  refine congrArg (Option.bind (wholePart cs)) (funext fun whole =>
    congrArg (Option.bind (fractionPart whole.2)) (funext fun fraction =>
      congrArg (Option.bind (exponentPart fraction.2)) (funext fun exponent => ?_)))
  obtain ⟨_ | ds, after⟩ := fraction <;> obtain ⟨_ | power, after'⟩ := exponent <;> rfl

theorem readNumber_unsigned (hminus : cs.head? ≠ some '-') : readNumber cs = unsignedNumber false cs := by
  simp only [readNumber]
  split
  · simp at hminus
  · refine congrArg (Option.bind (wholePart cs)) (funext fun whole =>
      congrArg (Option.bind (fractionPart whole.2)) (funext fun fraction =>
        congrArg (Option.bind (exponentPart fraction.2)) (funext fun exponent => ?_)))
    obtain ⟨_ | ds, after⟩ := fraction <;> obtain ⟨_ | power, after'⟩ := exponent <;> rfl

theorem framed_value (value : Option α) : Framed fun cs => value.bind fun v => some (v, cs) := by
  cases value with
  | none => exact .refuse
  | some v => exact .give v

theorem framed_unsignedNumber (negative : Bool) : Framed (unsignedNumber negative) :=
  framed_wholePart.bind fun whole => framed_fractionPart.bind fun fraction =>
    framed_exponentPart.bind fun exponent => framed_value (numberOf? negative whole fraction exponent)

theorem framed_readNumber : Framed readNumber := by
  intro cs rest a h
  by_cases hminus : cs.head? = some '-'
  · obtain ⟨cs, rfl⟩ := List.head?_eq_some_iff.mp hminus
    rw [readNumber_negative] at h
    obtain ⟨taken, rfl, hagain⟩ := framed_unsignedNumber true h
    exact ⟨'-' :: taken, rfl, fun other fits => (readNumber_negative _).trans (hagain other fits)⟩
  · rw [readNumber_unsigned hminus] at h
    obtain ⟨taken, rfl, hagain⟩ := framed_unsignedNumber false h
    have hne : taken ≠ [] := Framed.ne_nil rfl hagain
    refine ⟨taken, rfl, fun other fits => ?_⟩
    have hhead : (taken ++ other).head? = (taken ++ rest).head? := by
      rw [List.head?_append_of_ne_nil taken hne, List.head?_append_of_ne_nil taken hne]
    rw [← hhead] at hminus
    exact (readNumber_unsigned hminus).trans (hagain other fits)

/-! ## Strings -/

theorem framed_hexCode : Framed hexCode := by
  intro cs rest a h
  unfold hexCode at h
  split at h
  · rename_i d₁ d₂ d₃ d₄ after
    simp only [Option.bind_eq_bind, Option.bind_eq_some_iff] at h
    obtain ⟨n₁, h₁, n₂, h₂, n₃, h₃, n₄, h₄, hcode⟩ := h
    obtain ⟨rfl, rfl⟩ := Prod.mk.inj (Option.some.inj hcode)
    exact ⟨[d₁, d₂, d₃, d₄], rfl, fun other _ => by simp [hexCode, h₁, h₂, h₃, h₄]⟩
  · cases h

theorem framed_numberedChar : Framed numberedChar := by
  intro cs rest a h
  obtain ⟨⟨first, middle⟩, hfirst, hchar⟩ := Option.bind_eq_some_iff.mp h
  obtain ⟨taken, rfl, hagain⟩ := framed_hexCode hfirst
  dsimp only at hchar
  split at hchar
  · rename_i hhigh
    split at hchar
    · obtain ⟨⟨second, after⟩, hsecond, hpair⟩ := Option.bind_eq_some_iff.mp hchar
      obtain ⟨taken', rfl, hagain'⟩ := framed_hexCode hsecond
      dsimp only at hpair
      split at hpair
      · rename_i hlow
        obtain ⟨rfl, rfl⟩ := Prod.mk.inj (Option.some.inj hpair)
        refine ⟨taken ++ '\\' :: 'u' :: taken', by simp, fun other fits => ?_⟩
        have hcode := hagain ('\\' :: 'u' :: taken' ++ other) (.inl rfl)
        rw [List.append_assoc, numberedChar, hcode]
        simp [hhigh, hagain' other fits, hlow]
      · cases hpair
    · cases hchar
  · rename_i hhigh
    split at hchar
    · cases hchar
    · rename_i hlow
      obtain ⟨rfl, rfl⟩ := Prod.mk.inj (Option.some.inj hchar)
      refine ⟨taken, rfl, fun other fits => ?_⟩
      rw [numberedChar, hagain other fits]
      simp [hhigh, hlow]

theorem framed_escapedChar : Framed escapedChar := by
  intro cs rest a h
  by_cases hu : ∃ after, cs = 'u' :: after
  · obtain ⟨after, rfl⟩ := hu
    obtain ⟨taken, rfl, hagain⟩ := framed_numberedChar h
    exact ⟨'u' :: taken, rfl, hagain⟩
  · unfold escapedChar at h
    split at h
    case h_9 after => exact absurd ⟨after, rfl⟩ hu
    case h_10 => cases h
    all_goals
      obtain ⟨rfl, rfl⟩ := Prod.mk.inj (Option.some.inj h)
      exact ⟨[_], rfl, fun other _ => rfl⟩

/-- The count bounds what is read, and does not matter otherwise. -/
theorem stringChars_again {count : Nat} {read out : List Char} (h : stringChars count read cs = some (out, rest)) :
    ∃ taken, cs = taken ++ rest ∧ ∀ count' other, taken.length ≤ count' →
      stringChars count' read (taken ++ other) = some (out, other) := by
  fun_induction stringChars count read cs with
  | case1 | case2 | case5 | case6 => cases h
  | case3 count read after =>
    obtain ⟨rfl, rfl⟩ := Prod.mk.inj (Option.some.inj h)
    refine ⟨['"'], rfl, fun count' other enough => ?_⟩
    obtain ⟨count', rfl⟩ := Nat.exists_eq_succ_of_ne_zero (Nat.ne_zero_of_lt enough)
    rfl
  | case4 count read after c middle hescaped ih =>
    obtain ⟨taken, rfl, hagain⟩ := framed_escapedChar hescaped
    obtain ⟨taken', rfl, hagain'⟩ := ih h
    refine ⟨'\\' :: (taken ++ taken'), by simp, fun count' other enough => ?_⟩
    rw [List.length_cons, List.length_append] at enough
    obtain ⟨count', rfl⟩ := Nat.exists_eq_succ_of_ne_zero (Nat.ne_zero_of_lt enough)
    have hne : taken' ≠ [] := by
      rintro rfl
      cases hagain' 0 [] (Nat.le_refl 0)
    rw [List.cons_append, List.append_assoc, stringChars, hagain _ (.of_taken hne rest other)]
    exact hagain' count' other (by omega)
  | case7 count read c after hquote hescape hprintable ih =>
    obtain ⟨taken, rfl, hagain⟩ := ih h
    refine ⟨c :: taken, rfl, fun count' other enough => ?_⟩
    rw [List.length_cons] at enough
    obtain ⟨count', rfl⟩ := Nat.exists_eq_succ_of_ne_zero (Nat.ne_zero_of_lt enough)
    rw [List.cons_append, stringChars]
    · rw [if_neg hprintable]
      exact hagain count' other (Nat.le_of_succ_le_succ enough)
    · exact hquote
    · exact hescape

theorem framed_stringBody : Framed stringBody := by
  intro cs rest a h
  obtain ⟨⟨read, after⟩, hread, hbody⟩ := Option.bind_eq_some_iff.mp h
  obtain ⟨rfl, rfl⟩ := Prod.mk.inj (Option.some.inj hbody)
  obtain ⟨taken, rfl, hagain⟩ := stringChars_again hread
  refine ⟨taken, rfl, fun other _ => ?_⟩
  rw [stringBody, hagain _ _ (by rw [List.length_append]; omega)]
  rfl

/-! ## Arrays and objects -/

section

variable {item : Reader α} {last : Char}

/-- The count bounds what is read, and does not matter otherwise. -/
theorem items_again (framed : Framed item) {count : Nat} {read out : List α}
    (h : items item last count read cs = some (out, rest)) :
    ∃ taken, cs = taken ++ last :: rest ∧ ∀ count' other, taken.length < count' →
      items item last count' read (taken ++ last :: other) = some (out, other) := by
  fun_induction items item last count read cs with
  | case1 | case2 | case5 | case6 => cases h
  | case3 count read cs value middle hitem after hskip ih =>
    obtain ⟨taken, rfl, hagain⟩ := framed hitem
    obtain ⟨blanks, rfl, -, hblanks⟩ := skipBlanks_eq_cons hskip
    obtain ⟨taken', rfl, hagain'⟩ := ih h
    refine ⟨taken ++ (blanks ++ ',' :: taken'), by simp, fun count' other enough => ?_⟩
    simp only [List.length_append, List.length_cons] at enough
    obtain ⟨count', rfl⟩ := Nat.exists_eq_succ_of_ne_zero (Nat.ne_zero_of_lt enough)
    have hitem' := hagain (blanks ++ ',' :: (taken' ++ last :: other)) (.inl (by cases blanks <;> rfl))
    simp only [List.append_assoc, List.cons_append]
    rw [items, hitem']
    dsimp only
    rw [hblanks]
    exact hagain' count' other (by omega)
  | case4 count read cs value middle hitem after hcomma hskip =>
    obtain ⟨taken, rfl, hagain⟩ := framed hitem
    obtain ⟨blanks, rfl, -, hblanks⟩ := skipBlanks_eq_cons hskip
    obtain ⟨rfl, rfl⟩ := Prod.mk.inj (Option.some.inj h)
    refine ⟨taken ++ blanks, by simp, fun count' other enough => ?_⟩
    obtain ⟨count', rfl⟩ := Nat.exists_eq_succ_of_ne_zero (Nat.ne_zero_of_lt enough)
    have hitem' := hagain (blanks ++ last :: other) (.inl (by cases blanks <;> rfl))
    rw [List.append_assoc, items, hitem']
    dsimp only
    rw [hblanks]
    split
    · rename_i heq
      exact absurd (List.cons.inj heq).1 hcomma
    · rename_i heq
      obtain ⟨rfl, rfl⟩ := List.cons.inj heq
      rw [if_pos rfl]
    · rename_i heq
      cases heq

theorem framed_sequence (framed : Framed item) (nonblank : isBlank last = false) :
    Framed (sequence item last) := by
  intro cs rest a h
  unfold sequence at h
  split at h
  · cases h
  · rename_i c after hskip
    split at h
    · rename_i hlast
      subst hlast
      obtain ⟨rfl, rfl⟩ := Prod.mk.inj (Option.some.inj h)
      obtain ⟨blanks, rfl, -, hblanks⟩ := skipBlanks_eq_cons hskip
      refine ⟨blanks ++ [c], by simp, fun other _ => ?_⟩
      rw [List.append_assoc, List.singleton_append, sequence, hblanks]
      dsimp only
      rw [if_pos rfl]
    · rename_i hlast
      obtain ⟨⟨read, after'⟩, hread, hsequence⟩ := Option.bind_eq_some_iff.mp h
      obtain ⟨rfl, rfl⟩ := Prod.mk.inj (Option.some.inj hsequence)
      obtain ⟨taken, rfl, hagain⟩ := items_again framed hread
      refine ⟨taken ++ [last], by simp, fun other _ => ?_⟩
      obtain ⟨more, hmore⟩ : ∃ more, skipBlanks (taken ++ last :: other) = c :: more := by
        unfold skipBlanks at hskip ⊢
        rw [List.dropWhile_append] at hskip ⊢
        split at hskip
        · rw [List.dropWhile_cons_of_neg (by simp [nonblank])] at hskip
          exact absurd (List.cons.inj hskip).1.symm hlast
        · rename_i hnonempty
          rw [if_neg hnonempty]
          cases hfirst : taken.dropWhile isBlank with
          | nil => simp [hfirst] at hnonempty
          | cons d more =>
            rw [hfirst] at hskip
            exact ⟨more ++ last :: other, (List.cons.inj hskip).1 ▸ rfl⟩
      rw [List.append_assoc, List.singleton_append, sequence, hmore]
      dsimp only
      rw [if_neg hlast, hagain _ _ (by rw [List.length_append]; omega)]
      rfl

theorem framed_namedItem (framed : Framed item) : Framed (namedItem item) := by
  intro cs rest a h
  unfold namedItem at h
  split at h
  · rename_i after hskip
    obtain ⟨⟨name, middle⟩, hname, hmember⟩ := Option.bind_eq_some_iff.mp h
    obtain ⟨blanks, rfl, -, hblanks⟩ := skipBlanks_eq_cons hskip
    obtain ⟨taken, rfl, hagain⟩ := framed_stringBody hname
    dsimp only at hmember
    split at hmember
    · rename_i after' hskip'
      obtain ⟨⟨value, after''⟩, hvalue, hpair⟩ := Option.bind_eq_some_iff.mp hmember
      obtain ⟨rfl, rfl⟩ := Prod.mk.inj (Option.some.inj hpair)
      obtain ⟨blanks', rfl, -, hblanks'⟩ := skipBlanks_eq_cons hskip'
      obtain ⟨taken', rfl, hagain'⟩ := framed hvalue
      refine ⟨blanks ++ '"' :: (taken ++ (blanks' ++ ':' :: taken')), by simp, fun other fits => ?_⟩
      have hname' := hagain (blanks' ++ ':' :: (taken' ++ other)) (.inl (by cases blanks' <;> rfl))
      simp [namedItem, hblanks, hname', hblanks', hagain' other fits]
    · cases hmember
  · cases h

end

/-! ## Values -/

theorem framed_valueOfDepth {depth : Nat} (parts : ∀ inner, depth = inner + 1 → Framed (readValue inner)) :
    Framed (readValue depth) := by
  intro cs rest a h
  unfold readValue at h
  split at h
  case h_1 after hskip =>
    have hinner := (framed_literal "ull".toList).map fun _ => Json.null
    exact again_after_blanks hinner hskip h fun _ _ h' => by simp [readValue, h']
  case h_2 after hskip =>
    have hinner := (framed_literal "rue".toList).map fun _ => Json.bool true
    exact again_after_blanks hinner hskip h fun _ _ h' => by simp [readValue, h']
  case h_3 after hskip =>
    have hinner := (framed_literal "alse".toList).map fun _ => Json.bool false
    exact again_after_blanks hinner hskip h fun _ _ h' => by simp [readValue, h']
  case h_4 after hskip =>
    have hinner := framed_stringBody.map Json.text
    exact again_after_blanks hinner hskip h fun _ _ h' => by simp [readValue, h']
  case h_5 after hskip =>
    cases depth with
    | zero => cases h
    | succ inner =>
      have hblank : isBlank ']' = false := by decide
      have hinner := (framed_sequence (parts inner rfl) hblank).map Json.array
      exact again_after_blanks hinner hskip h fun _ _ h' => by simp [readValue, h']
  case h_6 after hskip =>
    cases depth with
    | zero => cases h
    | succ inner =>
      have hblank : isBlank '\x7d' = false := by decide
      have hinner := (framed_sequence (framed_namedItem (parts inner rfl)) hblank).map Json.object
      exact again_after_blanks hinner hskip h fun _ _ h' => by simp [readValue, h']
  case h_7 hn ht hf hquote harray hobject =>
    cases hskip : skipBlanks cs with
    | nil =>
      rw [hskip] at h
      cases h
    | cons c after =>
      rw [hskip] at h
      have hinner := (framed_readNumber.tail rfl c).map Json.number
      refine again_after_blanks hinner hskip h fun cs' after' h' => ?_
      have hne : c ≠ 'n' ∧ c ≠ 't' ∧ c ≠ 'f' ∧ c ≠ '"' ∧ c ≠ '[' ∧ c ≠ '\x7b' :=
        ⟨fun hc => hn after (hc ▸ hskip), fun hc => ht after (hc ▸ hskip), fun hc => hf after (hc ▸ hskip),
          fun hc => hquote after (hc ▸ hskip), fun hc => harray after (hc ▸ hskip),
          fun hc => hobject after (hc ▸ hskip)⟩
      simp [readValue, h', hne]

theorem framed_readValue (depth : Nat) : Framed (readValue depth) := by
  induction depth with
  | zero => exact framed_valueOfDepth fun inner h => by cases h
  | succ depth ih => exact framed_valueOfDepth fun inner h => Nat.succ.inj h ▸ ih

/-! ## Values in one array -/

/-- The text is this value, and nothing but white space around it. -/
def IsValue (item : Reader α) (text : List Char) (value : α) : Prop :=
  ∃ taken blanks, text = taken ++ blanks ∧ (∀ c ∈ blanks, isBlank c = true) ∧
    ∀ other, Ends other → item (taken ++ other) = some (value, other)

theorem ends_of_blanks {blanks : List Char} (blank : ∀ c ∈ blanks, isBlank c = true) {last : Char}
    (closes : last = ',' ∨ last = ']') (other : List Char) : Ends (blanks ++ last :: other) := by
  intro c hc
  cases blanks with
  | nil =>
    obtain rfl : last = c := by simpa using hc
    rcases closes with rfl | rfl <;> decide
  | cons d blanks =>
    obtain rfl : d = c := by simpa using hc
    have hd := blank d List.mem_cons_self
    simp only [isBlank, Bool.or_eq_true, decide_eq_true_eq] at hd
    rcases hd with ((rfl | rfl) | rfl) | rfl <;> decide

section

variable {item : Reader α}

theorem length_of_items {last : Char} {count : Nat} {read out : List α}
    (h : items item last count read cs = some (out, rest)) : read.length < out.length := by
  fun_induction items item last count read cs with
  | case1 | case2 | case5 | case6 => cases h
  | case3 count read cs value middle hitem after hskip ih =>
    have hlt := ih h
    rw [List.length_cons] at hlt
    omega
  | case4 count read cs value middle hitem after hcomma hskip =>
    obtain ⟨rfl, rfl⟩ := Prod.mk.inj (Option.some.inj h)
    simp

theorem isValue_of_items (framed : Framed item) {text : List Char} {value : α} {count : Nat}
    (h : items item ']' count [] (text ++ [']']) = some ([value], rest)) (done : skipBlanks rest = []) :
    IsValue item text value := by
  cases count with
  | zero => cases h
  | succ count =>
    rw [items] at h
    split at h
    · cases h
    · rename_i found middle hitem
      split at h
      · have hlength := length_of_items h
        simp at hlength
      · rename_i c after hcomma hskip
        split at h
        · rename_i hc
          subst hc
          obtain ⟨hfound, rfl⟩ := Prod.mk.inj (Option.some.inj h)
          obtain rfl := (List.cons.inj hfound).1
          obtain ⟨taken, htext, hagain⟩ := framed hitem
          obtain ⟨blanks, rfl, hblank, -⟩ := skipBlanks_eq_cons hskip
          have hrest : after = [] := by
            rcases List.eq_nil_or_concat after with hnil | ⟨front, c, rfl⟩
            · exact hnil
            · -- the last character is the closing one, which is no white space
              have hwhole : text ++ [']'] = (taken ++ (blanks ++ ']' :: front)) ++ [c] := by simp [htext]
              obtain ⟨-, hc⟩ := List.append_inj' hwhole rfl
              have hc' : isBlank c = true := List.dropWhile_eq_nil_iff.mp done c (by simp)
              rw [← (List.cons.inj hc).1] at hc'
              cases hc'
          subst hrest
          refine ⟨taken, blanks, ?_, hblank, fun other ends => hagain other (.inr ends)⟩
          refine (List.append_left_inj [']']).mp ?_
          simpa using htext
        · cases h
      · cases h

/-- Texts that are values one by one are the items of the array that they make. -/
theorem items_of_values {texts : List (List Char)} {values : List α}
    (hvalues : List.Forall₂ (IsValue item) texts values) (nonempty : texts ≠ []) {count : Nat}
    (enough : texts.length ≤ count) (read : List α) (rest : List Char) :
    items item ']' count read ([','].intercalate texts ++ ']' :: rest) = some (values.reverse ++ read, rest) := by
  induction hvalues generalizing count read with
  | nil => exact absurd rfl nonempty
  | @cons text value texts values hvalue hvalues ih =>
    obtain ⟨taken, blanks, rfl, hblank, hagain⟩ := hvalue
    obtain ⟨count, rfl⟩ := Nat.exists_eq_succ_of_ne_zero (Nat.ne_zero_of_lt enough)
    cases texts with
    | nil =>
      cases hvalues
      have hskip := skipBlanks_append hblank (c := ']') (by decide) rest
      rw [List.intercalate_singleton, List.append_assoc, items, hagain _ (ends_of_blanks hblank (.inr rfl) rest)]
      dsimp only
      rw [hskip]
      simp
    | cons next texts =>
      have hrest := ih (List.cons_ne_nil next texts) (Nat.le_of_succ_le_succ enough) (value :: read)
      have hskip := skipBlanks_append hblank (c := ',') (by decide)
        ([','].intercalate (next :: texts) ++ ']' :: rest)
      rw [List.intercalate_cons_cons]
      simp only [List.append_assoc, List.cons_append, List.nil_append]
      rw [items, hagain _ (ends_of_blanks hblank (.inl rfl) _)]
      dsimp only
      rw [hskip]
      simp [hrest]

end

theorem readValue_array (depth : Nat) (cs : List Char) : readValue (depth + 1) ('[' :: cs) =
    (sequence (readValue depth) ']' cs).map fun r => (.array r.1, r.2) := rfl

/-- A value starts with something other than a closing bracket. -/
theorem skipBlanks_of_readValue {depth : Nat} {value : Json} (h : readValue depth cs = some (value, rest)) :
    ∃ c more, skipBlanks cs = c :: more ∧ c ≠ ']' := by
  cases hskip : skipBlanks cs with
  | nil => simp [readValue, hskip, readNumber, wholePart, digits] at h
  | cons c more =>
    refine ⟨c, more, rfl, ?_⟩
    rintro rfl
    simp [readValue, hskip, readNumber, wholePart, digits] at h

theorem length_le_intercalate (texts : List (List Char)) :
    texts.length ≤ ([','].intercalate texts).length + 1 := by
  induction texts with
  | nil => exact Nat.zero_le _
  | cons first others ih =>
    cases others with
    | nil => simp
    | cons second others =>
      rw [List.intercalate_cons_cons, List.length_cons]
      simp only [List.length_append, List.length_singleton]
      omega

theorem toList_rowArray (texts : List String) :
    (rowArray texts).toList = '[' :: ([','].intercalate (texts.map String.toList) ++ [']']) := by
  simp [rowArray, String.toList_intercalate]

/-- How deep arrays and objects may lie in the items of an array. -/
def itemDepth : Nat := 126

theorem maxDepth_eq : maxDepth = itemDepth + 1 := rfl

theorem parse?_rowArray_eq_some {texts : List String} {value : Json} :
    parse? (rowArray texts) = some value ↔
      ∃ values rest, sequence (readValue itemDepth) ']' ([','].intercalate (texts.map String.toList) ++ [']']) =
        some (values, rest) ∧ skipBlanks rest = [] ∧ value = .array values := by
  rw [parse?, parseWithin?, toList_rowArray, maxDepth_eq, readValue_array]
  cases sequence (readValue itemDepth) ']' ([','].intercalate (texts.map String.toList) ++ [']']) with
  | none =>
    constructor
    · intro h
      cases h
    · rintro ⟨_, _, h, -⟩
      cases h
  | some read =>
    obtain ⟨values, rest⟩ := read
    simp only [Option.map_some, Option.some.injEq, Prod.mk.injEq]
    constructor
    · intro h
      split at h
      · rename_i hdone
        exact ⟨values, rest, ⟨rfl, rfl⟩, List.isEmpty_iff.mp hdone, (Option.some.inj h).symm⟩
      · cases h
    · rintro ⟨_, _, ⟨rfl, rfl⟩, hdone, rfl⟩
      rw [hdone]
      rfl

theorem isValue_of_parse? {text : String} {value : Json} (h : parse? (rowArray [text]) = some (.array [value])) :
    IsValue (readValue itemDepth) text.toList value := by
  obtain ⟨values, rest, hread, hdone, hvalues⟩ := parse?_rowArray_eq_some.mp h
  obtain rfl := Json.array.inj hvalues
  rw [List.map_singleton, List.intercalate_singleton] at hread
  unfold sequence at hread
  split at hread
  · cases hread
  · split at hread
    · cases hread
    · obtain ⟨⟨read, rest'⟩, hitems, hrest⟩ := Option.bind_eq_some_iff.mp hread
      obtain ⟨hread', rfl⟩ := Prod.mk.inj (Option.some.inj hrest)
      obtain rfl : read = [value] := by simpa using congrArg List.reverse hread'
      exact isValue_of_items (framed_readValue itemDepth) hitems hdone

/-- Texts that are values one by one are the values of the array that they make. -/
theorem parse?_rowArray {texts : List String} {values : List Json}
    (single : List.Forall₂ (fun text value => parse? (rowArray [text]) = some (.array [value])) texts values) :
    parse? (rowArray texts) = some (.array values) := by
  refine parse?_rowArray_eq_some.mpr ⟨values, [], ?_, rfl, rfl⟩
  have hvalues : List.Forall₂ (IsValue (readValue itemDepth)) (texts.map String.toList) values :=
    List.forall₂_map_left_iff.mpr (single.imp fun _ _ => isValue_of_parse?)
  generalize texts.map String.toList = parts at hvalues
  cases hvalues with
  | nil => rfl
  | @cons first value others values hfirst hothers =>
    generalize htext : [','].intercalate (first :: others) ++ [']'] = cs
    have hlength : (first :: others).length ≤ cs.length + 1 := by
      rw [← htext, List.length_append]
      exact (length_le_intercalate _).trans (Nat.le_succ _)
    have hread := items_of_values (.cons hfirst hothers) (List.cons_ne_nil first others) hlength [] []
    rw [htext, List.append_nil] at hread
    obtain ⟨c, more, hskip, hc⟩ : ∃ c more, skipBlanks cs = c :: more ∧ c ≠ ']' := by
      rw [items] at hread
      split at hread
      · cases hread
      · rename_i hitem
        exact skipBlanks_of_readValue hitem
    rw [sequence, hskip]
    dsimp only
    rw [if_neg hc, hread]
    simp

end ReadThrough.Json
