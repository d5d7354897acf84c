import Mathlib
import ReadThrough.Proofs.Layout

/-! # Which texts are stored search results

Under a search key stands the mark of absence, or a row count, a bar and the rows, or any text that others
have put there. Only the first bar of a text counts, and what stands before it has to be a number of 64 bits,
written with decimal digits and perhaps a plus sign.

* `Numeral` says which number decimal digits stand for, place by place, and `IsCount` which texts are row
  counts;
* `natOfDigits?_eq_some_iff` and `count?_eq_some_iff`: the readers of numbers accept just these;
* `decode?_of_split` and `exists_split`: what the first bar does to a text;
* `search_forms_are_told_apart` is the theorem.
-/

namespace ReadThrough
set_option autoImplicit false

/-! ## Numbers in decimal digits -/

namespace Text

/-- The digits are decimal, and they stand for this number, with the last digit for the ones. -/
structure Numeral (digits : List Char) (n : Nat) : Prop where
  nonempty : digits ≠ []
  decimal : ∀ d ∈ digits, '0' ≤ d ∧ d ≤ '9'
  value : Nat.ofDigits 10 (digits.reverse.map fun d => d.toNat - '0'.toNat) = n

theorem isDigit_iff (d : Char) : d.isDigit = true ↔ '0' ≤ d ∧ d ≤ '9' := by
  simp [Char.isDigit, Char.le_def]

theorem valueOfDigits_concat (digits : List Char) (last : Char) :
    valueOfDigits (digits ++ [last]) = 10 * valueOfDigits digits + (last.toNat - '0'.toNat) := by
  rw [valueOfDigits, List.foldl_append]
  rfl

/-- Reading from the left gives the value of the places. -/
theorem valueOfDigits_eq (digits : List Char) :
    valueOfDigits digits = Nat.ofDigits 10 (digits.reverse.map fun d => d.toNat - '0'.toNat) := by
  induction digits using List.reverseRecOn with
  | nil => rfl
  | append_singleton digits last ih =>
    rw [valueOfDigits_concat, ih, List.reverse_append, List.reverse_singleton, List.singleton_append,
      List.map_cons, Nat.ofDigits_cons, Nat.add_comm]

theorem natOfDigits?_eq_some_iff {digits : List Char} {n : Nat} :
    natOfDigits? digits = some n ↔ Numeral digits n := by
  unfold natOfDigits?
  constructor
  · intro h
    split at h
    · cases h
    · rename_i hdigits
      obtain ⟨hne, hall⟩ : digits ≠ [] ∧ ∀ d ∈ digits, d.isDigit = true := by simpa using hdigits
      refine ⟨hne, fun d hd => (isDigit_iff d).mp (hall d hd), ?_⟩
      rw [← valueOfDigits_eq]
      exact Option.some.inj h
  · intro h
    have hall : digits.all Char.isDigit = true :=
      List.all_eq_true.mpr fun d hd => (isDigit_iff d).mpr (h.decimal d hd)
    rw [List.isEmpty_eq_false_iff.mpr h.nonempty, hall, valueOfDigits_eq, h.value]
    rfl

theorem Numeral.head_ne_plus {digits : List Char} {n : Nat} (h : Numeral digits n) (rest : List Char) :
    digits ≠ '+' :: rest := by
  rintro rfl
  exact absurd (h.decimal '+' List.mem_cons_self) (by decide)

theorem natOfSigned?_eq_some_iff {text : List Char} {n : Nat} :
    natOfSigned? text = some n ↔
      ∃ sign digits, (sign = [] ∨ sign = ['+']) ∧ text = sign ++ digits ∧ Numeral digits n := by
  unfold natOfSigned?
  constructor
  · intro h
    split at h
    · rename_i digits
      exact ⟨['+'], digits, .inr rfl, rfl, natOfDigits?_eq_some_iff.mp h⟩
    · exact ⟨[], text, .inl rfl, rfl, natOfDigits?_eq_some_iff.mp h⟩
  · rintro ⟨sign, digits, rfl | rfl, rfl, hdigits⟩
    · split
      · exact absurd rfl (hdigits.head_ne_plus _)
      · exact natOfDigits?_eq_some_iff.mpr hdigits
    · exact natOfDigits?_eq_some_iff.mpr hdigits

end Text

/-! ## Row counts and the first bar -/

namespace SearchEntry

/-- The text is one or more decimal digits, perhaps after a plus sign, and their value is this count. -/
def IsCount (text : List Char) (n : UInt64) : Prop :=
  ∃ sign digits, (sign = [] ∨ sign = ['+']) ∧ text = sign ++ digits ∧ Text.Numeral digits n.toNat

theorem count?_eq_some_iff {text : List Char} {n : UInt64} : count? text = some n ↔ IsCount text n := by
  unfold count? IsCount
  rw [← Text.natOfSigned?_eq_some_iff]
  have hlt : n.toNat < UInt64.size := n.toNat_lt_size
  constructor
  · intro h
    split at h
    · rename_i m hm
      split at h
      · rename_i hsmall
        rw [hm, ← Option.some.inj h, Nat.toUInt64_eq, UInt64.toNat_ofNat_of_lt' hsmall]
      · cases h
    · cases h
  · intro h
    simp [h, hlt]

/-- What stands before the first bar is read as a count, and what stands behind it is the payload. -/
theorem decode?_of_split {stored payload : String} {before : List Char}
    (split : stored.toList = before ++ '|' :: payload.toList) (first : '|' ∉ before) :
    decode? stored = (count? before).map fun n => (n, payload) := by
  have hbefore : ∀ c ∈ before, (c != '|') = true := by
    intro c hc
    rw [bne_iff_ne]
    rintro rfl
    exact first hc
  have htake : stored.toList.takeWhile (· != '|') = before := by
    rw [split, List.takeWhile_append_of_pos hbefore]
    simp
  have hdrop : stored.toList.dropWhile (· != '|') = '|' :: payload.toList := by
    rw [split, List.dropWhile_append_of_pos hbefore]
    simp
  simp only [decode?, htake, hdrop, String.ofList_toList]
  cases count? before <;> rfl

/-- A text without a bar is no stored form; any other splits at its first bar. -/
theorem exists_split (stored : String) : decode? stored = none ∨
    ∃ before payload : String, stored = before ++ "|" ++ payload ∧ '|' ∉ before.toList := by
  have hparts : stored.toList.takeWhile (· != '|') ++ stored.toList.dropWhile (· != '|') = stored.toList :=
    List.takeWhile_append_dropWhile
  cases hdrop : stored.toList.dropWhile (· != '|') with
  | nil =>
    left
    simp only [decode?, hdrop]
  | cons bar payload =>
    right
    have hbar : bar = '|' := by
      have hhead := List.head?_dropWhile_not (· != '|') stored.toList
      rw [hdrop] at hhead
      simpa using hhead
    refine ⟨String.ofList (stored.toList.takeWhile (· != '|')), String.ofList payload, ?_, ?_⟩
    · apply String.ext
      rw [hdrop, hbar] at hparts
      simp [hparts]
    · rw [String.toList_ofList]
      intro hmem
      have hnot := List.all_takeWhile (p := (· != '|')) (l := stored.toList)
      simpa using List.all_eq_true.mp hnot '|' hmem

theorem decode?_eq_some_iff {stored payload : String} {n : UInt64} :
    decode? stored = some (n, payload) ↔
      ∃ before : String, stored = before ++ "|" ++ payload ∧ '|' ∉ before.toList ∧ IsCount before.toList n := by
  have hlist : ∀ before payload : String,
      (before ++ "|" ++ payload).toList = before.toList ++ '|' :: payload.toList := by
    intro before payload
    simp
  constructor
  · intro h
    rcases exists_split stored with hnone | ⟨before, rest, rfl, hfirst⟩
    · cases hnone.symm.trans h
    · rw [decode?_of_split (hlist before rest) hfirst, Option.map_eq_some_iff] at h
      obtain ⟨m, hcount, hsame⟩ := h
      obtain ⟨rfl, rfl⟩ := Prod.mk.inj hsame
      exact ⟨before, rfl, hfirst, count?_eq_some_iff.mp hcount⟩
  · rintro ⟨before, rfl, hfirst, hcount⟩
    rw [decode?_of_split (hlist before payload) hfirst, count?_eq_some_iff.mpr hcount]
    rfl

/-- What is written for a search result is read back, whatever its payload is, and never taken for the mark of
absence. A text is read as a result just if what stands before its first bar is a row count, and then the
payload is all that stands behind this bar; any other text, the mark of absence among them, is not read at
all. -/
theorem search_forms_are_told_apart :
    (∀ (n : UInt64) (payload : String),
      decode? (encode n payload) = some (n, payload) ∧ encode n payload ≠ absenceMark) ∧
    (∀ (stored payload : String) (n : UInt64), decode? stored = some (n, payload) ↔
      ∃ before : String, stored = before ++ "|" ++ payload ∧ '|' ∉ before.toList ∧
        IsCount before.toList n) ∧
    (∀ stored : String, decode? stored = none ↔
      ¬ ∃ (before payload : String) (n : UInt64), stored = before ++ "|" ++ payload ∧
        '|' ∉ before.toList ∧ IsCount before.toList n) ∧
    decode? absenceMark = none := by
  refine ⟨fun n payload => ⟨decode?_encode n payload, encode_ne_absenceMark n payload⟩,
    fun stored payload n => decode?_eq_some_iff, fun stored => ?_, by decide⟩
  rw [Option.eq_none_iff_forall_not_mem]
  constructor
  · rintro hnone ⟨before, payload, n, hsplit⟩
    exact hnone (n, payload) (decode?_eq_some_iff.mpr ⟨before, hsplit⟩)
  · rintro hnone ⟨n, payload⟩ hread
    obtain ⟨before, hsplit⟩ := decode?_eq_some_iff.mp hread
    exact hnone ⟨before, payload, n, hsplit⟩

/-- The first bar splits, and zeros and a plus sign in front do not matter. -/
example : decode? "+07|a|b" = some (7, "a|b") := by decide

end SearchEntry

end ReadThrough
