import Mathlib
import ReadThrough.Proofs.Layout

/-! # Values told apart by their keys

Values are joined with colons in every key, and nothing marks a colon that belongs to a value. Equally
long lists of values share their keys just when they read the same once joined; then a colon of the one
list stands where the other has a separator.

* `joined` is the list of values as it stands in a key, `colons` the number of colons in a value;
* `moreColonsSomewhere_of_joined`: what it takes for different lists to read the same;
* `values_share_all_keys_or_none` is the theorem, `shifted_colon_shares_keys` an example.
-/

namespace ReadThrough
set_option autoImplicit false

/-! ## Counting colons -/

def colons (text : String) : Nat := text.toList.count ':'

/-- The values of a key joined with colons. -/
def joined (values : List String) : List Char := [':'].intercalate (values.map String.toList)

theorem joined_cons_cons (first second : String) (rest : List String) :
    joined (first :: second :: rest) = first.toList ++ ':' :: joined (second :: rest) := by
  simp [joined, List.intercalate_cons_cons]

theorem count_joined (first : String) (rest : List String) :
    (joined (first :: rest)).count ':' = ((first :: rest).map colons).sum + rest.length := by
  induction rest generalizing first with
  | nil => simp [joined, colons]
  | cons second others ih =>
    have hrest := ih second
    rw [joined_cons_cons, List.count_append, List.count_cons_self, hrest]
    simp only [List.map_cons, List.sum_cons, List.length_cons, colons]
    omega

theorem eq_of_joined {xs ys : List String} (same : joined xs = joined ys)
    (counts : xs.map colons = ys.map colons) : xs = ys := by
  induction xs generalizing ys with
  | nil => simpa using counts.symm
  | cons x xs ih =>
    obtain ⟨y, ys, rfl⟩ : ∃ y ys', ys = y :: ys' := by
      cases ys with
      | nil => simp at counts
      | cons y ys' => exact ⟨y, ys', rfl⟩
    simp only [List.map_cons, List.cons.injEq] at counts
    have hlength : xs.length = ys.length := by simpa using congrArg List.length counts.2
    cases xs with
    | nil =>
      obtain rfl : ys = [] := List.length_eq_zero_iff.mp hlength.symm
      have hvalue : x.toList = y.toList := by simpa [joined] using same
      rw [String.ext hvalue]
    | cons x' xs =>
      obtain ⟨y', ys, rfl⟩ : ∃ y' ys', ys = y' :: ys' := by
        cases ys with
        | nil => simp at hlength
        | cons y' ys' => exact ⟨y', ys', rfl⟩
      rw [joined_cons_cons, joined_cons_cons] at same
      -- with as many colons before it, the separator after the first value is the same in both
      obtain ⟨hvalue, hrest⟩ := eq_of_append_colon same counts.1
      rw [String.ext hvalue, ih hrest counts.2]

theorem eq_of_sum_eq {as bs : List Nat} (le : List.Forall₂ (· ≤ ·) as bs) (sum : as.sum = bs.sum) :
    as = bs := by
  have hsum : ∀ {as bs : List Nat}, List.Forall₂ (· ≤ ·) as bs → as.sum ≤ bs.sum := by
    intro as bs h
    induction h with
    | nil => exact Nat.le_refl _
    | cons first _ ih =>
      rw [List.sum_cons, List.sum_cons]
      omega
  induction le with
  | nil => rfl
  | @cons a b as bs first rest ih =>
    have hrest := hsum rest
    rw [List.sum_cons, List.sum_cons] at sum
    rw [ih (by omega), show a = b by omega]

/-- One value of the first list has more colons than its counterpart in the second. -/
def MoreColonsSomewhere (xs ys : List String) : Prop :=
  ∃ (i : Nat) (x y : String), xs[i]? = some x ∧ ys[i]? = some y ∧ colons y < colons x

theorem moreColonsSomewhere_of_not_le {xs ys : List String} (length : xs.length = ys.length)
    (le : ¬ List.Forall₂ (· ≤ ·) (xs.map colons) (ys.map colons)) : MoreColonsSomewhere xs ys := by
  by_contra hnone
  refine le ?_
  rw [List.forall₂_map_left_iff, List.forall₂_map_right_iff, List.forall₂_iff_get]
  refine ⟨length, fun i hi hi' => Nat.le_of_not_lt fun hlt => hnone ?_⟩
  exact ⟨i, _, _, List.getElem?_eq_getElem hi, List.getElem?_eq_getElem hi', hlt⟩

/-- If different values read the same when joined, each list has a value with more colons than its
counterpart: there are as many colons in all. -/
theorem moreColonsSomewhere_of_joined {xs ys : List String} (length : xs.length = ys.length)
    (differ : xs ≠ ys) (same : joined xs = joined ys) :
    MoreColonsSomewhere xs ys ∧ MoreColonsSomewhere ys xs := by
  have hcounts : xs.map colons ≠ ys.map colons := fun h => differ (eq_of_joined same h)
  have hsum : (xs.map colons).sum = (ys.map colons).sum := by
    cases xs with
    | nil => rw [List.length_eq_zero_iff.mp length.symm]
    | cons x xs =>
      cases ys with
      | nil => simp at length
      | cons y ys =>
        have hcount := congrArg (List.count ':') same
        rw [count_joined, count_joined] at hcount
        simp only [List.length_cons] at length
        omega
  constructor
  · exact moreColonsSomewhere_of_not_le length fun hle => hcounts (eq_of_sum_eq hle hsum)
  · exact moreColonsSomewhere_of_not_le length.symm fun hle =>
      hcounts (eq_of_sum_eq hle hsum.symm).symm

/-! ## Keys -/

theorem CompositeKey.text_toList (values : List String) :
    (CompositeKey.mk values).text.toList = joined values := by
  simp [CompositeKey.text, joined]

theorem searchText_toList (sql value : String) (values : List String) :
    (searchText sql ((value :: values).map .text)).toList =
      sql.toList ++ ':' :: joined (value :: values) := by
  rw [searchText, String.toList_append]
  congr 1
  induction values generalizing value with
  | nil => simp [joined, Param.keyText]
  | cons next rest ih =>
    have hrest := ih next
    rw [joined_cons_cons, ← hrest]
    simp [Param.keyText]

namespace KeyLayout

variable {xs ys : List String}

theorem rowKey_eq_iff (space : KeyLayout) (table : String) :
    space.rowKey table ⟨xs⟩ = space.rowKey table ⟨ys⟩ ↔ joined xs = joined ys := by
  rw [← String.toList_inj, rowKey_toList, rowKey_toList, CompositeKey.text_toList,
    CompositeKey.text_toList]
  simp [inNamespace]

theorem indexKey_eq_iff (space : KeyLayout) (table index : String) :
    space.indexKey table index ⟨xs⟩ = space.indexKey table index ⟨ys⟩ ↔ joined xs = joined ys := by
  rw [← String.toList_inj, indexKey_toList, indexKey_toList, CompositeKey.text_toList,
    CompositeKey.text_toList]
  simp [inNamespace]

theorem searchText_eq_iff (sql : String) (length : xs.length = ys.length) :
    searchText sql (xs.map .text) = searchText sql (ys.map .text) ↔ joined xs = joined ys := by
  cases xs with
  | nil => simp [List.length_eq_zero_iff.mp length.symm]
  | cons x xs =>
    cases ys with
    | nil => simp at length
    | cons y ys => rw [← String.toList_inj, searchText_toList, searchText_toList]; simp

theorem resultKey_eq_iff (space : KeyLayout) (table sql : String) (length : xs.length = ys.length) :
    space.resultKey table sql (xs.map .text) = space.resultKey table sql (ys.map .text) ↔
      joined xs = joined ys := by
  rw [← searchText_eq_iff sql length]
  exact ⟨searchText_of_resultKey, fun h => by rw [resultKey, resultKey, h]⟩

theorem flightName_eq_iff (table sql : String) (length : xs.length = ys.length) :
    flightName table sql (xs.map .text) = flightName table sql (ys.map .text) ↔
      joined xs = joined ys := by
  rw [← searchText_eq_iff sql length, ← String.toList_inj]
  simp [flightName, String.toList_append, String.toList_inj]

/-- Equally long lists of values that differ, as parameters or as composite keys: their keys are all
different, or all the same, and then each list has a value with more colons than its counterpart in
the other. -/
theorem values_share_all_keys_or_none (space : KeyLayout) (table index sql : String)
    (length : xs.length = ys.length) (differ : xs ≠ ys) :
    (space.resultKey table sql (xs.map .text) ≠ space.resultKey table sql (ys.map .text) ∧
      flightName table sql (xs.map .text) ≠ flightName table sql (ys.map .text) ∧
      space.rowKey table ⟨xs⟩ ≠ space.rowKey table ⟨ys⟩ ∧
      space.indexKey table index ⟨xs⟩ ≠ space.indexKey table index ⟨ys⟩) ∨
    (space.resultKey table sql (xs.map .text) = space.resultKey table sql (ys.map .text) ∧
      flightName table sql (xs.map .text) = flightName table sql (ys.map .text) ∧
      space.rowKey table ⟨xs⟩ = space.rowKey table ⟨ys⟩ ∧
      space.indexKey table index ⟨xs⟩ = space.indexKey table index ⟨ys⟩ ∧
      MoreColonsSomewhere xs ys ∧ MoreColonsSomewhere ys xs) := by
  simp only [ne_eq, resultKey_eq_iff space table sql length, flightName_eq_iff table sql length,
    rowKey_eq_iff, indexKey_eq_iff]
  by_cases same : joined xs = joined ys
  · obtain ⟨hmore, hfewer⟩ := moreColonsSomewhere_of_joined length differ same
    exact .inr ⟨same, same, same, same, hmore, hfewer⟩
  · exact .inl ⟨same, same, same, same⟩

/-- Both lists have a value with more colons than its counterpart, but they do not read the same. -/
theorem shifted_colon_with_other_rest :
    ["a:b", "c"].length = ["a", "b:d"].length ∧ ["a:b", "c"] ≠ ["a", "b:d"] ∧
    KeyLayout.resultKey ⟨"a"⟩ "users" "select" (["a:b", "c"].map .text) ≠
      KeyLayout.resultKey ⟨"a"⟩ "users" "select" (["a", "b:d"].map .text) ∧
    flightName "users" "select" (["a:b", "c"].map .text) ≠
      flightName "users" "select" (["a", "b:d"].map .text) ∧
    KeyLayout.rowKey ⟨"a"⟩ "users" ⟨["a:b", "c"]⟩ ≠ KeyLayout.rowKey ⟨"a"⟩ "users" ⟨["a", "b:d"]⟩ ∧
    KeyLayout.indexKey ⟨"a"⟩ "users" "email" ⟨["a:b", "c"]⟩ ≠
      KeyLayout.indexKey ⟨"a"⟩ "users" "email" ⟨["a", "b:d"]⟩ := by
  have hlength : ["a:b", "c"].length = ["a", "b:d"].length := rfl
  have hdiffer : ["a:b", "c"] ≠ ["a", "b:d"] := by decide
  rcases values_share_all_keys_or_none ⟨"a"⟩ "users" "email" "select" hlength hdiffer with
    hapart | ⟨-, -, hshared, -⟩
  · exact ⟨hlength, hdiffer, hapart⟩
  · exact absurd ((rowKey_eq_iff _ _).mp hshared) (by decide)

/-- A colon that moves from one value to the next is not noticed. -/
theorem shifted_colon_shares_keys :
    ["a:b", "c"].length = ["a", "b:c"].length ∧ ["a:b", "c"] ≠ ["a", "b:c"] ∧
    KeyLayout.resultKey ⟨"a"⟩ "users" "select" (["a:b", "c"].map .text) =
      KeyLayout.resultKey ⟨"a"⟩ "users" "select" (["a", "b:c"].map .text) ∧
    flightName "users" "select" (["a:b", "c"].map .text) =
      flightName "users" "select" (["a", "b:c"].map .text) ∧
    KeyLayout.rowKey ⟨"a"⟩ "users" ⟨["a:b", "c"]⟩ = KeyLayout.rowKey ⟨"a"⟩ "users" ⟨["a", "b:c"]⟩ ∧
    KeyLayout.indexKey ⟨"a"⟩ "users" "email" ⟨["a:b", "c"]⟩ =
      KeyLayout.indexKey ⟨"a"⟩ "users" "email" ⟨["a", "b:c"]⟩ := by
  have hlength : ["a:b", "c"].length = ["a", "b:c"].length := rfl
  have hsame : joined ["a:b", "c"] = joined ["a", "b:c"] := by decide
  exact ⟨hlength, by decide, (resultKey_eq_iff _ _ _ hlength).mpr hsame,
    (flightName_eq_iff _ _ hlength).mpr hsame, (rowKey_eq_iff _ _).mpr hsame,
    (indexKey_eq_iff _ _ _).mpr hsame⟩

end KeyLayout

end ReadThrough
