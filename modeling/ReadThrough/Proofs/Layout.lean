import ReadThrough.KeyLayout
import ReadThrough.Query
import ReadThrough.SearchEntry

/-! # Keys and stored texts can be told apart

All keys of a layout have the form `id:n:table:rest`, where `n` is the letter of a namespace. If
table names are free of colons, a key lies under the prefix of just one namespace and one table, and
identical flights are identical reads. A stored search result gives back what it was made of.
-/

namespace ReadThrough
set_option autoImplicit false

/-! ## Colons -/

def ColonFree (text : String) : Prop := ':' ∉ text.toList

instance (text : String) : Decidable (ColonFree text) :=
  inferInstanceAs (Decidable (':' ∉ text.toList))

/-- Up to the first colon, texts can be compared. -/
theorem eq_of_prefix_colon {a b rest : List Char} (ha : ':' ∉ a) (hb : ':' ∉ b)
    (h : a ++ [':'] <+: b ++ ':' :: rest) : a = b := by
  induction a generalizing b with
  | nil =>
    cases b with
    | nil => rfl
    | cons y b =>
      have hy : ':' = y := (List.cons_prefix_cons.mp h).1
      exact absurd (hy ▸ List.mem_cons_self) hb
  | cons x a ih =>
    cases b with
    | nil =>
      have hx : x = ':' := (List.cons_prefix_cons.mp h).1
      exact absurd (hx ▸ List.mem_cons_self) ha
    | cons y b =>
      obtain ⟨hxy, hrest⟩ := List.cons_prefix_cons.mp h
      have hab : a = b :=
        ih (fun hm => ha (List.mem_cons_of_mem x hm)) (fun hm => hb (List.mem_cons_of_mem y hm)) hrest
      rw [hxy, hab]

/-- A text up to a colon is known by the number of colons in it. -/
theorem eq_of_append_colon {a b rest rest' : List Char} (same : a ++ ':' :: rest = b ++ ':' :: rest')
    (count : a.count ':' = b.count ':') : a = b ∧ rest = rest' := by
  rcases List.append_eq_append_iff.mp same with ⟨middle, hb, hrest⟩ | ⟨middle, ha, hrest⟩
  · cases middle with
    | nil => simp_all
    | cons c middle =>
      obtain ⟨rfl, -⟩ : ':' = c ∧ rest = middle ++ ':' :: rest' := by simpa using hrest
      rw [hb, List.count_append, List.count_cons_self] at count
      omega
  · cases middle with
    | nil => simp_all
    | cons c middle =>
      obtain ⟨rfl, -⟩ : ':' = c ∧ rest' = middle ++ ':' :: rest := by simpa using hrest
      rw [ha, List.count_append, List.count_cons_self] at count
      omega

theorem eq_of_append_colonFree {a b rest rest' : List Char} (ha : ':' ∉ a) (hb : ':' ∉ b)
    (same : a ++ ':' :: rest = b ++ ':' :: rest') : a = b ∧ rest = rest' :=
  eq_of_append_colon same (by rw [List.count_eq_zero.mpr ha, List.count_eq_zero.mpr hb])

/-! ## Prefixes of namespaces -/

theorem isUnder_iff {key segments : String} :
    isUnder key segments ↔ segments.toList ++ [':'] <+: key.toList := by
  rw [isUnder, List.isPrefixOf_iff_prefix]

namespace KeyLayout

/-- What the keys of all unique indexes of a table lie under. -/
def uniquesOf (space : KeyLayout) (table : String) : String := space.id ++ ":u:" ++ table

/-- A key of the namespace with this letter, as a list of characters. -/
def inNamespace (space : KeyLayout) (letter : Char) (table rest : List Char) : List Char :=
  space.id.toList ++ (':' :: letter :: ':' :: (table ++ ':' :: rest))

theorem isUnder_inNamespace {space : KeyLayout} {letter letter' : Char} {table table' : String}
    {rest : List Char} {key segments : String}
    (hkey : key.toList = space.inNamespace letter table.toList rest)
    (hsegments : segments.toList = space.id.toList ++ (':' :: letter' :: ':' :: table'.toList))
    (free : ColonFree table) (free' : ColonFree table') :
    isUnder key segments ↔ letter' = letter ∧ table' = table := by
  rw [isUnder_iff, hkey, hsegments, inNamespace, List.append_assoc, List.prefix_append_right_inj]
  simp only [List.cons_append, List.cons_prefix_cons, true_and]
  constructor
  · rintro ⟨hletter, htable⟩
    exact ⟨hletter, String.ext (eq_of_prefix_colon free' free htable)⟩
  · rintro ⟨hletter, htable⟩
    refine ⟨hletter, ?_⟩
    rw [htable]
    exact ⟨rest, by simp⟩

variable {space : KeyLayout} {table table' : String}

theorem rowsOf_toList (space : KeyLayout) (table : String) :
    (space.rowsOf table).toList = space.id.toList ++ (':' :: 'p' :: ':' :: table.toList) := by
  simp [rowsOf, String.toList_append]

theorem uniquesOf_toList (space : KeyLayout) (table : String) :
    (space.uniquesOf table).toList = space.id.toList ++ (':' :: 'u' :: ':' :: table.toList) := by
  simp [uniquesOf, String.toList_append]

theorem resultsOf_toList (space : KeyLayout) (table : String) :
    (space.resultsOf table).toList = space.id.toList ++ (':' :: 's' :: ':' :: table.toList) := by
  simp [resultsOf, String.toList_append]

theorem rowKey_toList (space : KeyLayout) (table : String) (key : CompositeKey) :
    (space.rowKey table key).toList = space.inNamespace 'p' table.toList key.text.toList := by
  simp [rowKey, rowsOf, inNamespace, String.toList_append]

theorem indexKey_toList (space : KeyLayout) (table index : String) (key : CompositeKey) :
    (space.indexKey table index key).toList =
      space.inNamespace 'u' table.toList (index.toList ++ ':' :: key.text.toList) := by
  simp [indexKey, indexOf, inNamespace, String.toList_append]

theorem resultKey_toList (space : KeyLayout) (table sql : String) (params : List Param) :
    (space.resultKey table sql params).toList =
      space.inNamespace 's' table.toList (searchText sql params).toList := by
  simp [resultKey, resultsOf, inNamespace, String.toList_append]

theorem isUnder_indexOf (space : KeyLayout) (table index : String) (key : CompositeKey) :
    isUnder (space.indexKey table index key) (space.indexOf table index) := by
  rw [isUnder_iff]
  simp [indexKey, String.toList_append]

theorem isUnder_uniquesOf (space : KeyLayout) (table index : String) (key : CompositeKey) :
    isUnder (space.indexKey table index key) (space.uniquesOf table) := by
  rw [isUnder_iff, uniquesOf_toList, indexKey_toList, inNamespace]
  simp

theorem isUnder_rowsOf (space : KeyLayout) (table : String) (key : CompositeKey) :
    isUnder (space.rowKey table key) (space.rowsOf table) := by
  rw [isUnder_iff]
  simp [rowKey, String.toList_append]

theorem isUnder_resultsOf (space : KeyLayout) (table sql : String) (params : List Param) :
    isUnder (space.resultKey table sql params) (space.resultsOf table) := by
  rw [isUnder_iff]
  simp [resultKey, String.toList_append]

theorem isUnder_id (space : KeyLayout) (table sql : String) (params : List Param) :
    isUnder (space.resultKey table sql params) space.id := by
  rw [isUnder_iff, resultKey_toList, inNamespace]
  simp

/-- Search keys of one table are equal only if query text and parameters read the same. -/
theorem searchText_of_resultKey {sql sql' : String} {params params' : List Param}
    (h : space.resultKey table sql params = space.resultKey table sql' params') :
    searchText sql params = searchText sql' params' := by
  have hlist := congrArg String.toList h
  simp only [resultKey_toList, inNamespace, List.append_cancel_left_eq, List.cons.injEq,
    true_and] at hlist
  exact String.ext hlist

/-- Keys of rows of one table are equal only if the primary keys read the same. -/
theorem text_of_rowKey {key key' : CompositeKey} (h : space.rowKey table key = space.rowKey table key') :
    key.text = key'.text := by
  have hlist := congrArg String.toList h
  simp only [rowKey_toList, inNamespace, List.append_cancel_left_eq, List.cons.injEq, true_and] at hlist
  exact String.ext hlist

/-- Keys under the indexes of one table are equal only if the index reads the same together with the key. -/
theorem text_of_indexKey {index index' : String} {key key' : CompositeKey}
    (h : space.indexKey table index key = space.indexKey table index' key') :
    index ++ ":" ++ key.text = index' ++ ":" ++ key'.text := by
  have hlist := congrArg String.toList h
  simp only [indexKey_toList, inNamespace, List.append_cancel_left_eq, List.cons.injEq, true_and] at hlist
  exact String.ext (by simpa [String.toList_append] using hlist)

/-- Search keys are equal only for equal flight keys. -/
theorem flightName_of_resultKey {sql sql' : String} {params params' : List Param}
    (h : space.resultKey table sql params = space.resultKey table' sql' params') :
    flightName table sql params = flightName table' sql' params' := by
  have hlist := congrArg String.toList h
  simp only [resultKey_toList, inNamespace, List.append_cancel_left_eq, List.cons.injEq,
    true_and] at hlist
  exact String.ext (by simpa [flightName, String.toList_append] using hlist)

/-- Keys of different namespaces are different, whatever the tables. -/
theorem letter_of_inNamespace {letter letter' : Char} {table table' rest rest' : List Char}
    (h : space.inNamespace letter table rest = space.inNamespace letter' table' rest') :
    letter = letter' := by
  simp only [inNamespace, List.append_cancel_left_eq, List.cons.injEq, true_and] at h
  exact h.1

theorem rowKey_ne_resultKey (key : CompositeKey) (sql : String) (params : List Param) :
    space.rowKey table key ≠ space.resultKey table' sql params := by
  intro h
  have hlist := congrArg String.toList h
  rw [rowKey_toList, resultKey_toList] at hlist
  exact absurd (letter_of_inNamespace hlist) (by decide)

theorem indexKey_ne_resultKey (index : String) (key : CompositeKey) (sql : String)
    (params : List Param) : space.indexKey table index key ≠ space.resultKey table' sql params := by
  intro h
  have hlist := congrArg String.toList h
  rw [indexKey_toList, resultKey_toList] at hlist
  exact absurd (letter_of_inNamespace hlist) (by decide)

theorem rest_of_inNamespace {letter : Char} {table table' : String} {rest rest' : List Char}
    (free : ColonFree table) (free' : ColonFree table')
    (h : space.inNamespace letter table.toList rest = space.inNamespace letter table'.toList rest') :
    table = table' ∧ rest = rest' := by
  simp only [inNamespace, List.append_cancel_left_eq, List.cons.injEq, true_and] at h
  obtain ⟨htable, hrest⟩ := eq_of_append_colonFree free free' h
  exact ⟨String.ext htable, hrest⟩

theorem of_rowKey {key key' : CompositeKey} (free : ColonFree table) (free' : ColonFree table')
    (h : space.rowKey table key = space.rowKey table' key') : table = table' ∧ key.text = key'.text := by
  have hlist := congrArg String.toList h
  rw [rowKey_toList, rowKey_toList] at hlist
  obtain ⟨htable, htext⟩ := rest_of_inNamespace free free' hlist
  exact ⟨htable, String.ext htext⟩

theorem of_indexKey {index index' : String} {key key' : CompositeKey} (free : ColonFree table)
    (free' : ColonFree table') (freeIndex : ColonFree index) (freeIndex' : ColonFree index')
    (h : space.indexKey table index key = space.indexKey table' index' key') :
    table = table' ∧ index = index' ∧ key.text = key'.text := by
  have hlist := congrArg String.toList h
  rw [indexKey_toList, indexKey_toList] at hlist
  obtain ⟨htable, hrest⟩ := rest_of_inNamespace free free' hlist
  obtain ⟨hindex, htext⟩ := eq_of_append_colonFree freeIndex freeIndex' hrest
  exact ⟨htable, String.ext hindex, String.ext htext⟩

theorem of_resultKey {sql sql' : String} {params params' : List Param} (free : ColonFree table)
    (free' : ColonFree table')
    (h : space.resultKey table sql params = space.resultKey table' sql' params') : table = table' := by
  have hlist := congrArg String.toList h
  rw [resultKey_toList, resultKey_toList] at hlist
  exact (rest_of_inNamespace free free' hlist).1

theorem rowKey_ne_indexKey (key : CompositeKey) (index : String) (unique : CompositeKey) :
    space.rowKey table key ≠ space.indexKey table' index unique := by
  intro h
  have hlist := congrArg String.toList h
  rw [rowKey_toList, indexKey_toList] at hlist
  exact absurd (letter_of_inNamespace hlist) (by decide)

end KeyLayout

/-- Flight keys are equal only for the same table and the same query text and parameters. -/
theorem of_flightName {query query' : Query} (free : ColonFree query.table)
    (free' : ColonFree query'.table) (h : query.flightName = query'.flightName) :
    query.table = query'.table ∧
      searchText query.sql query.params = searchText query'.sql query'.params := by
  have hlist : query.table.toList ++ ':' :: (searchText query.sql query.params).toList =
      query'.table.toList ++ ':' :: (searchText query'.sql query'.params).toList := by
    have htext := congrArg String.toList h
    simpa [Query.flightName, flightName, String.toList_append] using htext
  have hprefix : query.table.toList ++ [':'] <+:
      query'.table.toList ++ ':' :: (searchText query'.sql query'.params).toList :=
    ⟨(searchText query.sql query.params).toList, by simpa using hlist⟩
  have htable := eq_of_prefix_colon free free' hprefix
  rw [htable, List.append_cancel_left_eq, List.cons.injEq] at hlist
  exact ⟨String.ext htable, String.ext hlist.2⟩

/-! ## Search results -/

namespace SearchEntry

theorem count?_toString (n : UInt64) : count? (toString n.toNat).toList = some n := by
  have hdigits : (toString n.toNat).toList = Nat.toDigits 10 n.toNat := by
    rw [Nat.toString_eq_repr, Nat.toList_repr]
  have hall : ∀ c ∈ Nat.toDigits 10 n.toNat, c.isDigit = true := fun c hc =>
    Nat.isDigit_of_mem_toDigits (by decide) (by decide) hc
  have hvalue : Text.valueOfDigits (Nat.toDigits 10 n.toNat) = n.toNat := by
    rw [Text.valueOfDigits, ← Nat.ofDigitChars_eq_foldl, Nat.ofDigitChars_ten_toDigits]
  have hread : Text.natOfDigits? (Nat.toDigits 10 n.toNat) = some n.toNat := by
    have hne : (Nat.toDigits 10 n.toNat).isEmpty = false := by
      rw [List.isEmpty_eq_false_iff]
      exact Nat.toDigits_ne_nil
    rw [Text.natOfDigits?, hne, List.all_eq_true.mpr hall, hvalue]
    rfl
  have hsigned : Text.natOfSigned? (Nat.toDigits 10 n.toNat) = some n.toNat := by
    unfold Text.natOfSigned?
    split
    · rename_i digits hplus
      have hdigit := hall '+' (hplus ▸ List.mem_cons_self)
      exact absurd hdigit (by decide)
    · exact hread
  have hlt : n.toNat < 18446744073709551616 := n.toNat_lt
  rw [count?, hdigits, hsigned]
  simp [hlt]

theorem decode?_encode (rowsAffected : UInt64) (payload : String) :
    decode? (encode rowsAffected payload) = some (rowsAffected, payload) := by
  have hlist : (encode rowsAffected payload).toList =
      (toString rowsAffected.toNat).toList ++ '|' :: payload.toList := by
    simp [encode, String.toList_append]
  have hbar : ∀ c ∈ (toString rowsAffected.toNat).toList, (c != '|') = true := by
    intro c hc
    rw [Nat.toString_eq_repr, Nat.toList_repr] at hc
    have hdigit : c.isDigit = true := Nat.isDigit_of_mem_toDigits (by decide) (by decide) hc
    rw [bne_iff_ne]
    rintro rfl
    exact absurd hdigit (by decide)
  have htake : (encode rowsAffected payload).toList.takeWhile (· != '|') =
      (toString rowsAffected.toNat).toList := by
    rw [hlist, List.takeWhile_append_of_pos hbar]
    simp
  have hdrop : (encode rowsAffected payload).toList.dropWhile (· != '|') = '|' :: payload.toList := by
    rw [hlist, List.dropWhile_append_of_pos hbar]
    simp
  simp only [decode?, hdrop, htake, count?_toString, String.ofList_toList]

theorem encode_ne_absenceMark (rowsAffected : UInt64) (payload : String) :
    encode rowsAffected payload ≠ absenceMark := by
  intro h
  have hnone : decode? absenceMark = none := by decide
  rw [← h, decode?_encode] at hnone
  cases hnone

end SearchEntry

end ReadThrough
