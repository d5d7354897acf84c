import Mathlib
import ReadThrough.KeyLayout

/-! # The order of columns

A key that is given as named values takes them in the order of the column names, so callers need not know the
declared order, nor agree on one. Names are compared byte by byte.

* `bytes` are the bytes of a text, and `bytes_lt_iff` says that they compare like the text itself: the
  encoding of characters keeps their order, and no character's bytes begin those of another (`Encoded.lt`);
* `GivenLast` is the value that counts for a column, `Arranges` says that a list holds just these, by name;
* `arranges_collected`: this is what a key of columns is made of, and `Arranges.perm` that nothing is lost if
  no column is repeated;
* `columns_stand_in_name_order` is the theorem.
-/

namespace ReadThrough
set_option autoImplicit false

/-! ## Bytes in order -/

/-- The bytes of a text in UTF-8. -/
def bytes (text : String) : List UInt8 := text.toUTF8.data.toList

/-- The bytes of a code point, by the four ranges that it can lie in. -/
inductive Encoded (v : Nat) : List UInt8 → Prop
  | one (high : v ≤ 127) : Encoded v [.ofNat v]
  | two (low : 127 < v) (high : v ≤ 2047) : Encoded v [.ofNat (v / 64 % 32 + 192), .ofNat (v % 64 + 128)]
  | three (low : 2047 < v) (high : v ≤ 65535) :
    Encoded v [.ofNat (v / 4096 % 16 + 224), .ofNat (v / 64 % 64 + 128), .ofNat (v % 64 + 128)]
  | four (low : 65535 < v) (high : v < 1114112) :
    Encoded v [.ofNat (v / 262144 % 8 + 240), .ofNat (v / 4096 % 64 + 128), .ofNat (v / 64 % 64 + 128),
      .ofNat (v % 64 + 128)]

theorem encoded (c : Char) : Encoded c.val.toNat (String.utf8EncodeChar c) := by
  have hmax : c.val.toNat < 1114112 := by
    rcases c.valid with hlow | ⟨-, hhigh⟩
    · exact Nat.lt_trans hlow (by decide)
    · exact hhigh
  simp only [String.utf8EncodeChar]
  generalize c.val.toNat = v at hmax ⊢
  split
  · rename_i hone
    exact .one hone
  split
  · exact .two (by omega) (by omega)
  split
  · exact .three (by omega) (by omega)
  · exact .four (by omega) hmax

theorem ofNat_eq_ofNat {m n : Nat} (hm : m < 256) (hn : n < 256) : UInt8.ofNat m = UInt8.ofNat n ↔ m = n := by
  rw [← UInt8.toNat_inj, UInt8.toNat_ofNat_of_lt' hm, UInt8.toNat_ofNat_of_lt' hn]

/-- The bytes of a smaller code point come first, whatever follows them. -/
theorem Encoded.lt {v v' : Nat} {l l' : List UInt8} (h : Encoded v l) (h' : Encoded v' l') (lt : v < v')
    (xs ys : List UInt8) : l ++ xs < l' ++ ys := by
  have hparts : ∀ n : Nat, n < 1114112 →
      n = 262144 * (n / 262144 % 8) + 4096 * (n / 4096 % 64) + 64 * (n / 64 % 64) + n % 64 := by
    intro n hn
    omega
  have hbyte : ∀ m n : Nat, m < 256 → n < 256 → (UInt8.ofNat m < UInt8.ofNat n ↔ m < n) :=
    fun _ _ => UInt8.ofNat_lt_iff_lt
  -- either the first bytes differ already, or the numbers differ in one of the places
  cases h <;> cases h' <;>
    simp (disch := omega) only [List.cons_append, List.nil_append, List.cons_lt_cons_iff, hbyte,
      ofNat_eq_ofNat] <;>
    generalize (xs < ys) = rest
  case four.four hv _ hv' =>
    have hleft := hparts v hv
    have hright := hparts v' hv'
    omega
  all_goals omega

theorem bytes_eq (text : String) : bytes text = text.toList.flatMap String.utf8EncodeChar := by
  rw [bytes, String.toUTF8, ← String.utf8Encode_toList, List.utf8Encode, List.data_toByteArray]

theorem flatMap_lt {l l' : List Char} (lt : l < l') :
    l.flatMap String.utf8EncodeChar < l'.flatMap String.utf8EncodeChar := by
  induction l generalizing l' with
  | nil =>
    cases l' with
    | nil => exact absurd lt (List.lt_irrefl [])
    | cons c rest =>
      obtain ⟨first, others, hbytes⟩ := List.exists_cons_of_ne_nil (String.utf8EncodeChar_ne_nil (c := c))
      rw [List.flatMap_cons, hbytes]
      exact List.nil_lt_cons _ _
  | cons c rest ih =>
    cases l' with
    | nil => exact absurd lt (List.not_lt_nil _)
    | cons c' rest' =>
      rw [List.flatMap_cons, List.flatMap_cons]
      rcases List.cons_lt_cons_iff.mp lt with hlt | ⟨rfl, hrest⟩
      · exact (encoded c).lt (encoded c') hlt _ _
      · exact List.append_left_lt (ih hrest)

/-- Texts compare like their bytes. -/
theorem bytes_lt_iff {a b : String} : bytes a < bytes b ↔ a < b := by
  have hmono : ∀ {a b : String}, a < b → bytes a < bytes b := by
    intro a b lt
    rw [bytes_eq, bytes_eq]
    exact flatMap_lt (String.lt_iff_toList_lt.mp lt)
  constructor
  · intro lt
    rcases lt_trichotomy a b with hlt | rfl | hgt
    · exact hlt
    · exact absurd lt (List.lt_irrefl _)
    · exact absurd lt (List.lt_asymm (hmono hgt))
  · exact hmono

/-! ## Values by column -/

namespace CompositeKey

variable {columns sorted : List (String × String)} {name value : String}

/-- The value is the last one that was given for this column. -/
def GivenLast (columns : List (String × String)) (name value : String) : Prop :=
  ∃ earlier later, columns = earlier ++ (name, value) :: later ∧ ∀ column ∈ later, column.1 ≠ name

theorem givenLast_concat {last : String × String} :
    GivenLast (columns ++ [last]) name value ↔
      last = (name, value) ∨ last.1 ≠ name ∧ GivenLast columns name value := by
  constructor
  · rintro ⟨earlier, later, hsplit, hlater⟩
    rcases List.eq_nil_or_concat' later with rfl | ⟨front, final, rfl⟩
    · exact .inl (List.append_inj_right' hsplit rfl |> List.singleton_inj.mp)
    · rw [← List.cons_append, ← List.append_assoc] at hsplit
      obtain ⟨hfront, hfinal⟩ := List.append_inj' hsplit rfl
      obtain rfl := List.singleton_inj.mp hfinal
      exact .inr ⟨hlater last (by simp), earlier, front, hfront,
        fun column hmem => hlater column (List.mem_append_left _ hmem)⟩
  · rintro (rfl | ⟨hne, earlier, later, rfl, hlater⟩)
    · exact ⟨columns, [], rfl, fun column hmem => absurd hmem (List.not_mem_nil)⟩
    · refine ⟨earlier, later ++ [last], by simp, fun column hmem => ?_⟩
      rcases List.mem_append.mp hmem with hbefore | hlast
      · exact hlater column hbefore
      · exact List.mem_singleton.mp hlast ▸ hne

theorem exists_givenLast_iff : (∃ value, GivenLast columns name value) ↔ name ∈ columns.map Prod.fst := by
  induction columns using List.reverseRecOn with
  | nil =>
    constructor
    · rintro ⟨value, earlier, later, hsplit, -⟩
      exact absurd hsplit.symm (by simp)
    · intro hmem
      cases hmem
  | append_singleton columns last ih =>
    simp only [givenLast_concat, exists_or, exists_and_left, ih, List.map_append, List.mem_append,
      List.map_cons, List.map_nil, List.mem_singleton]
    constructor
    · rintro (⟨value, rfl⟩ | ⟨-, hmem⟩)
      · exact .inr rfl
      · exact .inl hmem
    · intro hmem
      by_cases hname : last.1 = name
      · exact .inl ⟨last.2, Prod.ext hname rfl⟩
      · exact .inr ⟨hname, hmem.resolve_right (Ne.symm hname)⟩

/-- If no column is repeated, every value given is the last one. -/
theorem givenLast_iff_mem (distinct : (columns.map Prod.fst).Nodup) :
    GivenLast columns name value ↔ (name, value) ∈ columns := by
  constructor
  · rintro ⟨earlier, later, rfl, -⟩
    simp
  · intro hmem
    obtain ⟨earlier, later, rfl⟩ := List.append_of_mem hmem
    refine ⟨earlier, later, rfl, fun column hcolumn hname => ?_⟩
    rw [List.map_append, List.map_cons] at distinct
    have hlater := (List.nodup_cons.mp (List.nodup_append.mp distinct).2.1).1
    exact hlater (List.mem_map.mpr ⟨column, hcolumn, hname⟩)

/-! ## The arranged columns -/

/-- The list has the value given last for each column, in increasing byte order of the names. -/
structure Arranges (columns sorted : List (String × String)) : Prop where
  ascending : sorted.Pairwise fun column later => bytes column.1 < bytes later.1
  last : ∀ name value, (name, value) ∈ sorted ↔ GivenLast columns name value

theorem Arranges.nodup_names (h : Arranges columns sorted) : (sorted.map Prod.fst).Nodup := by
  rw [List.Nodup, List.pairwise_map]
  refine h.ascending.imp fun hlt hsame => ?_
  rw [hsame] at hlt
  exact List.lt_irrefl _ hlt

/-- There is one value for each of the columns. -/
theorem Arranges.length_eq (h : Arranges columns sorted) :
    sorted.length = (columns.map Prod.fst).toFinset.card := by
  have hnames : (sorted.map Prod.fst).toFinset = (columns.map Prod.fst).toFinset := by
    ext name
    have hgiven : (∃ value, GivenLast columns name value) ↔ name ∈ columns.map Prod.fst := exists_givenLast_iff
    rw [List.mem_toFinset, List.mem_toFinset, ← hgiven]
    simp [h.last]
  rw [← hnames, List.toFinset_card_of_nodup h.nodup_names, List.length_map]

theorem Arranges.perm (h : Arranges columns sorted) (distinct : (columns.map Prod.fst).Nodup) :
    sorted.Perm columns := by
  rw [List.perm_ext_iff_of_nodup (List.Nodup.of_map _ h.nodup_names) (List.Nodup.of_map _ distinct)]
  rintro ⟨name, value⟩
  rw [h.last, givenLast_iff_mem distinct]

/-- Columns can be arranged in one way only. -/
theorem Arranges.unique {sorted' : List (String × String)} (h : Arranges columns sorted)
    (h' : Arranges columns sorted') : sorted = sorted' := by
  refine List.Perm.eq_of_pairwise (fun column later _ _ hlt hgt => ?_) h.ascending h'.ascending ?_
  · exact absurd hgt (List.lt_asymm hlt)
  · rw [List.perm_ext_iff_of_nodup (List.Nodup.of_map _ h.nodup_names) (List.Nodup.of_map _ h'.nodup_names)]
    rintro ⟨name, value⟩
    rw [h.last, h'.last]

theorem Arranges.congr {other : List (String × String)} (h : Arranges columns sorted)
    (distinct : (columns.map Prod.fst).Nodup) (perm : other.Perm columns) : Arranges other sorted where
  ascending := h.ascending
  last name value := by
    have hother : (other.map Prod.fst).Nodup := (perm.map Prod.fst).nodup_iff.mpr distinct
    rw [h.last, givenLast_iff_mem distinct, givenLast_iff_mem hother, perm.mem_iff]

/-! ## Keys of columns -/

/-- The values by column name, as they are collected one after another. -/
def collected (columns : List (String × String)) : Std.TreeMap String String :=
  columns.foldl (fun sorted column => sorted.insert column.1 column.2) ∅

theorem values_ofColumns (columns : List (String × String)) :
    (ofColumns columns).values = (collected columns).toList.map Prod.snd := rfl

theorem getElem?_collected : (collected columns)[name]? = some value ↔ GivenLast columns name value := by
  induction columns using List.reverseRecOn with
  | nil =>
    have hnone : ¬ GivenLast [] name value := by
      rintro ⟨earlier, later, hsplit, -⟩
      exact absurd hsplit.symm (by simp)
    simp [collected, hnone]
  | append_singleton columns last ih =>
    have hinsert : collected (columns ++ [last]) = (collected columns).insert last.1 last.2 :=
      List.foldl_append
    rw [hinsert, givenLast_concat, ← ih, Std.TreeMap.getElem?_insert]
    by_cases hname : last.1 = name
    · simp [hname, Prod.ext_iff]
    · simp [hname, Prod.ext_iff]

theorem arranges_collected (columns : List (String × String)) :
    Arranges columns (collected columns).toList where
  ascending := by
    refine Std.TreeMap.ordered_keys_toList.imp fun hcompare => ?_
    exact bytes_lt_iff.mpr (compare_lt_iff_lt.mp hcompare)
  last name value := by
    rw [Std.TreeMap.mem_toList_iff_getElem?_eq_some, getElem?_collected]

/-- A key of columns has the value given last for each of them, in increasing byte order of the names, and no
other. If no column is repeated, any other order of the same columns gives the same key, the values by name, and
with it the same keys in the store. -/
theorem columns_stand_in_name_order (columns : List (String × String)) :
    (∃ sorted, Arranges columns sorted ∧ (ofColumns columns).values = sorted.map Prod.snd) ∧
    (ofColumns columns).values.length = (columns.map Prod.fst).toFinset.card ∧
    ((columns.map Prod.fst).Nodup → ∀ other : List (String × String), other.Perm columns →
      ofColumns other = ofColumns columns ∧
      (∃ sorted : List (String × String), sorted.Perm columns ∧
        (sorted.Pairwise fun column later => bytes column.1 < bytes later.1) ∧
        (ofColumns other).values = sorted.map Prod.snd) ∧
      ∀ (space : KeyLayout) (table index : String),
        space.rowKey table (ofColumns other) = space.rowKey table (ofColumns columns) ∧
        space.indexKey table index (ofColumns other) = space.indexKey table index (ofColumns columns)) := by
  have harranged := arranges_collected columns
  refine ⟨⟨_, harranged, values_ofColumns columns⟩, ?_, fun distinct other perm => ?_⟩
  · rw [values_ofColumns, List.length_map, harranged.length_eq]
  · have hsame : (ofColumns other).values = (ofColumns columns).values := by
      rw [values_ofColumns, values_ofColumns,
        (arranges_collected other).unique (harranged.congr distinct perm)]
    have hkey : ofColumns other = ofColumns columns := congrArg CompositeKey.mk hsame
    refine ⟨hkey, ⟨_, harranged.perm distinct, harranged.ascending, ?_⟩, fun space table index => ?_⟩
    · rw [hsame, values_ofColumns]
    · rw [hkey]
      exact ⟨rfl, rfl⟩

/-- Whoever names the user first means the same key: the order comes before the user. -/
theorem order_stands_before_user :
    ([("order_id", "2"), ("user_id", "1")].map Prod.fst).Nodup ∧
    [("user_id", "1"), ("order_id", "2")].Perm [("order_id", "2"), ("user_id", "1")] ∧
    ofColumns [("user_id", "1"), ("order_id", "2")] = ofColumns [("order_id", "2"), ("user_id", "1")] ∧
    (ofColumns [("user_id", "1"), ("order_id", "2")]).text = "2:1" := by
  have distinct : ([("order_id", "2"), ("user_id", "1")].map Prod.fst).Nodup := by decide
  have perm : [("user_id", "1"), ("order_id", "2")].Perm [("order_id", "2"), ("user_id", "1")] :=
    .swap _ _ _
  obtain ⟨-, -, hsame⟩ := columns_stand_in_name_order [("order_id", "2"), ("user_id", "1")]
  exact ⟨distinct, perm, (hsame distinct _ perm).1, by cbv⟩

end CompositeKey

end ReadThrough
