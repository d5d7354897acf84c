import Mathlib.Logic.Basic
import ReadThrough.Cache

/-! # Keys looked up

A read that names keys may be answered by key, if it names any, and no more than one when it expects a
single row. Each key is looked up once, in the order in which it was named first.

* `CompositeKey.distinct_eq_eraseDups`: which keys are looked up;
* `Query.pointLookup?_eq_some`: when a read looks rows up;
* `Cache.pointKey` is the key of the store under which a row is looked up.
-/

namespace ReadThrough
set_option autoImplicit false

theorem CompositeKey.foldl_distinct (keys kept : List CompositeKey) :
    keys.foldl (fun kept key => if key ∈ kept then kept else kept ++ [key]) kept =
      kept ++ (keys.filter (· ∉ kept)).eraseDups := by
  induction keys generalizing kept with
  | nil => simp
  | cons key rest ih =>
    rw [List.foldl_cons]
    by_cases hkey : key ∈ kept
    · rw [if_pos hkey, ih]
      simp [hkey]
    · have hrest : rest.filter (· ∉ kept ++ [key]) =
          (rest.filter (· ∉ kept)).filter fun other => !other == key := by
        rw [List.filter_filter]
        refine List.filter_congr fun other _ => ?_
        rw [beq_eq_decide, ← decide_not, ← Bool.decide_and]
        simp [and_comm]
      rw [if_neg hkey, ih, hrest, List.filter_cons_of_pos (by simpa using hkey),
        List.eraseDups_cons, List.append_assoc]
      rfl

theorem CompositeKey.distinct_eq_eraseDups (keys : List CompositeKey) :
    CompositeKey.distinct keys = keys.eraseDups := by
  have hall : keys.filter (· ∉ ([] : List CompositeKey)) = keys := by simp
  rw [CompositeKey.distinct, CompositeKey.foldl_distinct, hall, List.nil_append]

namespace Lookup

def keys : Lookup → List CompositeKey
  | .primary keys | .unique _ keys => keys

theorem sought_eq (lookup : Lookup) : lookup.sought = lookup.keys.eraseDups := by
  cases lookup <;> exact CompositeKey.distinct_eq_eraseDups _

end Lookup

theorem Query.pointLookup?_eq_some {query : Query} {lookup : Lookup} {sought : List CompositeKey} :
    query.pointLookup? = some (lookup, sought) ↔
      query.lookup = some lookup ∧ sought = lookup.keys.eraseDups ∧ lookup.keys ≠ [] ∧
        (query.shape = .one → sought.length = 1) := by
  unfold Query.pointLookup?
  cases query.lookup with
  | none => simp
  | some asked =>
    have hnonempty : asked.keys.eraseDups = [] ↔ asked.keys = [] := by
      cases asked.keys <;> simp [List.eraseDups_cons]
    simp only [asked.sought_eq, Option.some.injEq]
    split
    · rename_i hrefused
      simp only [Bool.or_eq_true, List.isEmpty_iff, hnonempty, Bool.and_eq_true, beq_iff_eq, bne_iff_ne]
        at hrefused
      constructor
      · intro h
        cases h
      · rintro ⟨rfl, rfl, hne, hsingle⟩
        rcases hrefused with hempty | ⟨hone, hlength⟩
        · exact absurd hempty hne
        · exact absurd (hsingle hone) hlength
    · rename_i hadmitted
      simp only [Bool.or_eq_true, List.isEmpty_iff, hnonempty, Bool.and_eq_true, beq_iff_eq, bne_iff_ne, not_or,
        not_and, not_not] at hadmitted
      constructor
      · intro h
        obtain ⟨rfl, rfl⟩ := Prod.mk.inj (Option.some.inj h)
        exact ⟨rfl, rfl, hadmitted⟩
      · rintro ⟨rfl, rfl, -⟩
        rfl

theorem Query.sought_ne_nil {query : Query} {lookup : Lookup} {sought : List CompositeKey}
    (h : query.pointLookup? = some (lookup, sought)) : sought ≠ [] := by
  obtain ⟨-, rfl, hnonempty, -⟩ := Query.pointLookup?_eq_some.mp h
  intro hnone
  cases hkeys : lookup.keys with
  | nil => exact hnonempty hkeys
  | cons key rest => simp [hkeys, List.eraseDups_cons] at hnone

/-! ## Keys in the store -/

/-- The key under which a row is looked up. -/
def Cache.pointKey (c : Cache) (table : String) : Lookup → CompositeKey → String
  | .primary _, key => c.space.rowKey table key
  | .unique index _, key => c.space.indexKey table index key

theorem Cache.pointKeys_eq (c : Cache) (table : String) (lookup : Lookup) (sought : List CompositeKey) :
    c.pointKeys table lookup sought = sought.map (c.pointKey table lookup) := by
  cases lookup <;> rfl

@[simp]
theorem Cache.length_pointKeys {c : Cache} {table : String} {lookup : Lookup} {sought : List CompositeKey} :
    (c.pointKeys table lookup sought).length = sought.length := by
  rw [Cache.pointKeys_eq, List.length_map]

end ReadThrough
