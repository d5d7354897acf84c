import ReadThrough.Proofs.Layout
import ReadThrough.Remote.Glob

/-! # Patterns for the keys under a prefix

A remote store cannot sweep by prefix. It asks for the keys that match a pattern, and the pattern has to select
exactly the keys that a sweep in process would delete, whatever characters the prefix is made of.

* `Glob.Matches` says what patterns mean, and `Glob.matchesList_iff` that the matcher decides it;
* `Glob.matches_escape_append`: an escaped text stands for itself;
* `Glob.under_pattern_selects_keys_under` is the theorem.
-/

namespace ReadThrough.Glob
set_option autoImplicit false

/-! ## What patterns mean -/

/-- The character begins something other than itself: a star, a question mark, a class, or an escape. A backslash
at the end of a pattern has nothing to escape. -/
def Opens (c : Char) (pattern : List Char) : Prop :=
  c = '*' ∨ c = '?' ∨ c = '[' ∨ c = '\\' ∧ pattern ≠ []

/-- The pattern stands for the text, among others. -/
inductive Matches : (pattern text : List Char) → Prop
  | nil : Matches [] []
  | star {pattern text : List Char} (skipped : List Char) (rest : Matches pattern text) :
    Matches ('*' :: pattern) (skipped ++ text)
  | any {pattern text : List Char} (c : Char) (rest : Matches pattern text) :
    Matches ('?' :: pattern) (c :: text)
  | member {pattern text : List Char} {c : Char} (admitted : (classAdmits c pattern).1 = true)
      (rest : Matches (classAdmits c pattern).2 text) : Matches ('[' :: pattern) (c :: text)
  | escaped {pattern text : List Char} (c : Char) (rest : Matches pattern text) :
    Matches ('\\' :: c :: pattern) (c :: text)
  | plain {pattern text : List Char} {c : Char} (plain : ¬ Opens c pattern) (rest : Matches pattern text) :
    Matches (c :: pattern) (c :: text)

section

variable {c : Char} {pattern text : List Char}

theorem not_opens (star : c ≠ '*') (question : c ≠ '?') (bracket : c ≠ '[')
    (escape : ∀ d rest, c = '\\' → pattern = d :: rest → False) : ¬ Opens c pattern := by
  rintro (rfl | rfl | rfl | ⟨rfl, more⟩)
  · exact star rfl
  · exact question rfl
  · exact bracket rfl
  · obtain ⟨d, rest, rfl⟩ := List.exists_cons_of_ne_nil more
    exact escape d rest rfl rfl

theorem matches_nil_iff : Matches [] text ↔ text = [] := by
  constructor
  · rintro ⟨⟩
    rfl
  · rintro rfl
    exact .nil

theorem matches_star_iff :
    Matches ('*' :: pattern) text ↔ ∃ skipped rest, text = skipped ++ rest ∧ Matches pattern rest := by
  constructor
  · intro h
    cases h with
    | star skipped rest => exact ⟨skipped, _, rfl, rest⟩
    | plain plain => exact absurd (.inl rfl) plain
  · rintro ⟨skipped, rest, rfl, h⟩
    exact .star skipped h

theorem matches_any_iff :
    Matches ('?' :: pattern) text ↔ ∃ c rest, text = c :: rest ∧ Matches pattern rest := by
  constructor
  · intro h
    cases h with
    | any c rest => exact ⟨c, _, rfl, rest⟩
    | plain plain => exact absurd (.inr (.inl rfl)) plain
  · rintro ⟨c, rest, rfl, h⟩
    exact .any c h

theorem matches_class_iff :
    Matches ('[' :: pattern) text ↔ ∃ c rest, text = c :: rest ∧
      (classAdmits c pattern).1 = true ∧ Matches (classAdmits c pattern).2 rest := by
  constructor
  · intro h
    cases h with
    | member admitted rest => exact ⟨_, _, rfl, admitted, rest⟩
    | plain plain => exact absurd (.inr (.inr (.inl rfl))) plain
  · rintro ⟨c, rest, rfl, admitted, h⟩
    exact .member admitted h

theorem matches_escaped_iff :
    Matches ('\\' :: c :: pattern) text ↔ ∃ rest, text = c :: rest ∧ Matches pattern rest := by
  constructor
  · intro h
    cases h with
    | escaped _ rest => exact ⟨_, rfl, rest⟩
    | plain plain => exact absurd (.inr (.inr (.inr ⟨rfl, List.cons_ne_nil _ _⟩))) plain
  · rintro ⟨rest, rfl, h⟩
    exact .escaped c h

theorem matches_plain_iff (plain : ¬ Opens c pattern) :
    Matches (c :: pattern) text ↔ ∃ rest, text = c :: rest ∧ Matches pattern rest := by
  constructor
  · intro h
    cases h with
    | star => exact absurd (.inl rfl) plain
    | any => exact absurd (.inr (.inl rfl)) plain
    | member => exact absurd (.inr (.inr (.inl rfl))) plain
    | escaped => exact absurd (.inr (.inr (.inr ⟨rfl, List.cons_ne_nil _ _⟩))) plain
    | plain _ rest => exact ⟨_, rfl, rest⟩
  · rintro ⟨rest, rfl, h⟩
    exact .plain plain h

end

/-! ## The matcher -/

theorem anySuffix_iff {test : List Char → Bool} {text : List Char} :
    anySuffix test text = true ↔ ∃ skipped rest, text = skipped ++ rest ∧ test rest = true := by
  induction text with
  | nil => simp [anySuffix, and_assoc]
  | cons c text ih =>
    rw [anySuffix, Bool.or_eq_true, ih]
    constructor
    · rintro (hall | ⟨skipped, rest, rfl, hrest⟩)
      · exact ⟨[], c :: text, rfl, hall⟩
      · exact ⟨c :: skipped, rest, rfl, hrest⟩
    · rintro ⟨skipped, rest, hsplit, hrest⟩
      cases skipped with
      | nil =>
        obtain rfl : c :: text = rest := hsplit
        exact .inl hrest
      | cons d skipped =>
        obtain ⟨-, rfl⟩ := List.cons.inj hsplit
        exact .inr ⟨skipped, rest, rfl, hrest⟩

theorem length_classHolds_le (c : Char) (pattern : List Char) (found : Bool) :
    (classHolds c pattern found).2.length ≤ pattern.length := by
  fun_induction classHolds c pattern found with
  | case1 => exact Nat.le_refl 0
  | case2 => exact Nat.le_succ _
  | case3 d rest found ih => exact Nat.le_trans ih (Nat.le_add_right _ 2)
  | case4 low high rest found _ _ ih => exact Nat.le_trans ih (Nat.le_add_right _ 3)
  | case5 d rest found _ _ _ ih => exact Nat.le_trans ih (Nat.le_succ _)

theorem length_classAdmits_le (c : Char) (pattern : List Char) :
    (classAdmits c pattern).2.length ≤ pattern.length := by
  unfold classAdmits
  split
  · exact Nat.le_trans (length_classHolds_le c _ false) (Nat.le_succ _)
  · exact length_classHolds_le c pattern false

/-- With fuel for every character of the pattern, the matcher decides what the pattern means. The induction is on
the fuel: a star looks at all suffixes of the text, so recursion on the text has no hypothesis for it. -/
theorem matchesFor_iff {fuel : Nat} {pattern text : List Char} (enough : pattern.length ≤ fuel) :
    matchesFor fuel pattern text = true ↔ Matches pattern text := by
  induction fuel using Nat.strongRecOn generalizing pattern text with
  | _ fuel ih =>
  fun_cases matchesFor fuel pattern text with
  | case1 =>
    obtain rfl := List.eq_nil_of_length_eq_zero (Nat.le_zero.mp enough)
    rw [matches_nil_iff, List.isEmpty_iff]
  | case2 => rw [matches_nil_iff, List.isEmpty_iff]
  | case3 fuel rest =>
    rw [anySuffix_iff, matches_star_iff]
    simp only [ih fuel (Nat.lt_succ_self fuel) (Nat.le_of_succ_le_succ enough)]
  | case4 => simp [matches_any_iff]
  | case5 fuel rest c text =>
    rw [ih fuel (Nat.lt_succ_self fuel) (Nat.le_of_succ_le_succ enough), matches_any_iff]
    simp [and_assoc]
  | case6 => simp [matches_class_iff]
  | case7 fuel rest c text admitted after hclass =>
    have shorter : after.length ≤ fuel := by
      have := length_classAdmits_le c rest
      rw [hclass] at this
      exact Nat.le_trans this (Nat.le_of_succ_le_succ enough)
    rw [Bool.and_eq_true, ih fuel (Nat.lt_succ_self fuel) shorter, matches_class_iff]
    simp [and_assoc, hclass]
  | case8 => simp [matches_escaped_iff]
  | case9 fuel d rest c text =>
    rw [Bool.and_eq_true, ih fuel (Nat.lt_succ_self fuel) (Nat.le_of_succ_le (Nat.le_of_succ_le_succ enough)),
      matches_escaped_iff]
    simp [and_assoc]
  | case10 fuel d rest star question bracket escape =>
    simp [matches_plain_iff (not_opens star question bracket escape)]
  | case11 fuel d rest star question bracket escape c text =>
    rw [Bool.and_eq_true, ih fuel (Nat.lt_succ_self fuel) (Nat.le_of_succ_le_succ enough),
      matches_plain_iff (not_opens star question bracket escape)]
    simp [and_assoc]

theorem matchesList_iff {pattern text : List Char} : matchesList pattern text = true ↔ Matches pattern text :=
  matchesFor_iff (Nat.le_refl _)

/-! ## Escaped texts -/

theorem opens_of_not_special {c : Char} {pattern : List Char} (plain : ¬ isSpecial c = true) :
    ¬ Opens c pattern := by
  rintro (rfl | rfl | rfl | ⟨rfl, -⟩) <;> exact plain (by simp [isSpecial])

/-- An escaped text stands for itself, whatever it is made of. -/
theorem matches_escape_append {literal pattern text : List Char} :
    Matches (escape literal ++ pattern) text ↔ ∃ rest, text = literal ++ rest ∧ Matches pattern rest := by
  induction literal generalizing text with
  | nil => simp [escape]
  | cons c literal ih =>
    have first : Matches (escape (c :: literal) ++ pattern) text ↔
        ∃ rest, text = c :: rest ∧ Matches (escape literal ++ pattern) rest := by
      by_cases special : isSpecial c = true
      · have split : escape (c :: literal) ++ pattern = '\\' :: c :: (escape literal ++ pattern) := by
          simp [escape, special]
        rw [split, matches_escaped_iff]
      · have split : escape (c :: literal) ++ pattern = c :: (escape literal ++ pattern) := by
          simp [escape, special]
        rw [split, matches_plain_iff (opens_of_not_special special)]
    rw [first]
    constructor
    · rintro ⟨rest, rfl, hrest⟩
      obtain ⟨after, rfl, hafter⟩ := ih.mp hrest
      exact ⟨after, rfl, hafter⟩
    · rintro ⟨after, rfl, hafter⟩
      exact ⟨literal ++ after, rfl, ih.mpr ⟨after, rfl, hafter⟩⟩

theorem matches_colon_star {text : List Char} : Matches [':', '*'] text ↔ ∃ rest, text = ':' :: rest := by
  rw [matches_plain_iff (opens_of_not_special (by decide))]
  simp only [matches_star_iff, matches_nil_iff]
  constructor
  · rintro ⟨rest, rfl, -⟩
    exact ⟨rest, rfl⟩
  · rintro ⟨rest, rfl⟩
    exact ⟨rest, rfl, rest, [], by simp, rfl⟩

/-! ## The keys under a prefix -/

theorem matches_underPattern {segments key : String} :
    Matches (underPattern segments).toList key.toList ↔ isUnder key segments := by
  rw [underPattern, String.toList_ofList, matches_escape_append, isUnder_iff]
  simp only [matches_colon_star]
  constructor
  · rintro ⟨rest, hkey, after, rfl⟩
    exact ⟨after, by simp [hkey]⟩
  · rintro ⟨after, hkey⟩
    exact ⟨':' :: after, by simp [← hkey], after, rfl⟩

/-- **The pattern for a prefix stands for exactly the keys under it.** This holds for all prefixes and keys, stars,
brackets and backslashes included, of what patterns mean as of the matcher. -/
theorem under_pattern_selects_keys_under (segments key : String) :
    (Matches (underPattern segments).toList key.toList ↔ isUnder key segments) ∧
    matchesList (underPattern segments).toList key.toList = isUnder key segments := by
  refine ⟨matches_underPattern, ?_⟩
  rw [Bool.eq_iff_iff, matchesList_iff, matches_underPattern]

end ReadThrough.Glob
