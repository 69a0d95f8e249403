import Mathlib.Data.List.Nodup
import Dbx.Source.QueryResultSql

/-!
# The aliases of a sorted query

Each column gets its normalised name, with a count behind it from the second time on. Two
aliases can be the same: the count is kept for each base in its exact spelling, and a base
with a count can be the base of another column (`aliases_distinct_iff`).
-/
namespace Dbx.Guarantees.SortAliases

open Dbx.Lib.Text Dbx.Source.QueryResultSql List Function

/-! ## Counting -/

variable {count : Nat}

section Counting

variable {seen : Str → Nat} {bases : List Str}

theorem mem_countBases {base : Str} : (base, count) ∈ countBases seen bases ↔
    seen base < count ∧ count ≤ seen base + bases.count base := by
  induction bases generalizing seen with
  | nil =>
    simp only [countBases, not_mem_nil, count_nil, false_iff]
    omega
  | cons first bases ih =>
    rw [countBases, mem_cons, ih, Prod.mk.injEq, count_cons]
    by_cases same : first = base
    · subst same
      simp only [update_self, true_and, beq_self_eq_true, if_true]
      omega
    · simp [same, Ne.symm same]

theorem nodup_countBases : (countBases seen bases).Nodup := by
  induction bases generalizing seen with
  | nil => exact nodup_nil
  | cons first bases ih =>
    refine nodup_cons.mpr ⟨?_, ih⟩
    rw [mem_countBases, update_self]
    omega

theorem countBases_bases : (countBases seen bases).map (·.1) = bases := by
  induction bases generalizing seen with
  | nil => rfl
  | cons first bases ih => rw [countBases, map_cons, ih]

end Counting

/-! ## Case -/

section Case

variable {fold : Char → Char} (fixes : ∀ c, (c == '_' || c.isDigit) = true → fold c = c)
include fixes

theorem map_suffixed (more : count ≠ 1) (base : Str) :
    (suffixed (base, count)).map fold = base.map fold ++ '_' :: (toString count).toList := by
  have digits : ∀ c ∈ (toString count).toList, fold c = c := by
    intro c member
    apply fixes
    rw [Bool.or_eq_true]
    exact .inr (Nat.isDigit_of_mem_toDigits (by omega) (by omega) (Nat.toList_repr ▸ member))
  rw [suffixed, if_neg (by simpa using more), map_append, map_cons, fixes '_' rfl,
    map_congr_left digits, map_id']

omit fixes in
theorem underscore_notMem {count : Nat} : '_' ∉ (toString count).toList := by
  intro member
  have digit := Nat.isDigit_of_mem_toDigits (by omega) (by omega) (Nat.toList_repr ▸ member)
  revert digit
  decide

omit fixes in
theorem numbered_inj {front front' : Str} {n n' : Nat} (same : front ++ '_' :: (toString n).toList =
    front' ++ '_' :: (toString n').toList) : front = front' ∧ n = n' := by
  have turned := congrArg reverse same
  simp only [reverse_append, reverse_cons, append_assoc] at turned
  obtain ⟨digits, bases⟩ := append_cons_inj (mt mem_reverse.mp underscore_notMem)
    (mt mem_reverse.mp underscore_notMem) turned
  have read (n : Nat) : Nat.ofDigitChars 10 (toString n).toList 0 = n := by
    rw [Nat.toString_eq_repr, Nat.toList_repr, Nat.ofDigitChars_toDigits (by omega) (by omega)]
  refine ⟨reverse_injective bases, ?_⟩
  rw [← read n, reverse_injective digits, read]

/-- The count behind a base can be read back. -/
theorem suffixed_inj {base base' : Str} {count' : Nat} (more : count ≠ 1) (more' : count' ≠ 1)
    (same : (suffixed (base, count)).map fold =
      (suffixed (base', count')).map fold) : base.map fold = base'.map fold ∧ count = count' := by
  rw [map_suffixed fixes more, map_suffixed fixes more'] at same
  exact numbered_inj same

end Case

/-- The aliases as the wrapper needs them; `fold` is the case folding of the database. -/
structure SortsChosenColumn (isAlphanumeric : Char → Bool) (fold : Char → Char)
    (columns : List Str) : Prop where
  inOrder : ∃ counts : List Nat, buildDerivedColumnAliases isAlphanumeric columns =
    List.zipWith (fun base count => suffixed (base, count))
      (columns.mapIdx (normalizeAliasBase isAlphanumeric)) counts ∧ counts.length = columns.length
  distinct : ((buildDerivedColumnAliases isAlphanumeric columns).map (·.map fold)).Nodup
  /-- The sort reference is the alias of the chosen column and of no other. -/
  denotes : ∀ index < columns.length, ∀ column position,
    (buildDerivedColumnAliases isAlphanumeric columns)[position]?.map (·.map fold) =
      some ((sortAlias isAlphanumeric columns index column).map fold) ↔ position = index

/-- Bases that differ only in case are the same, and no base with a count that it reaches is
the base of a column. -/
def BasesApart (fold : Char → Char) (bases : List Str) : Prop :=
  (∀ base ∈ bases, ∀ other ∈ bases, base.map fold = other.map fold → base = other) ∧
    ∀ base ∈ bases, ∀ count, 2 ≤ count → count ≤ bases.count base →
      ∀ other ∈ bases, (suffixed (base, count)).map fold ≠ other.map fold

section

variable (isAlphanumeric : Char → Bool) {fold : Char → Char}
  (fixes : ∀ c, (c == '_' || c.isDigit) = true → fold c = c)
include fixes

theorem nodup_iff (bases : List Str) :
    (((countBases (fun _ => 0) bases).map suffixed).map (·.map fold)).Nodup ↔
      BasesApart fold bases := by
  have here {base : Str} {count : Nat} : (base, count) ∈ countBases (fun _ => 0) bases ↔
      0 < count ∧ count ≤ bases.count base := by
    rw [mem_countBases, Nat.zero_add]
  have first {base : Str} (member : base ∈ bases) :
      (base, 1) ∈ countBases (fun _ => 0) bases :=
    here.mpr ⟨by omega, count_pos_iff.mpr member⟩
  rw [map_map, nodup_map_iff_inj_on nodup_countBases]
  constructor
  · intro inj
    refine ⟨?_, ?_⟩
    · intro base member other otherMem same
      exact congrArg Prod.fst (inj _ (first member) _ (first otherMem) same)
    · intro base member count two reached other otherMem same
      have := congrArg Prod.snd (inj _ (here.mpr ⟨by omega, reached⟩) _ (first otherMem) same)
      omega
  · rintro ⟨sameCase, noSuffix⟩ ⟨base, count⟩ member ⟨base', count'⟩ member' same
    rw [here] at member member'
    have base_mem : base ∈ bases := count_pos_iff.mp (by omega)
    have base_mem' : base' ∈ bases := count_pos_iff.mp (by omega)
    by_cases one : count = 1
    · by_cases one' : count' = 1
      · subst one one'
        rw [sameCase _ base_mem _ base_mem' same]
      · subst one
        exact absurd same.symm (noSuffix _ base_mem' _ (by omega) member'.2 _ base_mem)
    · by_cases one' : count' = 1
      · subst one'
        exact absurd same (noSuffix _ base_mem _ (by omega) member.2 _ base_mem')
      · obtain ⟨bases_eq, rfl⟩ := suffixed_inj fixes one one' same
        rw [sameCase _ base_mem _ base_mem' bases_eq]

/-- The aliases are distinct ignoring case, and the sort reference names the chosen column,
exactly if the bases and their counts do not run into one another. -/
theorem aliases_distinct_iff (columns : List Str) : SortsChosenColumn isAlphanumeric fold columns ↔
      BasesApart fold (columns.mapIdx (normalizeAliasBase isAlphanumeric)) := by
  rw [← nodup_iff fixes]
  refine ⟨SortsChosenColumn.distinct, fun distinct => ?_⟩
  rw [← buildDerivedColumnAliases] at distinct
  have bases := @countBases_bases (fun _ => 0) (columns.mapIdx (normalizeAliasBase isAlphanumeric))
  have length := congrArg length bases
  rw [length_map, length_mapIdx] at length
  refine ⟨⟨(countBases _ _).map (·.2), ?_, by rw [length_map, length]⟩, distinct, ?_⟩
  · rw [buildDerivedColumnAliases]
    nth_rewrite 2 [← bases]
    rw [zipWith_map, zipWith_self]
  · intro index bound column position
    have within : index < (buildDerivedColumnAliases isAlphanumeric columns).length := by
      rw [buildDerivedColumnAliases, length_map, length]
      exact bound
    have chosen : ((buildDerivedColumnAliases isAlphanumeric columns).map (·.map fold))[index]? =
        some ((sortAlias isAlphanumeric columns index column).map fold) := by
      simp [sortAlias, within]
    rw [← chosen, ← getElem?_map, eq_comm, getElem?_inj (by simpa using within) distinct,
      eq_comm]

end

theorem toLower_fixes (c : Char) (isFixed : (c == '_' || c.isDigit) = true) : c.toLower = c := by
  have small : c.toNat < 128 := by
    rw [Bool.or_eq_true, beq_iff_eq] at isFixed
    obtain rfl | digit := isFixed
    · decide
    · exact isAlphanum_lt (by rw [Char.isAlphanum, digit, Bool.or_true])
  revert isFixed
  exact forall_char_lt (P := fun c => (c == '_' || c.isDigit) = true → c.toLower = c)
    (by decide) c small

/-- Two columns of one name beside a third. -/
theorem aliases_distinct_iff_repeated :
    SortsChosenColumn Char.isAlphanum Char.toLower ["id".toList, "id".toList, "Name".toList] ↔
      BasesApart Char.toLower ["id".toList, "id".toList, "Name".toList] :=
  aliases_distinct_iff Char.isAlphanum toLower_fixes ["id".toList, "id".toList, "Name".toList]

/-- The second `a` gets the name of the third column. -/
theorem aliases_meet : ¬ SortsChosenColumn Char.isAlphanum Char.toLower
    ["a".toList, "a".toList, "a_2".toList] := by
  intro sorts
  exact absurd sorts.distinct (by decide)

end Dbx.Guarantees.SortAliases
