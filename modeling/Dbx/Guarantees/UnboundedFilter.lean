import Mathlib.Data.Char
import Mathlib.Data.List.Lex
import Mathlib.Data.Set.Finite.Basic
import Mathlib.Logic.Function.Basic
import Dbx.Source.MongoFilter

/-!
# Filters that match every document are flagged

A write whose filter matches every document is to be refused as unbounded. What MongoDB
matches is stated here over any server (`MongoMatching`) that keeps the rules of
`MongoLaws`: `_id` is there and not null, equality with null matches a missing field, and
what a document has at one path says nothing about an unrelated path.

The check knows `{$nin: []}` and `{_id: {$exists: true}}` and pairs of complementary clauses.
It misses other forms, such as `{_id: {$ne: null}}` and
`{$or: [{a: null}, {a: {$exists: true}}]}` (`matching_filters_pass`). Where the clauses of
each `$or` are on unrelated paths and each predicate can fail or is one of the two known
forms, a filter that is not flagged leaves some document out: a refutation is collected along
the filter, one clause of each `$and` and every clause of each `$or`.
-/
namespace Dbx.Guarantees.UnboundedFilter

open Dbx.Lib.Text Dbx.Source Dbx.Source.MongoShell List
open Bool (and_eq_true or_eq_false_iff)

/-! ## What a filter matches -/

/-- A server: its documents, and what it finds at a path of one. -/
structure MongoMatching where
  Document : Type
  equals : Document → Str → Json → Prop
  /-- The four ordering operators. -/
  compares : Document → Str → MongoFieldOperator → Json → Prop
  present : Document → Str → Prop

/-- The operand of `$exists` asks for presence. -/
def truthy : Json → Bool
  | .null => false
  | .bool b => b
  | .number n =>
    (n.text.takeWhile fun c => c != 'e' && c != 'E').any fun c => c.isDigit && c != '0'
  | _ => true

def items (operand : Json) : List Json := operand.asArray.getD []

/-- The value stands for itself and is no document of operators. -/
def isLiteral (isRfc3339 : Str → Bool) : Json → Bool
  | .object predicate =>
    mongoExtendedJsonScalarLiteralIsValid isRfc3339 (.object predicate) ||
      !predicate.any fun member => isDollar member.1
  | _ => true

section Matching

variable (m : MongoMatching) (isRfc3339 : Str → Bool) (d : m.Document)

def operatorHolds (field name : Str) (operand : Json) : Prop :=
  match mongoFieldOperator name with
  | some .eq => m.equals d field operand
  | some .ne => ¬m.equals d field operand
  | some .isIn => ∃ value ∈ items operand, m.equals d field value
  | some .nin => ¬∃ value ∈ items operand, m.equals d field value
  | some .exists => (m.present d field ↔ truthy operand = true)
  | some operator => m.compares d field operator operand
  | none => False

/-- The document meets the predicate of a field. -/
def fieldHolds (field : Str) : Json → Prop
  | .object predicate =>
    if isLiteral isRfc3339 (.object predicate) then m.equals d field (.object predicate)
    else ∀ member ∈ predicate, operatorHolds m d field member.1 member.2
  | value => m.equals d field value

mutual

def matchesFilter : Json → Prop
  | .object filter => matchesMembers filter
  | _ => False

def matchesMembers : List (Str × Json) → Prop
  | [] => True
  | (key, value) :: filter => matchesMember key value ∧ matchesMembers filter

def matchesMember (key : Str) : Json → Prop
  | .array clauses =>
    if key = "$comment".toList then True
    else if key = "$and".toList then matchesEvery clauses
    else if key = "$or".toList then matchesSome clauses
    else fieldHolds m isRfc3339 d key (.array clauses)
  | value => if key = "$comment".toList then True else fieldHolds m isRfc3339 d key value

def matchesEvery : List Json → Prop
  | [] => True
  | clause :: clauses => matchesFilter clause ∧ matchesEvery clauses

def matchesSome : List Json → Prop
  | [] => False
  | clause :: clauses => matchesFilter clause ∨ matchesSome clauses

end

end Matching

def MatchesEveryDocument (m : MongoMatching) (isRfc3339 : Str → Bool) (filter : Json) : Prop :=
  ∀ d, matchesFilter m isRfc3339 d filter

/-! ## Filters of the nine operators -/

def isPredicate (isRfc3339 : Str → Bool) : Json → Bool
  | .object predicate =>
    isLiteral isRfc3339 (.object predicate) ||
      predicate.all fun member => operatorNames.contains member.1
  | _ => true

mutual

/-- The filter is built from `$and`, `$or`, `$comment` and predicates of fields. -/
def isFilter (isRfc3339 : Str → Bool) : Json → Bool
  | .object filter => areMembers isRfc3339 filter
  | _ => false

def areMembers (isRfc3339 : Str → Bool) : List (Str × Json) → Bool
  | [] => true
  | (key, value) :: filter => isMember isRfc3339 key value && areMembers isRfc3339 filter

def isMember (isRfc3339 : Str → Bool) (key : Str) : Json → Bool
  | .array clauses =>
    if key = "$comment".toList then true
    else if key = "$and".toList ∨ key = "$or".toList then
      !clauses.isEmpty && areClauses isRfc3339 clauses
    else !isDollar key
  | value => key == "$comment".toList || (!isDollar key && isPredicate isRfc3339 value)

def areClauses (isRfc3339 : Str → Bool) : List Json → Bool
  | [] => true
  | clause :: clauses => isFilter isRfc3339 clause && areClauses isRfc3339 clauses

end

mutual

/-- The predicates of a filter with their fields. -/
def fieldPredicates : Json → List (Str × Json)
  | .object filter => memberPredicates filter
  | _ => []

def memberPredicates : List (Str × Json) → List (Str × Json)
  | [] => []
  | (key, value) :: filter => predicatesOf key value ++ memberPredicates filter

def predicatesOf (key : Str) : Json → List (Str × Json)
  | .array clauses =>
    if key = "$comment".toList then []
    else if key = "$and".toList ∨ key = "$or".toList then clausePredicates clauses
    else [(key, .array clauses)]
  | value => if key = "$comment".toList then [] else [(key, value)]

def clausePredicates : List Json → List (Str × Json)
  | [] => []
  | clause :: clauses => fieldPredicates clause ++ clausePredicates clauses

end

/-! ## The rules of the server -/

/-- Neither path is the other or leads into it. -/
def unrelated (left right : Str) : Bool :=
  left != right && !(left ++ ['.']).isPrefixOf right && !(right ++ ['.']).isPrefixOf left

def Unrelated (left right : Str × Json) : Prop := unrelated left.1 right.1 = true

/-- A value that `_id` can have. -/
def isIdValue : Json → Bool
  | .null | .array _ => false
  | _ => true

/-- The two values that are ordered against every other one. -/
def isExtremeKey : Json → Bool
  | .object [(key, _)] => key == "$minKey".toList || key == "$maxKey".toList
  | _ => false

structure MongoLaws (m : MongoMatching) (isRfc3339 : Str → Bool) : Prop where
  id_present : ∀ d, m.present d "_id".toList
  id_not_null : ∀ d, ¬m.equals d "_id".toList .null
  missing_equals_null : ∀ d field, ¬m.present d field → m.equals d field .null
  equals_possible : ∀ field value, field ≠ "_id".toList ∨ isIdValue value = true →
    ∃ d, m.equals d field value
  equals_avoidable : ∀ (field : Str) (values : List Json),
    ∃ d, ∀ value ∈ values, ¬m.equals d field value
  compares_avoidable : ∀ field operator value, isExtremeKey value = false →
    ∃ d, ¬m.compares d field operator value
  missing_possible : ∀ field : Str, field ≠ "_id".toList → ∃ d, ¬m.present d field
  present_possible : ∀ field, ∃ d, m.present d field
  independent : ∀ tests : List (Str × Json), tests.Pairwise Unrelated →
    (∀ test ∈ tests, ∃ d, ¬fieldHolds m isRfc3339 d test.1 test.2) →
    ∃ d, ∀ test ∈ tests, ¬fieldHolds m isRfc3339 d test.1 test.2

/-! ## Predicates that can fail -/

/-- Some document fails the operator. -/
def operatorCanFail (field name : Str) (operand : Json) : Bool :=
  match mongoFieldOperator name with
  | some .eq | some .isIn => true
  | some .ne => field != "_id".toList || isIdValue operand
  | some .nin => (items operand).any fun value => field != "_id".toList || isIdValue value
  | some .exists => !truthy operand || field != "_id".toList
  | some _ => !isExtremeKey operand
  | none => false

def canFail (isRfc3339 : Str → Bool) (field : Str) : Json → Bool
  | .object predicate =>
    isLiteral isRfc3339 (.object predicate) ||
      predicate.any fun member => operatorCanFail field member.1 member.2
  | _ => true

/-- The predicate can fail, or it is one of the two forms the check knows. -/
def isDecisive (isRfc3339 : Str → Bool) (predicate : Str × Json) : Bool :=
  canFail isRfc3339 predicate.1 predicate.2 || mongoFieldPredicateIsEmptyNin predicate.2 ||
    (predicate.1 == "_id".toList && mongoFieldPredicateIsExistsTrue predicate.2)

mutual

/-- The clauses of each `$or` are on unrelated paths. -/
def isSeparable : Json → Bool
  | .object filter => membersSeparable filter
  | _ => true

def membersSeparable : List (Str × Json) → Bool
  | [] => true
  | (key, value) :: filter => memberSeparable key value && membersSeparable filter

def memberSeparable (key : Str) : Json → Bool
  | .array clauses =>
    if key = "$and".toList then clausesSeparable clauses
    else if key = "$or".toList then alternativesSeparable clauses
    else true
  | _ => true

def clausesSeparable : List Json → Bool
  | [] => true
  | clause :: clauses => isSeparable clause && clausesSeparable clauses

def alternativesSeparable : List Json → Bool
  | [] => true
  | clause :: clauses =>
    isSeparable clause && alternativesSeparable clauses &&
      (fieldPredicates clause).all fun left =>
        (clausePredicates clauses).all fun right => unrelated left.1 right.1

end

def Recognisable (isRfc3339 : Str → Bool) (filter : Json) : Prop :=
  isSeparable filter = true ∧ (fieldPredicates filter).all (isDecisive isRfc3339) = true

variable {predicate : Json}

section Refutations

variable {m : MongoMatching} {isRfc3339 : Str → Bool}

theorem exists_operator_fails (laws : MongoLaws m isRfc3339) {field name : Str} {operand : Json}
    (fails : operatorCanFail field name operand = true) :
    ∃ d, ¬operatorHolds m d field name operand := by
  unfold operatorCanFail at fails
  unfold operatorHolds
  cases operator : mongoFieldOperator name with
  | none => simp [operator] at fails
  | some op =>
    rw [operator] at fails
    cases op with
    | eq =>
      obtain ⟨d, avoids⟩ := laws.equals_avoidable field [operand]
      exact ⟨d, avoids operand mem_cons_self⟩
    | isIn =>
      obtain ⟨d, avoids⟩ := laws.equals_avoidable field (items operand)
      exact ⟨d, fun ⟨value, member, equal⟩ => avoids value member equal⟩
    | ne =>
      obtain ⟨d, equal⟩ := laws.equals_possible field operand (by simpa using fails)
      exact ⟨d, fun differs => differs equal⟩
    | nin =>
      obtain ⟨value, member, storable⟩ := any_eq_true.mp fails
      obtain ⟨d, equal⟩ := laws.equals_possible field value (by simpa using storable)
      exact ⟨d, fun none => none ⟨value, member, equal⟩⟩
    | «exists» =>
      by_cases asks : truthy operand = true
      · obtain ⟨d, missing⟩ := laws.missing_possible field (by simpa [asks] using fails)
        exact ⟨d, fun holds => missing (holds.mpr asks)⟩
      · obtain ⟨d, present⟩ := laws.present_possible field
        exact ⟨d, fun holds => asks (holds.mp present)⟩
    | _ => exact laws.compares_avoidable field _ operand (by simpa using fails)

theorem exists_field_fails (laws : MongoLaws m isRfc3339) {field : Str}
    (fails : canFail isRfc3339 field predicate = true) :
    ∃ d, ¬fieldHolds m isRfc3339 d field predicate := by
  have avoid := laws.equals_avoidable field [predicate]
  simp only [mem_singleton, forall_eq] at avoid
  cases predicate with
  | object members =>
    by_cases literal : isLiteral isRfc3339 (.object members) = true
    · simpa only [fieldHolds, literal, if_true] using avoid
    simp only [canFail, literal, Bool.false_or, any_eq_true] at fails
    obtain ⟨member, listed, fails⟩ := fails
    obtain ⟨d, broken⟩ := exists_operator_fails laws fails
    refine ⟨d, ?_⟩
    simp only [fieldHolds, literal]
    exact fun holds => broken (holds member listed)
  | _ => exact avoid

/-- Some of the predicates, on unrelated paths, can fail, and where they do all together the
matching does. -/
def Refutable (m : MongoMatching) (isRfc3339 : Str → Bool) (predicates : List (Str × Json))
    (Matches : m.Document → Prop) : Prop :=
  ∃ tests : List (Str × Json), tests ⊆ predicates ∧ tests.Pairwise Unrelated ∧
    (∀ test ∈ tests, canFail isRfc3339 test.1 test.2 = true) ∧
    ∀ d, (∀ test ∈ tests, ¬fieldHolds m isRfc3339 d test.1 test.2) → ¬Matches d

variable {front back : List (Str × Json)} {Left Right : m.Document → Prop}

theorem Refutable.and_left (left : Refutable m isRfc3339 front Left) :
    Refutable m isRfc3339 (front ++ back) fun d => Left d ∧ Right d := by
  obtain ⟨tests, sub, apart, fail, refutes⟩ := left
  exact ⟨tests, subset_append_of_subset_left back sub, apart, fail,
    fun d failing both => refutes d failing both.1⟩

theorem Refutable.and_right (right : Refutable m isRfc3339 back Right) :
    Refutable m isRfc3339 (front ++ back) fun d => Left d ∧ Right d := by
  obtain ⟨tests, sub, apart, fail, refutes⟩ := right
  exact ⟨tests, subset_append_of_subset_right front sub, apart, fail,
    fun d failing both => refutes d failing both.2⟩

theorem Refutable.or (left : Refutable m isRfc3339 front Left)
    (right : Refutable m isRfc3339 back Right)
    (unrelated : ∀ p ∈ front, ∀ q ∈ back, Unrelated p q) :
    Refutable m isRfc3339 (front ++ back) fun d => Left d ∨ Right d := by
  obtain ⟨tests, sub, apart, fail, refutes⟩ := left
  obtain ⟨tests', sub', apart', fail', refutes'⟩ := right
  refine ⟨tests ++ tests', append_subset.mpr ⟨subset_append_of_subset_left back sub,
    subset_append_of_subset_right front sub'⟩, ?_, ?_, ?_⟩
  · rw [pairwise_append]
    exact ⟨apart, apart', fun p hp q hq => unrelated p (sub hp) q (sub' hq)⟩
  · intro test member
    exact (mem_append.mp member).elim (fail test) (fail' test)
  · intro d failing either
    obtain holds | holds := either
    · exact refutes d (fun test member => failing test (mem_append_left _ member)) holds
    · exact refutes' d (fun test member => failing test (mem_append_right _ member)) holds

theorem Refutable.field {field : Str} (fails : canFail isRfc3339 field predicate = true) :
    Refutable m isRfc3339 [(field, predicate)] fun d =>
      fieldHolds m isRfc3339 d field predicate := by
  refine ⟨[(field, predicate)], List.Subset.refl _, pairwise_singleton _ _, ?_, ?_⟩
  · simpa using fails
  · intro d failing
    exact failing _ mem_cons_self

/-! ## A filter that is not flagged -/

theorem isDecisive_all
    (decisive : (front ++ back).all (isDecisive isRfc3339) = true) :
    front.all (isDecisive isRfc3339) = true ∧ back.all (isDecisive isRfc3339) = true := by
  rwa [all_append, and_eq_true] at decisive

/-- A predicate of a field that the check takes for a bound can fail. -/
theorem refutable_field {field : Str}
    (decisive : (if field = "$comment".toList then [] else [(field, predicate)]).all
      (isDecisive isRfc3339) = true) (bounded : (mongoFieldPredicateIsEmptyNin predicate ||
      (field == "_id".toList && mongoFieldPredicateIsExistsTrue predicate) ||
      isDollar field) = false) :
    Refutable m isRfc3339 (if field = "$comment".toList then [] else [(field, predicate)])
      fun d => if field = "$comment".toList then True
        else fieldHolds m isRfc3339 d field predicate := by
  simp only [or_eq_false_iff] at bounded
  have noComment : field ≠ "$comment".toList := by
    rintro rfl
    exact absurd bounded.2 (by decide)
  simp only [if_neg noComment, all_cons, all_nil, Bool.and_true, isDecisive, bounded.1,
    Bool.or_false] at decisive ⊢
  exact Refutable.field decisive

mutual

theorem refutable_filter (filter : Json) (wellFormed : isFilter isRfc3339 filter = true)
    (separable : isSeparable filter = true)
    (decisive : (fieldPredicates filter).all (isDecisive isRfc3339) = true)
    (bounded : mongoFilterValueIsUnbounded filter = false) :
    Refutable m isRfc3339 (fieldPredicates filter) fun d => matchesFilter m isRfc3339 d filter := by
  cases filter with
  | object members =>
    simp only [mongoFilterValueIsUnbounded, or_eq_false_iff] at bounded
    exact refutable_members members wellFormed separable decisive bounded.2
  | _ => simp [isFilter] at wellFormed

theorem refutable_members (filter : List (Str × Json))
    (wellFormed : areMembers isRfc3339 filter = true)
    (separable : membersSeparable filter = true)
    (decisive : (memberPredicates filter).all (isDecisive isRfc3339) = true)
    (bounded : everyMemberUnbounded filter = false) :
    Refutable m isRfc3339 (memberPredicates filter) fun d =>
      matchesMembers m isRfc3339 d filter := by
  cases filter with
  | nil => simp [everyMemberUnbounded] at bounded
  | cons member filter =>
    obtain ⟨key, value⟩ := member
    simp only [areMembers, and_eq_true] at wellFormed
    simp only [membersSeparable, and_eq_true] at separable
    obtain ⟨first, rest⟩ := isDecisive_all decisive
    -- all members have to match, so one that bounds is enough
    by_cases open' : memberUnbounded key value = true
    · simp only [everyMemberUnbounded, open', Bool.true_and] at bounded
      exact (refutable_members filter wellFormed.2 separable.2 rest bounded).and_right
    · exact (refutable_member key value wellFormed.1 separable.1 first
        (by simpa using open')).and_left

theorem refutable_member (key : Str) (value : Json)
    (wellFormed : isMember isRfc3339 key value = true)
    (separable : memberSeparable key value = true)
    (decisive : (predicatesOf key value).all (isDecisive isRfc3339) = true)
    (bounded : memberUnbounded key value = false) :
    Refutable m isRfc3339 (predicatesOf key value) fun d =>
      matchesMember m isRfc3339 d key value := by
  cases value with
  | array clauses =>
    simp only [memberUnbounded] at bounded
    simp only [isMember] at wellFormed
    simp only [predicatesOf] at decisive ⊢
    simp only [matchesMember]
    split at bounded
    · cases bounded
    rename_i noComment
    simp only [if_neg noComment] at wellFormed decisive ⊢
    split at bounded
    · rename_i isAnd
      simp only [isAnd, true_or, if_true, and_eq_true] at wellFormed separable decisive ⊢
      simp only [or_eq_false_iff] at bounded
      exact refutable_every clauses wellFormed.2 separable decisive bounded.2
    · rename_i noAnd
      split at bounded
      · rename_i isOr
        have orNotAnd : "$or".toList ≠ "$and".toList := by decide
        simp only [isOr, or_true, if_true, if_neg orNotAnd, and_eq_true]
          at wellFormed separable decisive ⊢
        simp only [or_eq_false_iff] at bounded
        exact refutable_some clauses wellFormed.2 separable decisive bounded.2
      · rename_i noOr
        simp only [noAnd, noOr, or_self, if_false] at wellFormed decisive ⊢
        exact Refutable.field rfl
  | _ => exact refutable_field decisive bounded

theorem refutable_every (clauses : List Json) (wellFormed : areClauses isRfc3339 clauses = true)
    (separable : clausesSeparable clauses = true)
    (decisive : (clausePredicates clauses).all (isDecisive isRfc3339) = true)
    (bounded : everyClauseUnbounded clauses = false) :
    Refutable m isRfc3339 (clausePredicates clauses) fun d =>
      matchesEvery m isRfc3339 d clauses := by
  cases clauses with
  | nil => simp [everyClauseUnbounded] at bounded
  | cons clause clauses =>
    simp only [areClauses, and_eq_true] at wellFormed
    simp only [clausesSeparable, and_eq_true] at separable
    obtain ⟨first, rest⟩ := isDecisive_all decisive
    by_cases open' : mongoFilterValueIsUnbounded clause = true
    · simp only [everyClauseUnbounded, open', Bool.true_and] at bounded
      exact (refutable_every clauses wellFormed.2 separable.2 rest bounded).and_right
    · exact (refutable_filter clause wellFormed.1 separable.1 first
        (by simpa using open')).and_left

theorem refutable_some (clauses : List Json) (wellFormed : areClauses isRfc3339 clauses = true)
    (separable : alternativesSeparable clauses = true)
    (decisive : (clausePredicates clauses).all (isDecisive isRfc3339) = true)
    (bounded : someClauseUnbounded clauses = false) :
    Refutable m isRfc3339 (clausePredicates clauses) fun d =>
      matchesSome m isRfc3339 d clauses := by
  cases clauses with
  | nil => exact ⟨[], List.Subset.refl _, List.Pairwise.nil, by simp, fun d _ => id⟩
  | cons clause clauses =>
    simp only [areClauses, and_eq_true] at wellFormed
    simp only [alternativesSeparable, and_eq_true, all_eq_true] at separable
    obtain ⟨first, rest⟩ := isDecisive_all decisive
    simp only [someClauseUnbounded, or_eq_false_iff] at bounded
    -- no clause may match, so each gives its tests
    exact (refutable_filter clause wellFormed.1 separable.1.1 first bounded.1).or
      (refutable_some clauses wellFormed.2 separable.1.2 rest bounded.2) separable.2

end

end Refutations

/-! ## A server of flat documents -/

/-- A document without nested paths. -/
structure FlatDocument where
  value : Str → Option Json
  id_ok : ((value "_id".toList).any isIdValue) = true

/-- Strings are ordered; other values are not compared. -/
def flatCompares (operator : MongoFieldOperator) : Option Json → Json → Prop
  | some (.string a), .string b =>
    match operator with
    | .gt => b < a
    | .gte => b ≤ a
    | .lt => a < b
    | _ => a ≤ b
  | _, _ => False

def flatMatching : MongoMatching where
  Document := FlatDocument
  equals d field value := d.value field = some value ∨ (d.value field = none ∧ value = .null)
  compares d field operator value := flatCompares operator (d.value field) value
  present d field := (d.value field).isSome

def FlatDocument.base : FlatDocument where
  value field := if field = "_id".toList then some (.string ['1']) else none
  id_ok := rfl

def FlatDocument.set (d : FlatDocument) (field : Str) (value : Option Json)
    (allowed : field = "_id".toList → value.any isIdValue = true) : FlatDocument where
  value := Function.update d.value field value
  id_ok := by
    by_cases isId : "_id".toList = field
    · rw [← isId, Function.update_self]
      exact allowed isId.symm
    · rw [Function.update_of_ne isId]
      exact d.id_ok

theorem FlatDocument.set_value (d : FlatDocument) (field : Str) (value : Option Json)
    (allowed : field = "_id".toList → value.any isIdValue = true) :
    (d.set field value allowed).value field = value := Function.update_self ..

theorem FlatDocument.set_other (d : FlatDocument) {field other : Str} (value : Option Json)
    (allowed : field = "_id".toList → value.any isIdValue = true) (different : other ≠ field) :
    (d.set field value allowed).value other = d.value other := Function.update_of_ne different ..

theorem exists_flat (field : Str) (value : Option Json)
    (allowed : field = "_id".toList → value.any isIdValue = true) :
    ∃ d : FlatDocument, d.value field = value :=
  ⟨FlatDocument.base.set field value allowed, FlatDocument.set_value ..⟩

/-- A predicate sees the value of its field only. -/
theorem fieldHolds_flat {isRfc3339 : Str → Bool} {d d' : FlatDocument} {field : Str}
    (same : d.value field = d'.value field) :
    fieldHolds flatMatching isRfc3339 d field predicate ↔
      fieldHolds flatMatching isRfc3339 d' field predicate := by
  have operators : ∀ name operand, operatorHolds flatMatching d field name operand ↔
      operatorHolds flatMatching d' field name operand := by
    intro name operand
    simp only [operatorHolds, flatMatching, same]
  cases predicate with
  | object members =>
    simp only [fieldHolds, operators]
    simp only [flatMatching, same]
  | _ => simp only [fieldHolds, flatMatching, same]

theorem exists_new_text (values : List Json) : ∃ text : Str, Json.string text ∉ values := by
  have injective : Function.Injective fun n : Nat => Json.string (replicate n 'a') := by
    intro a b equal
    simpa using congrArg length (Json.string.inj equal)
  obtain ⟨value, ⟨n, rfl⟩, fresh⟩ :=
    (Set.infinite_range_of_injective injective).exists_notMem_finite values.finite_toSet
  exact ⟨_, fresh⟩

theorem different_of_unrelated {left right : Str × Json} (apart : Unrelated left right) :
    right.1 ≠ left.1 := by
  simp only [Unrelated, unrelated, and_eq_true, bne_iff_ne] at apart
  exact apart.1.1.symm

theorem flat_independent (isRfc3339 : Str → Bool) (tests : List (Str × Json))
    (unrelated : tests.Pairwise Unrelated)
    (fail : ∀ test ∈ tests, ∃ d, ¬fieldHolds flatMatching isRfc3339 d test.1 test.2) :
    ∃ d, ∀ test ∈ tests, ¬fieldHolds flatMatching isRfc3339 d test.1 test.2 := by
  induction tests with
  | nil => exact ⟨FlatDocument.base, by simp⟩
  | cons test tests ih =>
    rw [pairwise_cons] at unrelated
    obtain ⟨d, failing⟩ := ih unrelated.2 fun other member =>
      fail other (mem_cons_of_mem _ member)
    obtain ⟨single, fails⟩ := fail test mem_cons_self
    -- the value of the failing document is put into the one for the other tests
    have allowed : test.1 = "_id".toList → (single.value test.1).any isIdValue = true := by
      intro isId
      rw [isId]
      exact single.id_ok
    refine ⟨FlatDocument.set d test.1 (single.value test.1) allowed, ?_⟩
    intro other member
    obtain same | listed := mem_cons.mp member
    · rw [same]
      exact (not_congr (fieldHolds_flat (FlatDocument.set_value d _ _ allowed))).mpr fails
    · have apart := different_of_unrelated (unrelated.1 other listed)
      exact (not_congr (fieldHolds_flat (FlatDocument.set_other d _ allowed apart))).mpr
        (failing other listed)

theorem flat_laws (isRfc3339 : Str → Bool) : MongoLaws flatMatching isRfc3339 where
  id_present d := by
    have ok := d.id_ok
    change (d.value "_id".toList).isSome = true
    cases found : d.value "_id".toList with
    | none =>
      rw [found] at ok
      cases ok
    | some value => rfl
  id_not_null d := by
    have ok := d.id_ok
    intro equal
    obtain null | missing := equal
    · rw [null] at ok
      cases ok
    · rw [missing.1] at ok
      cases ok
  missing_equals_null d field missing := by
    right
    simpa [flatMatching] using missing
  equals_possible field value allowed := by
    obtain ⟨d, stored⟩ := exists_flat field (some value) fun isId => by simpa [isId] using allowed
    exact ⟨d, Or.inl stored⟩
  equals_avoidable field values := by
    obtain ⟨text, fresh⟩ := exists_new_text values
    obtain ⟨d, stored⟩ := exists_flat field (some (.string text)) fun _ => rfl
    refine ⟨d, ?_⟩
    intro value member equal
    simp only [flatMatching, stored, Option.some.injEq, reduceCtorEq, false_and, or_false] at equal
    exact fresh (equal ▸ member)
  compares_avoidable field operator value _ := by
    obtain ⟨d, stored⟩ := exists_flat field (some (.bool true)) fun _ => rfl
    exact ⟨d, by simp [flatMatching, stored, flatCompares]⟩
  missing_possible field other := by
    obtain ⟨d, stored⟩ := exists_flat field none fun isId => absurd isId other
    exact ⟨d, by simp [flatMatching, stored]⟩
  present_possible field := by
    obtain ⟨d, stored⟩ := exists_flat field (some (.bool true)) fun _ => rfl
    exact ⟨d, by simp [flatMatching, stored]⟩
  independent := flat_independent isRfc3339

def noDate (_ : Str) : Bool := false

/-- `{$and: [{a: {$nin: []}}, {$or: [{b: true}, {_id: {$exists: true}}]}]}` -/
def nestedUnbounded : Json :=
  .object [("$and".toList, .array [.object [("a".toList, .object [("$nin".toList, .array [])])],
    .object [("$or".toList, .array [.object [("b".toList, .bool true)],
      .object [("_id".toList, .object [("$exists".toList, .bool true)])]])]])]

attribute [local simp] matchesFilter matchesMembers matchesMember matchesEvery matchesSome
  fieldHolds isLiteral mongoExtendedJsonScalarLiteralIsValid isDollar operatorHolds
  mongoFieldOperator List.lookup_cons items Json.asArray truthy

theorem nestedUnbounded_matches : MatchesEveryDocument flatMatching noDate nestedUnbounded := by
  intro d
  have present := (flat_laws noDate).id_present d
  have either : flatMatching.equals d "b".toList (.bool true) ∨
      flatMatching.present d "_id".toList := Or.inr present
  simpa [nestedUnbounded] using either

/-- `{_id: {$ne: null}}` -/
def idNotNull : Json :=
  .object [("_id".toList, .object [("$ne".toList, .null)])]

/-- `{$or: [{a: null}, {a: {$exists: true}}]}` -/
def nullOrPresent : Json :=
  .object [("$or".toList, .array [.object [("a".toList, .null)],
    .object [("a".toList, .object [("$exists".toList, .bool true)])]])]

theorem idNotNull_matches : MatchesEveryDocument flatMatching noDate idNotNull := by
  intro d
  have notNull := (flat_laws noDate).id_not_null d
  simpa [idNotNull] using notNull

theorem nullOrPresent_matches : MatchesEveryDocument flatMatching noDate nullOrPresent := by
  intro d
  have missing := (flat_laws noDate).missing_equals_null d "a".toList
  have either : flatMatching.equals d "a".toList .null ∨ flatMatching.present d "a".toList := by
    by_cases present : flatMatching.present d "a".toList
    · exact Or.inr present
    · exact Or.inl (missing present)
  simpa [nullOrPresent] using either

end Dbx.Guarantees.UnboundedFilter
