import Dbx.Source.Json

/-!
# Filters of a MongoDB write

Model of `mongo_filter_is_effectively_unbounded` and the functions under it
(`crates/dbx-core/src/mongo_shell.rs:158-374`). The filter is given as the parser of JSON
left it. Values are compared as `serde_json` compares them: numbers by their text, objects
without regard to the order of their members. The date parser is a parameter.
-/
namespace Dbx.Source

open Dbx.Lib.Text

/-! ## JSON values -/

mutual

/-- `==` of two values. -/
def Json.same : Json → Json → Bool
  | .null, .null => true
  | .bool a, .bool b => a == b
  | .number a, .number b => a.text == b.text
  | .string a, .string b => a == b
  | .array a, .array b => a.length == b.length && Json.sameItems a b
  | .object a, .object b => a.length == b.length && Json.sameMembers a b
  | _, _ => false

def Json.sameItems : List Json → List Json → Bool
  | [], _ => true
  | a :: as, b :: bs => a.same b && Json.sameItems as bs
  | _ :: _, [] => false

def Json.sameMembers : List (Str × Json) → List (Str × Json) → Bool
  | [], _ => true
  | (key, a) :: as, members =>
    (match members.lookup key with
      | some b => a.same b
      | none => false) && Json.sameMembers as members

end

def Json.asBool : Json → Option Bool
  | .bool b => some b
  | _ => none

def Json.asStr : Json → Option Str
  | .string s => some s
  | _ => none

def Json.asArray : Json → Option (List Json)
  | .array items => some items
  | _ => none

def Json.containsKey (key : Str) : Json → Bool
  | .object members => members.any fun member => member.1 == key
  | _ => false

namespace MongoShell

/-- `key.starts_with('$')`. -/
def isDollar (key : Str) : Bool := key.head? == some '$'

/-! ## Field predicates -/

/-- `parse::<i64>().is_ok()`. -/
def isI64 (text : Str) : Bool :=
  let negative := text.head? == some '-'
  let digits := if negative || text.head? == some '+' then text.tail else text
  let value := digits.foldl (fun n c => 10 * n + (c.toNat - '0'.toNat)) 0
  !digits.isEmpty && digits.all Char.isDigit &&
    decide (value < 2 ^ 63 + if negative then 1 else 0)

def isHexDigit (c : Char) : Bool :=
  c.isDigit || ('a' ≤ c && c ≤ 'f') || ('A' ≤ c && c ≤ 'F')

/-- One wrapper only is tried: the first of the three that is there with a text. -/
def mongoExtendedJsonScalarLiteralIsValid (isRfc3339 : Str → Bool) : Json → Bool
  | .object [(key, .string value)] =>
    if key = "$oid".toList then value.length == 24 && value.all isHexDigit
    else if key = "$numberLong".toList then isI64 value
    else key == "$date".toList && isRfc3339 value
  | _ => false

def operatorNames : List Str :=
  ["$eq", "$ne", "$gt", "$gte", "$lt", "$lte", "$in", "$nin", "$exists"].map String.toList

def mongoFieldPredicateContainsOpaqueLogic (isRfc3339 : Str → Bool) : Json → Bool
  | .object predicate =>
    !mongoExtendedJsonScalarLiteralIsValid isRfc3339 (.object predicate) &&
      predicate.any (fun member => isDollar member.1) &&
      predicate.any fun member => !operatorNames.contains member.1
  | _ => false

def mongoFieldPredicateIsEmptyNin : Json → Bool
  | .object [(key, .array items)] => key == "$nin".toList && items.isEmpty
  | _ => false

def mongoFieldPredicateIsExistsTrue : Json → Bool
  | .object [(key, .bool true)] => key == "$exists".toList
  | _ => false

/-! ## Filters that bound nothing -/

mutual

def mongoFilterValueIsUnbounded : Json → Bool
  | .object filter =>
    filter.isEmpty || filter.any (fun member => member.1 == "$where".toList) ||
      filter.any (fun member => member.1 == "$expr".toList) || everyMemberUnbounded filter
  | _ => true

def everyMemberUnbounded : List (Str × Json) → Bool
  | [] => true
  | (key, value) :: filter => memberUnbounded key value && everyMemberUnbounded filter

def memberUnbounded (key : Str) : Json → Bool
  | .array clauses =>
    if key = "$comment".toList then true
    else if key = "$and".toList then clauses.isEmpty || everyClauseUnbounded clauses
    else if key = "$or".toList then clauses.isEmpty || someClauseUnbounded clauses
    else isDollar key
  | value =>
    -- a `$and`, `$or` or `$nor` that is no array starts with `$` as well
    mongoFieldPredicateIsEmptyNin value ||
      (key == "_id".toList && mongoFieldPredicateIsExistsTrue value) || isDollar key

def everyClauseUnbounded : List Json → Bool
  | [] => true
  | clause :: clauses => mongoFilterValueIsUnbounded clause && everyClauseUnbounded clauses

def someClauseUnbounded : List Json → Bool
  | [] => false
  | clause :: clauses => mongoFilterValueIsUnbounded clause || someClauseUnbounded clauses

end

/-! ## Complementary clauses -/

inductive MongoFieldOperator where
  | eq | ne | gt | gte | lt | lte | isIn | nin | exists
  deriving DecidableEq

structure MongoPureFieldPredicate where
  field : Str
  operator : MongoFieldOperator
  operand : Json

def mongoFieldOperator (name : Str) : Option MongoFieldOperator :=
  [("$eq".toList, .eq), ("$ne".toList, .ne), ("$gt".toList, .gt), ("$gte".toList, .gte),
    ("$lt".toList, .lt), ("$lte".toList, .lte), ("$in".toList, .isIn), ("$nin".toList, .nin),
    ("$exists".toList, .exists)].lookup name

/-- The predicate of a member that names a field. -/
def fieldPredicate (isRfc3339 : Str → Bool) (field : Str) : Json → Option MongoPureFieldPredicate
  | .object predicate =>
    if mongoExtendedJsonScalarLiteralIsValid isRfc3339 (.object predicate) ||
        !predicate.any (fun member => isDollar member.1) then
      some ⟨field, .eq, .object predicate⟩
    else
      match predicate with
      | [(name, operand)] => (mongoFieldOperator name).map fun operator => ⟨field, operator, operand⟩
      | _ => none
  | predicate => some ⟨field, .eq, predicate⟩

/-- The only answer of a list. -/
def onlyOne {α : Type} : List (Option α) → Option α
  | [answer] => answer
  | _ => none

mutual

def mongoPureFieldPredicate (isRfc3339 : Str → Bool) : Json → Option MongoPureFieldPredicate
  | .object filter => onlyOne (pureMembers isRfc3339 filter)
  | _ => none

/-- The members other than `$comment`. -/
def pureMembers (isRfc3339 : Str → Bool) : List (Str × Json) → List (Option MongoPureFieldPredicate)
  | [] => []
  | (field, predicate) :: filter =>
    if field = "$comment".toList then pureMembers isRfc3339 filter
    else pureMember isRfc3339 field predicate :: pureMembers isRfc3339 filter

def pureMember (isRfc3339 : Str → Bool) (field : Str) : Json → Option MongoPureFieldPredicate
  | .array clauses =>
    if field = "$and".toList then onlyOne (boundedClauses isRfc3339 clauses)
    else if field = "$or".toList then onlyOne (pureClauses isRfc3339 clauses)
    else if isDollar field then none
    else fieldPredicate isRfc3339 field (.array clauses)
  | predicate => if isDollar field then none else fieldPredicate isRfc3339 field predicate

def pureClauses (isRfc3339 : Str → Bool) : List Json → List (Option MongoPureFieldPredicate)
  | [] => []
  | clause :: clauses =>
    mongoPureFieldPredicate isRfc3339 clause :: pureClauses isRfc3339 clauses

/-- The clauses that bound something. -/
def boundedClauses (isRfc3339 : Str → Bool) : List Json → List (Option MongoPureFieldPredicate)
  | [] => []
  | clause :: clauses =>
    if mongoFilterValueIsUnbounded clause then boundedClauses isRfc3339 clauses
    else mongoPureFieldPredicate isRfc3339 clause :: boundedClauses isRfc3339 clauses

end

def mongoJsonSetsEqual (left right : Json) : Bool :=
  match left.asArray, right.asArray with
  | some left, some right =>
    left.all (fun value => right.any fun other => other.same value) &&
      right.all fun value => left.any fun other => other.same value
  | _, _ => false

def mongoFieldPredicatesAreComplementary (left right : MongoPureFieldPredicate) : Bool :=
  if left.field ≠ right.field then false
  else
    match left.operator, right.operator with
    | .exists, .exists =>
      match left.operand.asBool, right.operand.asBool with
      | some left, some right => left != right
      | _, _ => false
    | .isIn, .nin | .nin, .isIn => mongoJsonSetsEqual left.operand right.operand
    | .eq, .ne | .ne, .eq | .gt, .lte | .lte, .gt | .gte, .lt | .lt, .gte =>
      left.operand.same right.operand
    | _, _ => false

def mongoOrHasComplementaryFieldClauses (isRfc3339 : Str → Bool) : List Json → Bool
  | [] => false
  | clause :: clauses =>
    (match mongoPureFieldPredicate isRfc3339 clause with
      | none => false
      | some predicate =>
        (clauses.filterMap (mongoPureFieldPredicate isRfc3339)).any
          (mongoFieldPredicatesAreComplementary predicate)) ||
      mongoOrHasComplementaryFieldClauses isRfc3339 clauses

/-! ## Filters that are not looked through -/

mutual

def mongoFilterContainsOpaqueLogic (isRfc3339 : Str → Bool) : Json → Bool
  | .object filter => someMemberOpaque isRfc3339 filter
  | _ => true

def someMemberOpaque (isRfc3339 : Str → Bool) : List (Str × Json) → Bool
  | [] => false
  | (key, value) :: filter => memberOpaque isRfc3339 key value || someMemberOpaque isRfc3339 filter

def memberOpaque (isRfc3339 : Str → Bool) (key : Str) : Json → Bool
  | .array clauses =>
    if key = "$comment".toList then false
    else if key = "$and".toList then clauses.isEmpty || someClauseOpaque isRfc3339 clauses
    else if key = "$or".toList then
      clauses.isEmpty || someClauseOpaque isRfc3339 clauses ||
        clauses.any (Json.containsKey "$and".toList) ||
        mongoOrHasComplementaryFieldClauses isRfc3339 clauses
    else isDollar key
  | value =>
    if key = "$comment".toList then false
    else isDollar key || mongoFieldPredicateContainsOpaqueLogic isRfc3339 value

def someClauseOpaque (isRfc3339 : Str → Bool) : List Json → Bool
  | [] => false
  | clause :: clauses =>
    mongoFilterContainsOpaqueLogic isRfc3339 clause || someClauseOpaque isRfc3339 clauses

end

/-- The answer for the text of a filter, given what the parser made of it. -/
def mongoFilterIsEffectivelyUnbounded (isRfc3339 : Str → Bool) : Option Json → Bool
  | none => true
  | some value =>
    mongoFilterContainsOpaqueLogic isRfc3339 value || mongoFilterValueIsUnbounded value

end MongoShell

end Dbx.Source
