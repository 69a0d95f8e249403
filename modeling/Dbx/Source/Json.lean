import Mathlib.Data.List.Sort
import Dbx.Source.Cells

/-!
# JSON documents

`serde_json::Value` as the program uses it for requests: numbers keep their text
(`arbitrary_precision`) and objects the order of their members (`preserve_order`).
`Json.print` is `serde_json::to_string`. The text of a value can be told from what stands
behind it, so it determines the value.
-/
namespace Dbx.Source

open Dbx.Lib.Text Value List

inductive Json where
  | null
  | bool (b : Bool)
  | number (n : JsonNumber)
  | string (s : Str)
  | array (items : List Json)
  | object (members : List (Str × Json))

/-- A string in quotes. -/
def jsonString (s : Str) : Str := '"' :: s.flatMap escapeChar ++ ['"']

mutual

def Json.print : Json → Str
  | .null => "null".toList
  | .bool true => "true".toList
  | .bool false => "false".toList
  | .number n => n.text
  | .string s => jsonString s
  | .array items => '[' :: joinWith [','] (Json.printItems items) ++ [']']
  | .object members => '\x7b' :: joinWith [','] (Json.printMembers members) ++ ['\x7d']

def Json.printItems : List Json → List Str
  | [] => []
  | value :: items => value.print :: Json.printItems items

def Json.printMembers : List (Str × Json) → List Str
  | [] => []
  | (key, value) :: members =>
    (jsonString key ++ ':' :: value.print) :: Json.printMembers members

end

variable {close : Char}

variable {texts : List Str}

namespace Json

/-! ## Reading a printed value -/

/-- The text does not go on with a character of a number. -/
def Ends (rest : Str) : Prop := ∀ c ∈ rest.head?, isNumberChar c = false

theorem ends_cons {c : Char} (h : isNumberChar c = false) {rest : Str} : Ends (c :: rest) := by
  intro d hd
  rw [head?_cons, Option.mem_some_iff] at hd
  exact hd ▸ h

theorem escapeChar_ne_quote (c : Char) : ∃ first rest, escapeChar c = first :: rest ∧ first ≠ '"' := by
  by_cases quote : c = '"'
  · exact ⟨'\\', ['"'], by rw [quote]; rfl, by decide⟩
  unfold escapeChar
  rw [if_neg quote]
  split
  · exact ⟨_, _, rfl, by decide⟩
  repeat
    split
    · exact ⟨_, _, rfl, by decide⟩
  exact ⟨_, _, rfl, quote⟩

theorem jsonString_inj {s t rest rest' : Str}
    (same : jsonString s ++ rest = jsonString t ++ rest') : s = t ∧ rest = rest' := by
  simp only [jsonString, cons_append, append_assoc, nil_append, cons.injEq,
    true_and] at same
  induction s generalizing t with
  | nil =>
    cases t with
    | nil => exact ⟨rfl, by simpa using same⟩
    | cons c t =>
      obtain ⟨first, others, escaped, different⟩ := escapeChar_ne_quote c
      simp only [flatMap_nil, nil_append, flatMap_cons, escaped, cons_append,
        cons.injEq] at same
      exact absurd same.1.symm different
  | cons a s ih =>
    cases t with
    | nil =>
      obtain ⟨first, others, escaped, different⟩ := escapeChar_ne_quote a
      simp only [flatMap_nil, nil_append, flatMap_cons, escaped, cons_append,
        cons.injEq] at same
      exact absurd same.1 different
    | cons b t =>
      simp only [flatMap_cons, append_assoc] at same
      have read := unescapeChar_escapeChar a (s.flatMap escapeChar ++ '"' :: rest)
      rw [same, unescapeChar_escapeChar] at read
      injection read with read
      injection read with head tail
      obtain ⟨rfl, rfl⟩ := ih tail.symm
      exact ⟨by rw [head], rfl⟩

theorem number_inj {n m : JsonNumber} {rest rest' : Str} (ends : Ends rest) (ends' : Ends rest')
    (same : n.text ++ rest = m.text ++ rest') : n = m ∧ rest = rest' := by
  have taken : ∀ (n : JsonNumber) (rest : Str), Ends rest →
      (n.text ++ rest).takeWhile isNumberChar = n.text := by
    intro n rest ends
    rw [takeWhile_append_of_pos (all_eq_true.mp n.chars)]
    cases rest with
    | nil => simp
    | cons c rest => simp [ends c rfl]
  have texts : n.text = m.text := by
    rw [← taken n rest ends, same, taken m rest' ends']
  rw [texts] at same
  constructor
  · obtain ⟨text, _, _⟩ := n
    obtain ⟨text', _, _⟩ := m
    cases texts
    rfl
  · exact append_cancel_left same

/-- The first character of a value's text tells its kind. -/
def kindOf (c : Char) : Nat :=
  if c = 'n' then 0 else if c = 't' then 1 else if c = 'f' then 2 else if c = '"' then 3
  else if c = '[' then 4 else if c = '\x7b' then 5 else if isNumberChar c then 6 else 7

def kind : Json → Nat
  | null => 0
  | bool true => 1
  | bool false => 2
  | string _ => 3
  | array _ => 4
  | object _ => 5
  | number _ => 6

theorem kindOf_numberChar {c : Char} (h : isNumberChar c = true) : kindOf c = 6 := by
  have notIn (d : Char) (hd : isNumberChar d = false) : c ≠ d := by
    intro same
    rw [same, hd] at h
    cases h
  unfold kindOf
  rw [if_neg (notIn _ (by decide)), if_neg (notIn _ (by decide)), if_neg (notIn _ (by decide)),
    if_neg (notIn _ (by decide)), if_neg (notIn _ (by decide)), if_neg (notIn _ (by decide)),
    if_pos h]

theorem print_head (value : Json) : ∃ c rest, value.print = c :: rest ∧ kindOf c = value.kind := by
  cases value with
  | null => exact ⟨_, _, rfl, by decide⟩
  | bool b => cases b <;> exact ⟨_, _, rfl, by decide⟩
  | string | array | object => exact ⟨_, _, rfl, rfl⟩
  | number n =>
    obtain ⟨text, nonempty, chars⟩ := n
    cases text with
    | nil => exact absurd rfl nonempty
    | cons c rest =>
      rw [all_cons, Bool.and_eq_true] at chars
      exact ⟨c, rest, rfl, kindOf_numberChar chars.1⟩

theorem kind_eq {value other : Json} {rest rest' : Str}
    (same : value.print ++ rest = other.print ++ rest') : value.kind = other.kind := by
  obtain ⟨c, tail, printed, kind⟩ := print_head value
  obtain ⟨d, tail', printed', kind'⟩ := print_head other
  rw [printed, printed', cons_append, cons_append, cons.injEq] at same
  rw [← kind, ← kind', same.1]

theorem kind_lt (value : Json) : value.kind < 7 := by
  unfold kind
  split <;> omega

/-- What follows an item of a list: the next one, or the closing bracket. -/
def behind (close : Char) (texts : List Str) (rest : Str) : Str :=
  match texts with
  | [] => close :: rest
  | _ :: _ => ',' :: joinWith [','] texts ++ close :: rest

theorem joinWith_behind {text : Str} {rest : Str} :
    joinWith [','] (text :: texts) ++ close :: rest = text ++ behind close texts rest := by
  cases texts with
  | nil => rfl
  | cons next texts => simp [joinWith, behind]

theorem ends_behind (h : isNumberChar close = false) {rest : Str} :
    Ends (behind close texts rest) := by
  cases texts with
  | nil => exact ends_cons h
  | cons text texts => exact ends_cons (by decide)

/-- Lists that go on in the same way go on with the same items. -/
theorem behind_inj (h : close ≠ ',') {texts' : List Str} {rest rest' : Str}
    (same : behind close texts rest = behind close texts' rest') :
    joinWith [','] texts ++ close :: rest = joinWith [','] texts' ++ close :: rest' := by
  cases texts with
  | nil =>
    cases texts' with
    | nil => exact same
    | cons text' texts' => exact absurd (cons.inj same).1 h
  | cons text texts =>
    cases texts' with
    | nil => exact absurd (cons.inj same).1.symm h
    | cons text' texts' => exact (cons.inj same).2

theorem print_ne_close (h : kindOf close = 7) (value : Json) (rest tail : Str) :
    close :: rest ≠ value.print ++ tail := by
  intro same
  obtain ⟨c, others, printed, kind⟩ := print_head value
  rw [printed, cons_append, cons.injEq] at same
  have := kind_lt value
  rw [← kind, ← same.1, h] at this
  omega

mutual

/-- A value is read off the front of a text, and so is what follows it. -/
theorem print_inj {value other : Json} {rest rest' : Str} (ends : Ends rest) (ends' : Ends rest')
    (same : value.print ++ rest = other.print ++ rest') : value = other ∧ rest = rest' := by
  match value, other, kind_eq same with
  | .null, .null, _ | .bool true, .bool true, _ | .bool false, .bool false, _ =>
    exact ⟨rfl, append_cancel_left same⟩
  | .number n, .number m, _ =>
    obtain ⟨rfl, tails⟩ := number_inj ends ends' same
    exact ⟨rfl, tails⟩
  | .string s, .string t, _ =>
    obtain ⟨rfl, tails⟩ := jsonString_inj same
    exact ⟨rfl, tails⟩
  | .array items, .array items', _ =>
    simp only [print, cons_append, append_assoc, nil_append, cons.injEq,
      true_and] at same
    obtain ⟨rfl, tails⟩ := printItems_inj same
    exact ⟨rfl, tails⟩
  | .object members, .object members', _ =>
    simp only [print, cons_append, append_assoc, nil_append, cons.injEq,
      true_and] at same
    obtain ⟨rfl, tails⟩ := printMembers_inj same
    exact ⟨rfl, tails⟩

theorem printItems_inj {items items' : List Json} {rest rest' : Str}
    (same : joinWith [','] (printItems items) ++ ']' :: rest =
      joinWith [','] (printItems items') ++ ']' :: rest') : items = items' ∧ rest = rest' := by
  match items, items' with
  | [], [] => exact ⟨rfl, (cons.inj same).2⟩
  | [], value' :: items' =>
    simp only [printItems, joinWith_behind] at same
    exact absurd same (print_ne_close (by decide) value' _ _)
  | value :: items, [] =>
    simp only [printItems, joinWith_behind] at same
    exact absurd same.symm (print_ne_close (by decide) value _ _)
  | value :: items, value' :: items' =>
    simp only [printItems, joinWith_behind] at same
    obtain ⟨rfl, later⟩ := print_inj (ends_behind (by decide)) (ends_behind (by decide)) same
    obtain ⟨rfl, tails⟩ := printItems_inj (behind_inj (by decide) later)
    exact ⟨rfl, tails⟩

theorem printMembers_inj {members members' : List (Str × Json)} {rest rest' : Str}
    (same : joinWith [','] (printMembers members) ++ '\x7d' :: rest =
      joinWith [','] (printMembers members') ++ '\x7d' :: rest') :
    members = members' ∧ rest = rest' := by
  match members, members' with
  | [], [] => exact ⟨rfl, (cons.inj same).2⟩
  | [], (key', value') :: members' | (key, value) :: members, [] =>
    simp only [printMembers, joinWith_behind] at same
    exact absurd (cons.inj same).1 (by decide)
  | (key, value) :: members, (key', value') :: members' =>
    simp only [printMembers, joinWith_behind, append_assoc, cons_append] at same
    obtain ⟨rfl, colon⟩ := jsonString_inj same
    obtain ⟨rfl, later⟩ := print_inj (ends_behind (by decide)) (ends_behind (by decide))
      (cons.inj colon).2
    obtain ⟨rfl, tails⟩ := printMembers_inj (behind_inj (by decide) later)
    exact ⟨rfl, tails⟩

end

theorem print_injective : Function.Injective print := by
  intro value other same
  have ends : Ends [] := by
    intro c hc
    cases hc
  exact (print_inj ends ends (congrArg (· ++ []) same)).1

end Json

end Dbx.Source
