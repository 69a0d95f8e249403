import Dbx.Source.AgentKv

/-!
# A confirmation authorises one action once

In every run of interleaved preflight and consume calls on etcd
(`crates/dbx-core/src/agent_kv.rs:906-965`) whose tokens are new when they are made, a
token lets at most one consume call succeed, and only for what it was issued for. The
parameters are compared by a digest of their canonical text (`agent_kv.rs:1023-1047`), and
values with the same canonical text are equal up to the order of object members.
-/
namespace Dbx.Guarantees.EtcdConfirmation

open Dbx.Lib.Text Dbx.Lib.Program Dbx.Source Dbx.Source.AgentKv List

/-! ## The canonical text -/

mutual

/-- Equal up to the order of object members at every depth. -/
inductive SameJson : Json → Json → Prop
  | scalar (value : Json) : SameJson value value
  | array {items items' : List Json} :
      SameItems items items' → SameJson (.array items) (.array items')
  | object {members sorted sorted' members' : List (Str × Json)} :
      members.Perm sorted → SameMembers sorted sorted' → sorted'.Perm members' →
      SameJson (.object members) (.object members')

inductive SameItems : List Json → List Json → Prop
  | nil : SameItems [] []
  | cons {value value' : Json} {items items' : List Json} :
      SameJson value value' → SameItems items items' →
      SameItems (value :: items) (value' :: items')

inductive SameMembers : List (Str × Json) → List (Str × Json) → Prop
  | nil : SameMembers [] []
  | cons {key : Str} {value value' : Json} {members members' : List (Str × Json)} :
      SameJson value value' → SameMembers members members' →
      SameMembers ((key, value) :: members) ((key, value') :: members')

end

mutual

/-- The value with the members of every object sorted. -/
def sortMembers : Json → Json
  | .object members => .object (sortByKey (sortEach members))
  | .array items => .array (sortItems items)
  | .null => .null
  | .bool b => .bool b
  | .number n => .number n
  | .string s => .string s

def sortItems : List Json → List Json
  | [] => []
  | value :: items => sortMembers value :: sortItems items

def sortEach : List (Str × Json) → List (Str × Json)
  | [] => []
  | (key, value) :: members => (key, sortMembers value) :: sortEach members

end

theorem sortByKey_map {α β : Type} (f : α → β) (entries : List (Str × α)) :
    sortByKey (entries.map fun entry => (entry.1, f entry.2)) =
      (sortByKey entries).map fun entry => (entry.1, f entry.2) :=
  (map_insertionSort _ _ (fun entry : Str × α => (entry.1, f entry.2)) entries
    (fun _ _ _ _ => Iff.rfl)).symm

theorem printMembers_eq (members : List (Str × Json)) : Json.printMembers members =
      members.map fun member => jsonString member.1 ++ ':' :: member.2.print := by
  induction members with
  | nil => rfl
  | cons member members ih => simp [Json.printMembers, ih]

mutual

theorem canonicalJson_eq : ∀ value, canonicalJson value = (sortMembers value).print
  | .object members => by
    rw [canonicalJson, sortMembers, Json.print, canonicalMembers_eq, sortByKey_map,
      printMembers_eq, map_map]
    rfl
  | .array items => by rw [canonicalJson, sortMembers, Json.print, canonicalItems_eq]
  | .null | .bool _ | .number _ | .string _ => rfl

theorem canonicalItems_eq : ∀ items, canonicalItems items = Json.printItems (sortItems items)
  | [] => rfl
  | value :: items => by
    rw [canonicalItems, sortItems, Json.printItems, canonicalJson_eq, canonicalItems_eq]

theorem canonicalMembers_eq : ∀ members, canonicalMembers members =
    (sortEach members).map fun member => (member.1, member.2.print)
  | [] => rfl
  | (key, value) :: members => by
    rw [canonicalMembers, sortEach, map_cons, canonicalJson_eq, canonicalMembers_eq]

end

theorem sortEach_eq (members : List (Str × Json)) :
    sortEach members = members.map fun member => (member.1, sortMembers member.2) := by
  induction members with
  | nil => rfl
  | cons member members ih => rw [sortEach, ih, map_cons]

/-- Members that are pairwise equal once sorted. -/
theorem sameMembers_of_map {left right : List (Str × Json)}
    (each : ∀ member ∈ left, ∀ value, sortMembers member.2 = sortMembers value →
      SameJson member.2 value)
    (same : left.map (fun member => (member.1, sortMembers member.2)) =
      right.map fun member => (member.1, sortMembers member.2)) : SameMembers left right := by
  induction left generalizing right with
  | nil =>
    cases right with
    | nil => exact .nil
    | cons member right => cases same
  | cons member left ih =>
    cases right with
    | nil => cases same
    | cons other right =>
      obtain ⟨key', value'⟩ := other
      rw [map_cons, map_cons, List.cons.injEq, Prod.mk.injEq] at same
      obtain ⟨⟨rfl, values⟩, rest⟩ := same
      apply SameMembers.cons
      · exact each _ mem_cons_self value' values
      · exact ih (forall_mem_cons.mp each).2 rest

theorem sortByKey_perm {α : Type} (entries : List (Str × α)) : (sortByKey entries).Perm entries :=
  perm_insertionSort _ entries

mutual

theorem sameJson_of_sorted : ∀ value other, sortMembers value = sortMembers other →
    SameJson value other
  | .object members, .object members', same => by
    rw [sortMembers, sortMembers, Json.object.injEq, sortEach_eq, sortEach_eq, sortByKey_map,
      sortByKey_map] at same
    apply SameJson.object (sortByKey_perm members).symm _ (sortByKey_perm members')
    apply sameMembers_of_map _ same
    intro member belongs
    exact sameJson_of_sorted_members members member ((sortByKey_perm members).mem_iff.mp belongs)
  | .array items, .array items', same => by
    rw [sortMembers, sortMembers, Json.array.injEq] at same
    exact .array (sameItems_of_sorted items items' same)
  | .null, .null, _ => .scalar _
  | .bool b, .bool b', same | .number n, .number n', same | .string s, .string s', same => by
    rw [sortMembers, sortMembers] at same
    exact same ▸ .scalar _

theorem sameItems_of_sorted : ∀ items items', sortItems items = sortItems items' →
    SameItems items items'
  | [], [], _ => .nil
  | value :: items, value' :: items', same => by
    rw [sortItems, sortItems, List.cons.injEq] at same
    exact .cons (sameJson_of_sorted value value' same.1) (sameItems_of_sorted items items' same.2)

theorem sameJson_of_sorted_members : ∀ (members : List (Str × Json)), ∀ member ∈ members,
    ∀ other, sortMembers member.2 = sortMembers other → SameJson member.2 other
  | (_, value) :: members, member, belongs, other, same => by
    obtain first | later := mem_cons.mp belongs
    · rw [first] at same ⊢
      exact sameJson_of_sorted value other same
    · exact sameJson_of_sorted_members members member later other same

end

/-- The canonical text determines a value up to the order of members. -/
theorem sameJson_of_canonicalJson {value other : Json}
    (same : canonicalJson value = canonicalJson other) : SameJson value other := by
  rw [canonicalJson_eq, canonicalJson_eq] at same
  exact sameJson_of_sorted value other (Json.print_injective same)

/-! ## What is read off a trace -/

variable {token connectionId : Str} {request : Request}

section Trace

variable {D : Type}

def issuedToken : Step D → Option Str
  | .issued _ token _ => some token
  | _ => none

def takenToken : Step D → Option Str
  | .taken _ token _ => some token
  | _ => none

def issuesBy (i : Nat) (w : World D) : List (Str × EtcdPreflightToken D) :=
  w.trace.filterMap fun
    | .issued j token entry => if j = i then some (token, entry) else none
    | _ => none

theorem mem_issuesBy {i : Nat} {w : World D} {entry : EtcdPreflightToken D} :
    (token, entry) ∈ issuesBy i w ↔ .issued i token entry ∈ w.trace := by
  unfold issuesBy
  rw [mem_filterMap]
  constructor
  · intro ⟨step, member, found⟩
    cases step with
    | issued j token' entry' =>
      by_cases same : j = i
      · simp only [same] at found
        obtain ⟨rfl, rfl⟩ := found
        exact same ▸ member
      · simp [same] at found
    | looked | read | taken => cases found
  · intro member
    exact ⟨_, member, by simp⟩

/-- Steps that take the same token are the same step. -/
theorem eq_of_filterMap_nodup {trace : List (Step D)} {x y : Step D}
    (once : (trace.filterMap takenToken).Nodup) (hx : x ∈ trace) (hy : y ∈ trace)
    (first : takenToken x = some token) (second : takenToken y = some token) : x = y := by
  obtain ⟨before, after, rfl⟩ := append_of_mem hx
  rw [filterMap_append, filterMap_cons_some first, nodup_middle, nodup_cons,
    ← filterMap_append] at once
  by_contra different
  have other : y ∈ before ++ after := by simpa [Ne.symm different] using hy
  exact once.1 (mem_filterMap.mpr ⟨y, other, second⟩)

/-- A new token has not been issued before. -/
def FreshToken (w : World D) (op : Op D) (choice : Choice) : Prop :=
  ∀ now entry, op = .insert now entry → choice.token ∉ w.trace.filterMap issuedToken

/-- Tokens in the map have been issued and not been taken; no token is taken twice. -/
structure Inv (w : World D) : Prop where
  held : ∀ token entry, (token, entry) ∈ w.tokens →
    (∃ i, .issued i token entry ∈ w.trace) ∧ token ∉ w.trace.filterMap takenToken
  once : (w.trace.filterMap takenToken).Nodup
  source : ∀ i token entry, .taken i token entry ∈ w.trace →
    ∃ j, .issued j token entry ∈ w.trace

/-- The other calls only add their own steps. -/
def Others (i : Nat) (w w' : World D) : Prop :=
  (∀ step ∈ w.trace, step ∈ w'.trace) ∧ issuesBy i w' = issuesBy i w

/-- What a consume call that succeeds has seen. -/
structure Consumed {D : Type} (sha256 : Str → D) (i : Nat) (connectionId action : Str)
    (params : Json) (token : Str) (w : World D) : Prop where
  entry : ∃ entry, .taken i token entry ∈ w.trace ∧ entry.connectionId = connectionId ∧
    entry.action = action ∧ entry.paramsDigest = etcdParamsDigest sha256 params ∧
    (∃ now, .read i now ∈ w.trace ∧ now < entry.expiresAtMs) ∧
    .looked i entry.clusterId ∈ w.trace

/-- What a returned call has done. -/
def Returned (sha256 : Str → D) (i : Nat) (request : Request) (result : Except Str Response)
    (w : World D) : Prop :=
  match request, result with
  | .preflight connectionId action params, .ok (.issued response) =>
    response.action = action ∧ issuesBy i w = [(response.token,
      { connectionId, action, paramsDigest := etcdParamsDigest sha256 params
        confirmationText := response.confirmationText, expiresAtMs := response.expiresAtMs
        clusterId := response.clusterId })]
  | .consume connectionId action params token _, .ok _ =>
    issuesBy i w = [] ∧ Consumed sha256 i connectionId action params token w
  | _, _ => issuesBy i w = []

end Trace

/-! ## One operation -/

section Operation

variable {D : Type} {i j : Nat} {w : World D} {op : Op D} {choice : Choice}

/-- What an operation does to the world. -/
theorem handle_cases :
    (handle i w op choice).2 = w ∨
    (∃ cluster, (handle i w op choice).2 = { w with trace := w.trace ++ [.looked i cluster] }) ∨
    (∃ time, (handle i w op choice).2 = { w with trace := w.trace ++ [.read i time] }) ∨
    (∃ now entry tokens, op = .insert now entry ∧ (∀ held ∈ tokens, held ∈ w.tokens) ∧
      (handle i w op choice).2 =
        ⟨tokens ++ [(choice.token, entry)], w.trace ++ [.issued i choice.token entry]⟩) ∨
    (∃ token entry, (token, entry) ∈ w.tokens ∧ (handle i w op choice).2 =
        ⟨w.tokens.filter fun held => held.1 ≠ token, w.trace ++ [.taken i token entry]⟩) := by
  cases op with
  | capability connectionId capability =>
    unfold handle
    cases choice.failure <;> exact Or.inl rfl
  | status connectionId =>
    unfold handle
    cases choice.failure with
    | some e => exact Or.inl rfl
    | none => exact Or.inr (Or.inl ⟨_, rfl⟩)
  | currentTimeMillis => exact Or.inr (Or.inr (Or.inl ⟨_, rfl⟩))
  | insert now entry =>
    unfold handle
    cases choice.failure with
    | some e => exact Or.inl rfl
    | none =>
      apply Or.inr ∘ Or.inr ∘ Or.inr ∘ Or.inl
      exact ⟨now, entry, _, rfl, fun held member =>
        mem_of_mem_filter (mem_of_mem_filter member), rfl⟩
  | remove token =>
    unfold handle
    cases choice.failure with
    | some e => exact Or.inl rfl
    | none =>
      dsimp only
      cases found : w.tokens.lookup token with
      | none => exact Or.inl rfl
      | some entry =>
        obtain ⟨front, back, split, _⟩ := lookup_eq_some_iff.mp found
        have member : (token, entry) ∈ w.tokens := by simp [split]
        exact Or.inr (Or.inr (Or.inr (Or.inr ⟨token, entry, member, rfl⟩)))

theorem handle_trace :
    ∀ step ∈ w.trace, step ∈ (handle i w op choice).2.trace := by
  intro step member
  rcases handle_cases with same | ⟨_, same⟩ | ⟨_, same⟩ | ⟨_, _, _, _, _, same⟩ |
      ⟨_, _, _, same⟩
  all_goals
    rw [same]
    simp [member]

/-- Only an insertion is an issue, by the call that makes it. -/
theorem issuesBy_handle (different : ∀ now entry, op = .insert now entry → i ≠ j) :
    issuesBy i (handle j w op choice).2 = issuesBy i w := by
  rcases handle_cases with same | ⟨_, same⟩ | ⟨_, same⟩ |
      ⟨now, entry, _, insert, _, same⟩ | ⟨_, _, _, same⟩
  · rw [same]
  · simp [same, issuesBy]
  · simp [same, issuesBy]
  · simp [same, issuesBy, Ne.symm (different now entry insert)]
  · simp [same, issuesBy]

theorem others_handle (different : i ≠ j) : Others i w (handle j w op choice).2 :=
  ⟨handle_trace, issuesBy_handle fun _ _ _ => different⟩

theorem rely_others : Rely (handle (D := D)) Others where
  refl _ _ := ⟨fun _ member => member, rfl⟩
  trans _ _ _ _ first second :=
    ⟨fun step member => second.1 step (first.1 step member), second.2.trans first.2⟩
  other _ _ _ _ _ different := others_handle different

theorem takenTokens_append {trace : List (Step D)} {step : Step D} (h : takenToken step = none) :
    (trace ++ [step]).filterMap takenToken = trace.filterMap takenToken := by
  simp [h]

/-- A step that takes no token. -/
theorem Inv.append (inv : Inv w) {step : Step D} (h : takenToken step = none) :
    Inv { w with trace := w.trace ++ [step] } := by
  constructor
  · intro token entry member
    obtain ⟨⟨j, issued⟩, untaken⟩ := inv.held token entry member
    rw [takenTokens_append h]
    exact ⟨⟨j, by simp [issued]⟩, untaken⟩
  · rw [takenTokens_append h]
    exact inv.once
  · intro j token entry member
    obtain old | new := mem_append.mp member
    · obtain ⟨k, issued⟩ := inv.source j token entry old
      exact ⟨k, by simp [issued]⟩
    · rw [← mem_singleton.mp new] at h
      cases h

theorem Inv.handle (inv : Inv w) (fresh : FreshToken w op choice) :
    Inv (handle i w op choice).2 := by
  rcases handle_cases with same | ⟨cluster, same⟩ | ⟨time, same⟩ |
      ⟨now, entry, tokens, insert, kept, same⟩ | ⟨token, entry, member, same⟩
  · rw [same]
    exact inv
  · rw [same]
    exact inv.append rfl
  · rw [same]
    exact inv.append rfl
  · -- a new token has not been taken, since what is taken has been issued
    have unused : choice.token ∉ w.trace.filterMap takenToken := by
      intro taken
      obtain ⟨step, member, found⟩ := mem_filterMap.mp taken
      cases step with
      | taken j token entry =>
        cases found
        obtain ⟨k, issued⟩ := inv.source j _ entry member
        exact fresh now _ insert (mem_filterMap.mpr ⟨_, issued, rfl⟩)
      | issued | looked | read => cases found
    have appended : Inv { w with trace := w.trace ++ [.issued i choice.token entry] } :=
      inv.append rfl
    rw [same]
    constructor
    · intro token entry' member
      obtain old | new := mem_append.mp member
      · exact appended.held token entry' (kept _ old)
      · cases mem_singleton.mp new
        rw [takenTokens_append rfl]
        exact ⟨⟨i, by simp⟩, unused⟩
    · exact appended.once
    · exact appended.source
  · obtain ⟨⟨j, issued⟩, untaken⟩ := inv.held token entry member
    have taken : (w.trace ++ [Step.taken i token entry]).filterMap takenToken =
        w.trace.filterMap takenToken ++ [token] := by
      simp [takenToken]
    rw [same]
    constructor
    · intro token' entry' member'
      obtain ⟨old, different⟩ := mem_filter.mp member'
      obtain ⟨⟨k, issued'⟩, untaken'⟩ := inv.held token' entry' old
      have other : token' ≠ token := by simpa using different
      rw [taken]
      exact ⟨⟨k, by simp [issued']⟩, by simp [untaken', other]⟩
    · rw [taken]
      exact List.Nodup.append inv.once (nodup_singleton token) (by simpa using untaken)
    · intro k token' entry' member'
      obtain old | new := mem_append.mp member'
      · obtain ⟨k, issued'⟩ := inv.source k token' entry' old
        exact ⟨k, by simp [issued']⟩
      · cases mem_singleton.mp new
        exact ⟨j, by simp [issued]⟩

end Operation

/-! ## One call -/

variable {action : Str} {params : Json}

section Calls

variable {D : Type} {sha256 : Str → D} {i : Nat} {w : World D}

abbrev SafeCall (sha256 : Str → D) (i : Nat) (request : Request) (p : Action D Response)
    (w : World D) : Prop :=
  Safe handle Others FreshToken Inv i (fun w => issuesBy i w = []) (Returned sha256 i request) p w

theorem normalize_ok {normal : Str} (h : normalizeEtcdDangerousAction action = .ok normal) :
    normal = action := by
  unfold normalizeEtcdDangerousAction at h
  split at h
  · exact (Except.ok.inj h).symm
  · cases h

section

variable (none : issuesBy i w = [])
include none

/-- One operation of a call that has not issued anything. -/
theorem safe_call {op : Op D} {k : op.Ans → Action D Response}
    (next : ∀ w' choice, Others i w w' → FreshToken w' op choice →
      SafeCall sha256 i request (k (handle i w' op choice).1) (handle i w' op choice).2) :
    SafeCall sha256 i request (.call op k) w := by
  constructor
  · exact none
  · intro w' choice steady inv fresh
    exact ⟨inv.handle fresh, next w' choice steady fresh⟩

theorem returned_error {e : Str} : SafeCall sha256 i request (.ret (.error e)) w := by
  cases request <;> exact none

/-- An operation other than an insertion leaves the call without an issue. -/
theorem safe_step {op : Op D} {k : op.Ans → Action D Response}
    (other : ∀ now entry, op ≠ .insert now entry)
    (next : ∀ w' choice, (∀ step ∈ w.trace, step ∈ (handle i w' op choice).2.trace) →
      issuesBy i (handle i w' op choice).2 = [] →
      SafeCall sha256 i request (k (handle i w' op choice).1) (handle i w' op choice).2) :
    SafeCall sha256 i request (.call op k) w := by
  apply safe_call none
  intro w' choice steady _
  apply next w' choice fun step member => handle_trace step (steady.1 step member)
  rw [issuesBy_handle fun now entry h => absurd h (other now entry), steady.2]
  exact none

theorem safe_capability {capability : AgentCapability} {f : Unit → Action D Response}
    (next : ∀ w', issuesBy i w' = [] → SafeCall sha256 i request (f ()) w') :
    SafeCall sha256 i request
      (Prog.andOk (Prog.await (Op.capability connectionId capability)) f) w := by
  apply safe_step none (by simp)
  intro w' choice _ after
  cases failure : choice.failure <;> simp only [handle, failure] at after ⊢
  · exact next _ after
  · exact returned_error after

theorem safe_status {f : Option Str → Action D Response}
    (next : ∀ w' cluster, (∀ step ∈ w.trace, step ∈ w'.trace) → issuesBy i w' = [] →
      .looked i cluster ∈ w'.trace → SafeCall sha256 i request (f cluster) w') :
    SafeCall sha256 i request (Prog.andOk (Prog.await (Op.status connectionId)) f) w := by
  apply safe_step none (by simp)
  intro w' choice kept after
  cases failure : choice.failure <;> simp only [handle, failure] at kept after ⊢
  · exact next _ _ kept after (by simp)
  · exact returned_error after

theorem safe_time {f : Nat → Action D Response}
    (next : ∀ w' now, (∀ step ∈ w.trace, step ∈ w'.trace) → issuesBy i w' = [] →
      .read i now ∈ w'.trace → SafeCall sha256 i request (f now) w') :
    SafeCall sha256 i request (Prog.bind (Prog.await Op.currentTimeMillis) f) w := by
  apply safe_step none (by simp)
  intro w' choice kept after
  exact next _ _ kept after (by simp [handle])

theorem safe_remove {f : Option (EtcdPreflightToken D) → Action D Response}
    (next : ∀ w' found, (∀ step ∈ w.trace, step ∈ w'.trace) → issuesBy i w' = [] →
      (∀ entry, found = some entry → .taken i token entry ∈ w'.trace) →
      SafeCall sha256 i request (f found) w') :
    SafeCall sha256 i request (Prog.andOk (Prog.await (Op.remove token)) f) w := by
  apply safe_step none (by simp)
  intro w' choice kept after
  cases failure : choice.failure with
  | some e =>
    simp only [handle, failure] at after ⊢
    exact returned_error after
  | none =>
    cases found : w'.tokens.lookup token <;> simp only [handle, failure, found] at kept after ⊢
    · exact next _ _ kept after nofun
    · refine next _ _ kept after fun entry' h => ?_
      cases h
      simp

end

theorem safe_preflight (none : issuesBy i w = []) :
    SafeCall sha256 i (.preflight connectionId action params)
      (etcdPreflightCore sha256 connectionId action params) w := by
  unfold etcdPreflightCore
  cases h : normalizeEtcdDangerousAction action with
  | error e => exact none
  | ok normal =>
    obtain rfl := normalize_ok h
    apply safe_capability none
    intro w₁ none₁
    apply safe_status none₁
    intro w₂ cluster _ none₂ _
    apply safe_time none₂
    intro w₃ now _ none₃ _
    apply safe_call none₃
    intro w₄ choice steady _
    cases failure : choice.failure with
    | some e =>
      simp only [handle, failure]
      exact steady.2.trans none₃
    | none =>
      simp only [handle, failure]
      constructor
      · rfl
      · have before : issuesBy i w₄ = [] := steady.2.trans none₃
        unfold issuesBy at before ⊢
        rw [filterMap_append, before]
        simp

theorem safe_consume [DecidableEq D] {token confirmationText : Str}
    (none : issuesBy i w = []) :
    SafeCall sha256 i (.consume connectionId action params token confirmationText)
      (etcdConsumePreflightCore sha256 connectionId action params token confirmationText) w := by
  unfold etcdConsumePreflightCore
  cases h : normalizeEtcdDangerousAction action with
  | error e => exact none
  | ok normal =>
    obtain rfl := normalize_ok h
    apply safe_time none
    intro w₁ now _ none₁ read
    apply safe_remove none₁
    intro w₂ found kept none₂ taken
    cases found with
    | none => exact none₂
    | some entry =>
      dsimp only
      split
      · exact none₂
      split
      · exact none₂
      rename_i unexpired matching
      apply safe_status none₂
      intro w₃ cluster kept' none₃ looked
      split
      · exact none₃
      rename_i cluster_eq
      rw [not_not] at cluster_eq
      simp only [not_or, not_not] at matching
      constructor
      · exact none₃
      · constructor
        apply Exists.intro entry
        exact ⟨kept' _ (taken entry rfl), matching.1, matching.2.1, matching.2.2.1,
          ⟨now, kept' _ (kept _ read), by omega⟩, cluster_eq ▸ looked⟩

end Calls

/-! ## Runs -/

section Runs

variable {D : Type} {sha256 : Str → D} {i : Nat} {w w' : World D}

theorem Consumed.of_others (h : Consumed sha256 i connectionId action params token w)
    (steady : Others i w w') : Consumed sha256 i connectionId action params token w' := by
  obtain ⟨entry, taken, hconnection, haction, hdigest, ⟨now, read, unexpired⟩, looked⟩ := h.entry
  constructor
  exact ⟨entry, steady.1 _ taken, hconnection, haction, hdigest, ⟨now, steady.1 _ read, unexpired⟩,
    steady.1 _ looked⟩

theorem Returned.of_others {result : Except Str Response} (steady : Others i w w')
    (h : Returned sha256 i request result w) :
    Returned sha256 i request result w' := by
  unfold Returned at h ⊢
  split at h
  · exact ⟨h.1, steady.2.trans h.2⟩
  · exact ⟨steady.2.trans h.1, h.2.of_others steady⟩
  · exact steady.2.trans h

theorem obligations [DecidableEq D] (sha256 : Str → D) :
    Pool.Obligations handle (program sha256) Others FreshToken Inv
      (fun i w => issuesBy i w = []) (fun i w => issuesBy i w = []) (Returned sha256) where
  env := rely_others
  stableFresh i w w' steady none := steady.2.trans none
  stableP i w w' steady none := steady.2.trans none
  stableQ i request result w w' steady h := h.of_others steady
  start i request w none := by
    cases request with
    | preflight connectionId action params =>
      exact safe_preflight none
    | consume connectionId action params token confirmationText =>
      exact safe_consume none

theorem initial_allSafe : Pool.AllSafe handle Others FreshToken Inv (fun i w => issuesBy i w = [])
      (fun i w => issuesBy i w = []) (Returned sha256) ({ world := {} } : Calls D) where
  world := ⟨by simp, by simp, by simp⟩
  unused _ _ := rfl
  calls := by simp

/-- An issue is that of a preflight call which has returned its token. -/
theorem issuer_returned {calls : Calls D}
    (safe : Pool.AllSafe handle Others FreshToken Inv (fun i w => issuesBy i w = [])
      (fun i w => issuesBy i w = []) (Returned sha256) calls)
    {j : Nat} {entry : EtcdPreflightToken D} (issued : .issued j token entry ∈ calls.world.trace) :
    ∃ params response, calls.calls[j]? =
        some (.preflight entry.connectionId entry.action params, .ret (.ok (.issued response))) ∧
      response.token = token ∧ entry.paramsDigest = etcdParamsDigest sha256 params ∧
      entry.expiresAtMs = response.expiresAtMs ∧ entry.clusterId = response.clusterId := by
  have member := mem_issuesBy.mpr issued
  have nonempty : issuesBy j calls.world ≠ [] := ne_nil_of_mem member
  cases found : calls.calls[j]? with
  | none =>
    have past : calls.calls.length ≤ j := by
      rw [getElem?_eq_none_iff] at found
      omega
    exact absurd (safe.unused j past) nonempty
  | some call =>
    obtain ⟨request, p⟩ := call
    have safe := safe.calls j request p found
    cases p with
    | call op k => exact absurd safe.1 nonempty
    | ret result =>
      have returned : Returned sha256 j request result calls.world := safe
      unfold Returned at returned
      split at returned
      · rename_i connectionId action params response
        rw [returned.2, mem_singleton, Prod.mk.injEq] at member
        obtain ⟨rfl, rfl⟩ := member
        exact ⟨params, response, by rw [← returned.1], rfl, rfl, rfl, rfl⟩
      · exact absurd returned.1 nonempty
      · exact absurd returned nonempty

end Runs

/-- Call `i` is a consume call that has succeeded. -/
def Succeeded {D : Type} (calls : Calls D) (i : Nat) (connectionId action : Str) (params : Json)
    (token text : Str) : Prop :=
  calls.calls[i]? = some (.consume connectionId action params token text, .ret (.ok .consumed))

/-- Call `i` is a preflight call that has returned a token. -/
def Issued {D : Type} (calls : Calls D) (i : Nat) (connectionId action : Str) (params : Json)
    (response : EtcdPreflightResponse) : Prop :=
  calls.calls[i]? = some (.preflight connectionId action params, .ret (.ok (.issued response)))

/-- A token lets at most one consume call succeed, and only one that repeats the request of
the preflight call which returned the token, before the token expires and on the cluster
that was seen then. -/
theorem confirmation_authorises_once {D : Type} [DecidableEq D] (sha256 : Str → D)
    (collisionFree : Function.Injective sha256) (events : List (Event Request Choice))
    (fresh : Pool.RunAllowed handle (program sha256) FreshToken { world := {} } events) :
    let calls := afterEvents sha256 events
    (∀ i j connectionId connectionId' action action' params params' token text text',
      Succeeded calls i connectionId action params token text →
      Succeeded calls j connectionId' action' params' token text' → i = j) ∧
    ∀ i connectionId action params token text,
      Succeeded calls i connectionId action params token text →
      ∃ j params' response, Issued calls j connectionId action params' response ∧
        response.token = token ∧ SameJson params' params ∧
        (∃ now, .read i now ∈ calls.world.trace ∧ now < response.expiresAtMs) ∧
        .looked i response.clusterId ∈ calls.world.trace := by
  intro calls
  have safe := Pool.run_allSafe (obligations sha256) initial_allSafe fresh
  constructor
  · intro i j _ _ _ _ _ _ token _ _ first second
    have consumed := (safe.calls i _ _ first).2
    have consumed' := (safe.calls j _ _ second).2
    obtain ⟨entry, taken, _⟩ := Consumed.entry consumed
    obtain ⟨entry', taken', _⟩ := Consumed.entry consumed'
    have same := eq_of_filterMap_nodup safe.world.once taken taken' rfl rfl
    cases same
    rfl
  · intro i connectionId action params token text found
    obtain ⟨entry, taken, rfl, rfl, digest, ⟨now, read, unexpired⟩, looked⟩ :=
      Consumed.entry (safe.calls i _ _ found).2
    obtain ⟨j, issued⟩ := safe.world.source i token entry taken
    obtain ⟨params', response, issuer, htoken, hdigest, hexpires, hcluster⟩ :=
      issuer_returned safe issued
    apply Exists.intro j
    apply Exists.intro params'
    apply Exists.intro response
    have texts : canonicalJson params' = canonicalJson params :=
      collisionFree (hdigest.symm.trans digest)
    exact ⟨issuer, htoken, sameJson_of_canonicalJson texts, ⟨now, read, by omega⟩,
      hcluster ▸ looked⟩

def revokeParams : Json :=
  .object [("id".toList, .string "7".toList), ("force".toList, .bool true)]

def reorderedParams : Json :=
  .object [("force".toList, .bool true), ("id".toList, .string "7".toList)]

/-- A revocation is confirmed with its members in another order, and the token is tried
again. -/
def revocation : List (Event Request Choice) :=
  let consume := Request.consume "c".toList "lease_revoke".toList reorderedParams "t".toList
    etcdConfirmationText
  [.start (.preflight "c".toList "lease_revoke".toList revokeParams), .step 0 {}, .step 0 {},
    .step 0 { time := 5 }, .step 0 { token := "t".toList }, .start consume, .start consume,
    .step 1 { time := 6 }, .step 1 {}, .step 1 {}, .step 2 { time := 6 }, .step 2 {}]

theorem confirmation_authorises_revocation :
    Pool.RunAllowed handle (program (id : Str → Str)) FreshToken { world := {} } revocation ∧
    Succeeded (afterEvents (id : Str → Str) revocation) 1 "c".toList "lease_revoke".toList
      reorderedParams "t".toList etcdConfirmationText ∧
    ¬ Succeeded (afterEvents (id : Str → Str) revocation) 2 "c".toList "lease_revoke".toList
      reorderedParams "t".toList etcdConfirmationText := by
  have fresh : Pool.RunAllowed handle (program (id : Str → Str)) FreshToken { world := {} }
      revocation := by
    refine ⟨trivial, ?_, ?_, ?_, ?_, trivial, trivial, ?_, ?_, ?_, ?_, ?_, trivial⟩
    · exact fun _ _ _ _ _ _ _ => by decide
    · exact fun _ _ _ _ _ _ _ => by decide
    · exact fun _ _ _ _ _ _ _ => by decide
    · exact fun _ _ _ _ _ _ _ => by decide
    all_goals
      intro _ _ _ found _ _ isInsert
      cases found
      cases isInsert
  have once := (confirmation_authorises_once (id : Str → Str) Function.injective_id revocation
    fresh).1
  have first : Succeeded (afterEvents (id : Str → Str) revocation) 1 "c".toList
      "lease_revoke".toList reorderedParams "t".toList etcdConfirmationText := rfl
  constructor
  · exact fresh
  constructor
  · exact first
  · intro second
    exact absurd (once 1 2 _ _ _ _ _ _ _ _ _ first second) (by decide)

end Dbx.Guarantees.EtcdConfirmation
