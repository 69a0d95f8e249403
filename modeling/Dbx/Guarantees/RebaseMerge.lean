import Dbx.Source.StateCalibrator

/-!
# What a rebase plan does with each object

An object is its kind, schema and name; its version in a list is the fingerprint of its
definition there. With automatic resolution, `build_rebase_plan`
(`crates/dbx-core/src/state_calibrator.rs:439-536`) merges the three versions of an object:
an unchanged side gives way to the other, equal sides are taken as they are, and two
different changes are left for review. An object of the baseline that one side has deleted
is dropped even if the other side has changed it.

Objects are told apart by a text, the kind, schema and name joined by dots. `KeysTellApart`
is what the merge needs of it: different objects of the three lists have different texts.
-/
namespace Dbx.Guarantees.RebaseMerge

open Dbx.Lib.Text Dbx.Lib.Keyed Dbx.Source.StateCalibrator List

structure ObjectId where
  kind : ObjectKind
  schema : Option Str
  name : Str
  deriving DecidableEq, Repr

def identity (object : ObjectDefinition) : ObjectId := ⟨object.kind, object.schema, object.name⟩

/-- The key under which an object of this identity stands. -/
def ObjectId.key (id : ObjectId) : Str := ObjectDefinition.key ⟨id.kind, id.name, id.schema, []⟩

@[simp] theorem key_identity {object : ObjectDefinition} : (identity object).key = object.key := rfl

section Versions

variable {F : Type} [DecidableEq F] (fingerprint : Str → F)

/-- The version that a list has of an object. -/
def version (objects : List ObjectDefinition) (id : ObjectId) : Option F :=
  (lookupLast identity objects id).map fun object => fingerprint object.definition

/-- The plan proposes this version of an object, or that it be absent. -/
def Proposes (plan : RebasePlan F) (id : ObjectId) (v : Option F) : Prop :=
  (plan.proposedObjects.filter fun object => identity object == id).map
    (fun object => fingerprint object.definition) = v.toList

def ListsForReview (plan : RebasePlan F) (id : ObjectId) : Prop :=
  plan.requiresManualReview = true ∧
    ∃ item ∈ plan.conflicts, item.objectKey = id.key ∧ item.resolution = .manualReview

/-- One side has deleted the object and the other has changed it. -/
def DeletedAndChanged (b s t : Option F) : Prop :=
  b.isSome ∧ ((s = none ∧ t ≠ b) ∨ (t = none ∧ s ≠ b))

end Versions

/-- Each list has an object once, and different objects have different keys. -/
structure KeysTellApart (baseline source target : List ObjectDefinition) : Prop where
  baseline_once : (baseline.map identity).Nodup
  source_once : (source.map identity).Nodup
  target_once : (target.map identity).Nodup
  apart : ∀ x ∈ baseline ++ source ++ target, ∀ y ∈ baseline ++ source ++ target,
    x.key = y.key → identity x = identity y

/-! ## The loop of the plan -/

variable {object : ObjectDefinition}

section Loop

variable {F : Type} (source target : List ObjectDefinition)

/-- What one entry adds to an empty plan. -/
abbrev share (entry : ObjectReconciliation F) : RebasePlan F :=
  RebasePlan.absorb source target true {} entry

theorem absorb_eq (plan : RebasePlan F) (entry : ObjectReconciliation F) :
    RebasePlan.absorb source target true plan entry =
      ⟨plan.conflicts ++ (share source target entry).conflicts,
        plan.proposedObjects ++ (share source target entry).proposedObjects,
        plan.requiresManualReview || (share source target entry).requiresManualReview⟩ := by
  unfold share RebasePlan.absorb
  cases entry.status <;>
    simp [RebasePlan.propose, RebasePlan.resolve, RebasePlan.review]

theorem foldl_absorb (entries : List (ObjectReconciliation F)) (plan : RebasePlan F) :
    entries.foldl (RebasePlan.absorb source target true) plan =
      ⟨plan.conflicts ++ entries.flatMap fun entry => (share source target entry).conflicts,
        plan.proposedObjects ++
          entries.flatMap fun entry => (share source target entry).proposedObjects,
        plan.requiresManualReview ||
          entries.any fun entry => (share source target entry).requiresManualReview⟩ := by
  induction entries generalizing plan with
  | nil => simp
  | cons entry entries ih =>
    rw [foldl_cons, ih, absorb_eq]
    simp [Bool.or_assoc]

theorem key_of_proposed {entry : ObjectReconciliation F}
    (member : object ∈ (share source target entry).proposedObjects) :
    object.key = entry.objectKey ∧ object ∈ source ++ target := by
  have fromSource : byKey source entry.objectKey = some object →
      object.key = entry.objectKey ∧ object ∈ source ++ target := by
    intro found
    obtain ⟨belongs, key⟩ := lookupLast_some found
    exact ⟨key, mem_append_left _ belongs⟩
  have fromTarget : byKey target entry.objectKey = some object →
      object.key = entry.objectKey ∧ object ∈ source ++ target := by
    intro found
    obtain ⟨belongs, key⟩ := lookupLast_some found
    exact ⟨key, mem_append_right _ belongs⟩
  unfold share RebasePlan.absorb at member
  cases status : entry.status <;> rw [status] at member <;>
    simp [RebasePlan.propose, RebasePlan.resolve, RebasePlan.review, Option.or_eq_some_iff]
      at member
  case synced => grind
  case bothDriftedIdentical => grind
  case sourceDrifted => exact fromSource member
  case targetDrifted => exact fromTarget member
  case newInSource => exact fromSource member
  case newInTarget => exact fromTarget member
  case newInBoth => exact fromSource member

/-- The version that the plan proposes for a status. -/
def proposedVersion (status : ObjectReconciliationStatus) (s t : Option F) : Option F :=
  match status with
  | .synced | .bothDriftedIdentical => s.or t
  | .targetDrifted | .newInTarget => t
  | .sourceDrifted | .newInSource | .newInBoth => s
  | .bothDriftedConflict | .deletedInSource | .deletedInTarget | .baselineOnly => none

theorem share_proposed (fingerprint : Str → F) (entry : ObjectReconciliation F) :
    (share source target entry).proposedObjects.map (fun object => fingerprint object.definition) =
      (proposedVersion entry.status
        ((byKey source entry.objectKey).map fun object => fingerprint object.definition)
        ((byKey target entry.objectKey).map fun object => fingerprint object.definition)).toList := by
  unfold share RebasePlan.absorb proposedVersion
  dsimp only
  cases byKey source entry.objectKey <;> cases byKey target entry.objectKey <;>
    cases entry.status <;> rfl

theorem share_review {entry : ObjectReconciliation F}
    (conflict : entry.status = .bothDriftedConflict) :
    share source target entry = ⟨[RebasePlan.conflictItem entry .manualReview], [], true⟩ := by
  simp [RebasePlan.absorb, conflict, RebasePlan.review, RebasePlan.resolve]

end Loop

/-! ## The classification -/

section Classify

variable {F : Type} [DecidableEq F] {b s t : Option F}

attribute [local simp] proposedVersion

theorem classify_source_unchanged (h : s = b) :
    proposedVersion (classifyReconciliation b s t).1 s t = t := by
  subst h
  cases s <;> cases t <;> unfold classifyReconciliation
  case some.some s t => by_cases same : s = t <;> simp [same]
  all_goals rfl

theorem classify_target_unchanged (h : t = b) :
    proposedVersion (classifyReconciliation b s t).1 s t = s := by
  subst h
  cases s <;> cases t <;> unfold classifyReconciliation
  case some.some s t =>
    by_cases same : s = t
    · simp [same]
    · simp [same, Ne.symm same]
  all_goals rfl

theorem classify_same_change (h : s = t) :
    proposedVersion (classifyReconciliation b s t).1 s t = s := by
  subst h
  cases b <;> cases s <;> unfold classifyReconciliation
  case some.some b s => by_cases same : b = s <;> simp [same]
  case none.some s => simp
  all_goals rfl

theorem classify_deleted (h : DeletedAndChanged b s t) :
    proposedVersion (classifyReconciliation b s t).1 s t = none ∧
      (classifyReconciliation b s t).1 ≠ .bothDriftedConflict := by
  obtain ⟨present, ⟨rfl, changed⟩ | ⟨rfl, changed⟩⟩ := h
  · cases b <;> cases t <;> simp_all [classifyReconciliation]
  · cases b <;> cases s <;> simp_all [classifyReconciliation]

theorem classify_conflict (hs : s ≠ b) (ht : t ≠ b) (different : s ≠ t)
    (kept : ¬ DeletedAndChanged b s t) :
    (classifyReconciliation b s t).1 = .bothDriftedConflict := by
  unfold DeletedAndChanged at kept
  cases b <;> cases s <;> cases t <;>
    simp_all [classifyReconciliation, eq_comm]

end Classify

section Plan

variable {F : Type} [DecidableEq F] (fingerprint : Str → F)
  (baseline source target : List ObjectDefinition)

/-- What the round of one key adds to the plan. -/
abbrev keyShare (key : Str) : RebasePlan F :=
  share source target (reconcileKey fingerprint baseline source target key)

theorem buildRebasePlan_eq (id : Str) :
    buildRebasePlan fingerprint ⟨id, baseline⟩ source target true =
      let keys := allKeys baseline source target
      let round := keyShare fingerprint baseline source target
      ⟨keys.flatMap fun key => (round key).conflicts,
        keys.flatMap fun key => (round key).proposedObjects,
        keys.any fun key => (round key).requiresManualReview⟩ := by
  simp only [buildRebasePlan, reconcileThreeWay]
  rw [foldl_absorb]
  simp [flatMap_map, Function.comp_def]

theorem allKeys_nodup : (allKeys baseline source target).Nodup :=
  (perm_insertionSort _ _).nodup_iff.mpr (nodup_dedup _)

theorem mem_allKeys {key : Str} : key ∈ allKeys baseline source target ↔
    ∃ object ∈ baseline ++ source ++ target, object.key = key := by
  rw [allKeys, (perm_insertionSort _ _).mem_iff, mem_dedup, mem_map]

/-- The objects of one identity come from the round of its key. -/
theorem proposed_filter (sid : Str) {id : ObjectId}
    (member : id.key ∈ allKeys baseline source target) :
    (buildRebasePlan fingerprint ⟨sid, baseline⟩ source target true).proposedObjects.filter
        (fun object => identity object == id) =
      (keyShare fingerprint baseline source target id.key).proposedObjects.filter
        (fun object => identity object == id) := by
  rw [buildRebasePlan_eq]
  dsimp only
  apply filter_flatMap_of_mem (allKeys_nodup baseline source target) member
  intro key different
  rw [filter_eq_nil_iff]
  intro object belongs same
  have keyEq := (key_of_proposed source target belongs).1
  have idEq : identity object = id := by simpa using same
  apply different
  rw [← idEq, key_identity]
  exact keyEq.symm

/-- Versions of an object that stands in one of the lists are found under its key. -/
theorem byKey_eq_lookup {objects : List ObjectDefinition} (inLists : ∀ x ∈ objects,
      x ∈ baseline ++ source ++ target) (once : (objects.map identity).Nodup)
    (ok : KeysTellApart baseline source target) (member : object ∈ baseline ++ source ++ target) :
    byKey objects object.key = lookupLast identity objects (identity object) := by
  cases found : byKey objects object.key with
  | none =>
    symm
    rw [lookupLast_eq_none]
    intro x hx same
    have absent := lookupLast_eq_none.mp found x hx
    apply absent
    rw [← key_identity, same, key_identity]
  | some y =>
    obtain ⟨hy, sameKey⟩ := lookupLast_some found
    have same := ok.apart y (inLists y hy) object member sameKey
    rw [lookupLast_of_mem once hy same]

end Plan

/-! ## The merge -/

section Merge

variable {F : Type} [DecidableEq F] (fingerprint : Str → F)
  {baseline source target : List ObjectDefinition}

/-- An object of no list is not proposed. -/
theorem proposes_none_of_absent {sid : Str} {id : ObjectId}
    (absent : ∀ object ∈ source ++ target, identity object ≠ id) :
    Proposes fingerprint (buildRebasePlan fingerprint ⟨sid, baseline⟩ source target true) id
      none := by
  have nothing : (buildRebasePlan fingerprint ⟨sid, baseline⟩ source target
      true).proposedObjects.filter (fun object => identity object == id) = [] := by
    rw [buildRebasePlan_eq, filter_eq_nil_iff]
    intro object member same
    obtain ⟨key, _, proposed⟩ := mem_flatMap.mp member
    have belongs := (key_of_proposed source target proposed).2
    exact absent object belongs (by simpa using same)
  simp [Proposes, nothing]

/-- The versions of an object decide what the plan does with it. -/
theorem proposes_of_mem (sid : Str) (ok : KeysTellApart baseline source target)
    (member : object ∈ baseline ++ source ++ target) : let id := identity object
    let b := version fingerprint baseline id
    let s := version fingerprint source id
    let t := version fingerprint target id
    let plan := buildRebasePlan fingerprint ⟨sid, baseline⟩ source target true
    Proposes fingerprint plan id (proposedVersion (classifyReconciliation b s t).1 s t) ∧
      ((classifyReconciliation b s t).1 = .bothDriftedConflict → ListsForReview plan id) := by
  intro id b s t plan
  have inKeys : id.key ∈ allKeys baseline source target :=
    (mem_allKeys baseline source target).mpr ⟨object, member, rfl⟩
  have inBaseline : byKey baseline object.key = lookupLast identity baseline id :=
    byKey_eq_lookup _ _ _ (fun x hx => by simp [hx]) ok.baseline_once ok member
  have inSource : byKey source object.key = lookupLast identity source id :=
    byKey_eq_lookup _ _ _ (fun x hx => by simp [hx]) ok.source_once ok member
  have inTarget : byKey target object.key = lookupLast identity target id :=
    byKey_eq_lookup _ _ _ (fun x hx => by simp [hx]) ok.target_once ok member
  have status : (reconcileKey fingerprint baseline source target object.key).status =
      (classifyReconciliation b s t).1 := by
    simp only [reconcileKey, inBaseline, inSource, inTarget]
    rfl
  constructor
  · have ours : (keyShare fingerprint baseline source target id.key).proposedObjects.filter
        (fun object => identity object == id) =
        (keyShare fingerprint baseline source target id.key).proposedObjects := by
      rw [filter_eq_self]
      intro other proposed
      obtain ⟨sameKey, belongs⟩ := key_of_proposed source target proposed
      have inLists : other ∈ baseline ++ source ++ target := by
        rw [append_assoc]
        exact mem_append_right _ belongs
      simpa using ok.apart other inLists object member sameKey
    unfold Proposes
    rw [proposed_filter fingerprint baseline source target sid inKeys, ours, share_proposed]
    have sourceVersion : (byKey source (reconcileKey fingerprint baseline source target
        id.key).objectKey).map (fun object => fingerprint object.definition) = s :=
      congrArg _ inSource
    have targetVersion : (byKey target (reconcileKey fingerprint baseline source target
        id.key).objectKey).map (fun object => fingerprint object.definition) = t :=
      congrArg _ inTarget
    rw [sourceVersion, targetVersion]
    exact congrArg (fun found => (proposedVersion found s t).toList) status
  · intro conflict
    have round := share_review source target (status.trans conflict)
    have plan_eq := buildRebasePlan_eq fingerprint baseline source target sid
    constructor
    · show plan.requiresManualReview = true
      rw [show plan = _ from plan_eq]
      exact any_eq_true.mpr ⟨id.key, inKeys, congrArg RebasePlan.requiresManualReview round⟩
    · apply Exists.intro (RebasePlan.conflictItem
        (reconcileKey fingerprint baseline source target id.key) .manualReview)
      constructor
      · rw [show plan = _ from plan_eq]
        apply mem_flatMap.mpr
        apply Exists.intro id.key
        constructor
        · exact inKeys
        · have inRound := congrArg RebasePlan.conflicts round
          exact inRound ▸ mem_singleton_self _
      · exact ⟨rfl, rfl⟩

end Merge

/-- The plan merges the versions of every object, except that an object deleted on one side
and changed on the other is dropped. -/
theorem rebase_merges {F : Type} [DecidableEq F] (fingerprint : Str → F)
    (baseline : StateSnapshot) (source target : List ObjectDefinition)
    (ok : KeysTellApart baseline.objects source target) (id : ObjectId) :
    let b := version fingerprint baseline.objects id
    let s := version fingerprint source id
    let t := version fingerprint target id
    let plan := buildRebasePlan fingerprint baseline source target true
    (s = b → Proposes fingerprint plan id t) ∧
    (t = b → Proposes fingerprint plan id s) ∧
    (s = t → Proposes fingerprint plan id s) ∧
    (DeletedAndChanged b s t → Proposes fingerprint plan id none) ∧
    (s ≠ b → t ≠ b → s ≠ t → ¬ DeletedAndChanged b s t → ListsForReview plan id) := by
  obtain ⟨sid, baseline⟩ := baseline
  intro b s t plan
  by_cases present : ∃ object ∈ baseline ++ source ++ target, identity object = id
  · obtain ⟨object, member, rfl⟩ := present
    obtain ⟨proposes, reviews⟩ := proposes_of_mem fingerprint sid ok member
    constructor
    · intro h
      rw [← classify_source_unchanged (t := t) h]
      exact proposes
    constructor
    · intro h
      rw [← classify_target_unchanged (s := s) h]
      exact proposes
    constructor
    · intro h
      rw [← classify_same_change (b := b) h]
      exact proposes
    constructor
    · intro h
      rw [← (classify_deleted h).1]
      exact proposes
    · intro hs ht different kept
      exact reviews (classify_conflict hs ht different kept)
  · have absent : ∀ object ∈ baseline ++ source ++ target, identity object ≠ id := by
      intro object member same
      exact present ⟨object, member, same⟩
    have inNone : ∀ objects : List ObjectDefinition,
        (∀ object ∈ objects, object ∈ baseline ++ source ++ target) →
        version fingerprint objects id = none := by
      intro objects inLists
      have missing : lookupLast identity objects id = none :=
        lookupLast_eq_none.mpr fun x hx => absent x (inLists x hx)
      rw [version, missing, Option.map_none]
    have hs : s = none := inNone source fun object member => by simp [member]
    have ht : t = none := inNone target fun object member => by simp [member]
    have nothing : Proposes fingerprint plan id none :=
      proposes_none_of_absent fingerprint fun object member => absent object (by
        rw [append_assoc]
        exact mem_append_right _ member)
    rw [hs, ht]
    exact ⟨fun _ => nothing, fun _ => nothing, fun _ => nothing, fun _ => nothing,
      fun _ _ different => absurd rfl different⟩

def tableNamed (schema : Option Str) (name definition : Str) : ObjectDefinition :=
  ⟨.table, name, schema, definition⟩

def usersId : ObjectId := ⟨.table, none, "users".toList⟩

/-- The table changed in the source only. -/
theorem rebase_merges_users :
    Proposes (id : Str → Str) (buildRebasePlan (id : Str → Str) ⟨[], [tableNamed none "users".toList "v1".toList]⟩
      [tableNamed none "users".toList "v2".toList] [tableNamed none "users".toList "v1".toList]
      true) usersId (some "v2".toList) := by
  have ok : KeysTellApart [tableNamed none "users".toList "v1".toList]
      [tableNamed none "users".toList "v2".toList]
      [tableNamed none "users".toList "v1".toList] := by
    constructor <;> decide
  exact (rebase_merges (id : Str → Str) ⟨[], [tableNamed none "users".toList "v1".toList]⟩
    [tableNamed none "users".toList "v2".toList] [tableNamed none "users".toList "v1".toList] ok
    usersId).2.1 rfl

/-- A table that the source has dropped and the target has changed is left out, with nothing
to review. Of two new tables whose schema and name join to the same text, one is lost. -/
theorem rebase_drops_silently :
    buildRebasePlan (id : Str → Str) ⟨[], [tableNamed none "users".toList "v1".toList]⟩ []
      [tableNamed none "users".toList "v2".toList] true = (⟨[], [], false⟩ : RebasePlan Str) ∧
    buildRebasePlan (id : Str → Str) ⟨[], []⟩
      [tableNamed (some "a".toList) "b.c".toList "v1".toList,
        tableNamed (some "a.b".toList) "c".toList "v2".toList] [] true =
      (⟨[], [tableNamed (some "a.b".toList) "c".toList "v2".toList], false⟩ : RebasePlan Str) := by
  decide

end Dbx.Guarantees.RebaseMerge
