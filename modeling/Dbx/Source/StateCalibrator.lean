import Mathlib.Data.Char
import Mathlib.Data.List.Lex
import Dbx.Lib.Keyed
import Dbx.Lib.Text

/-!
# Three-way reconciliation and rebase plans

Model of `reconcile_three_way`, `classify_reconciliation` and `build_rebase_plan`
(`crates/dbx-core/src/state_calibrator.rs:59-286, 408-536`).

The fingerprint of a definition, in the code the SHA-256 of its normalised text, is a
parameter. The keys of the three hash maps are sorted before they are used, so the order in
which a map lists them does not show. Drift scores are in hundredths. Time stamps, and the
label and the summary fingerprint of a snapshot, which the plan does not read, are left
out.
-/
namespace Dbx.Source.StateCalibrator

open Dbx.Lib.Text Dbx.Lib.Keyed

inductive ObjectKind where
  | table | view | function | sequence | rule | permission
  deriving DecidableEq, Repr

def ObjectKind.asStr : ObjectKind → Str
  | table => "table".toList
  | view => "view".toList
  | function => "function".toList
  | sequence => "sequence".toList
  | rule => "rule".toList
  | permission => "permission".toList

structure ObjectDefinition where
  kind : ObjectKind
  name : Str
  schema : Option Str
  definition : Str
  deriving DecidableEq, Repr

def ObjectDefinition.key (object : ObjectDefinition) : Str :=
  match object.schema with
  | some schema => object.kind.asStr ++ '.' :: schema ++ '.' :: object.name
  | none => object.kind.asStr ++ '.' :: object.name

structure StateSnapshot where
  id : Str
  objects : List ObjectDefinition

inductive ObjectReconciliationStatus where
  | synced | sourceDrifted | targetDrifted | bothDriftedIdentical | bothDriftedConflict
  | deletedInSource | deletedInTarget | newInSource | newInTarget | newInBoth | baselineOnly
  deriving DecidableEq, Repr

/-- `F` is the type of fingerprints. -/
structure ObjectReconciliation (F : Type) where
  objectKey : Str
  kind : ObjectKind
  name : Str
  status : ObjectReconciliationStatus
  baselineFingerprint : Option F
  sourceFingerprint : Option F
  targetFingerprint : Option F
  sourceDefinition : Option Str
  targetDefinition : Option Str
  driftScore : Nat

structure ReconciliationResult (F : Type) where
  baselineId : Str
  sourceId : Str
  targetId : Str
  totalObjects : Nat
  syncedCount : Nat
  driftedCount : Nat
  conflictCount : Nat
  objectReconciliations : List (ObjectReconciliation F)

section Reconcile

variable {F : Type} [DecidableEq F] (fingerprint : Str → F)

def driftNone : Nat := 0
def driftSingleSide : Nat := 33
def driftIdenticalChange : Nat := 50
def driftDeleted : Nat := 66
def driftStaleBaseline : Nat := 80
def driftConflict : Nat := 100

def classifyReconciliation : Option F → Option F → Option F → ObjectReconciliationStatus × Nat
  | some b, some s, some t =>
    if b = s ∧ s = t then (.synced, driftNone)
    else if b = s ∧ s ≠ t then (.targetDrifted, driftSingleSide)
    else if b = t ∧ s ≠ t then (.sourceDrifted, driftSingleSide)
    else if s = t ∧ b ≠ s then (.bothDriftedIdentical, driftIdenticalChange)
    else (.bothDriftedConflict, driftConflict)
  | some _, none, some _ => (.deletedInSource, driftDeleted)
  | some _, some _, none => (.deletedInTarget, driftDeleted)
  | some _, none, none => (.baselineOnly, driftStaleBaseline)
  | none, some s, some t =>
    if s = t then (.newInBoth, driftNone) else (.bothDriftedConflict, driftConflict)
  | none, some _, none => (.newInSource, driftNone)
  | none, none, some _ => (.newInTarget, driftNone)
  | none, none, none => (.synced, driftNone)

/-- The hash map from keys to objects. -/
def byKey (objects : List ObjectDefinition) (key : Str) : Option ObjectDefinition :=
  lookupLast ObjectDefinition.key objects key

def allKeys (baseline source target : List ObjectDefinition) : List Str :=
  ((baseline ++ source ++ target).map ObjectDefinition.key).dedup.insertionSort (· ≤ ·)

/-- One round of the loop of `reconcile_three_way`. -/
def reconcileKey (baseline source target : List ObjectDefinition) (key : Str) :
    ObjectReconciliation F :=
  let bObj := byKey baseline key
  let sObj := byKey source key
  let tObj := byKey target key
  let bFp := bObj.map fun object => fingerprint object.definition
  let sFp := sObj.map fun object => fingerprint object.definition
  let tFp := tObj.map fun object => fingerprint object.definition
  let (status, driftScore) := classifyReconciliation bFp sFp tFp
  { objectKey := key
    kind := (((bObj.or sObj).or tObj).map (·.kind)).getD .table
    name := (((bObj.or sObj).or tObj).map (·.name)).getD []
    status
    baselineFingerprint := bFp
    sourceFingerprint := sFp
    targetFingerprint := tFp
    sourceDefinition := sObj.map (·.definition)
    targetDefinition := tObj.map (·.definition)
    driftScore }

def ObjectReconciliationStatus.isSynced : ObjectReconciliationStatus → Bool
  | synced | newInBoth => true
  | _ => false

def reconcileThreeWay (baseline : StateSnapshot) (sourceId : Str)
    (source : List ObjectDefinition) (targetId : Str) (target : List ObjectDefinition) :
    ReconciliationResult F :=
  let keys := allKeys baseline.objects source target
  let reconciliations := keys.map (reconcileKey fingerprint baseline.objects source target)
  { baselineId := baseline.id
    sourceId
    targetId
    totalObjects := keys.length
    syncedCount := reconciliations.countP (·.status.isSynced)
    driftedCount := reconciliations.countP fun entry => !entry.status.isSynced
    conflictCount := reconciliations.countP (·.status == .bothDriftedConflict)
    objectReconciliations := reconciliations }

end Reconcile

/-! ## The rebase plan -/

inductive RebaseResolution where
  | acceptSource | acceptTarget | acceptBaseline | manualReview
  deriving DecidableEq, Repr

structure ConflictItem (F : Type) where
  objectKey : Str
  resolution : RebaseResolution
  baselineFingerprint : Option F
  sourceFingerprint : Option F
  targetFingerprint : Option F
  deriving DecidableEq

structure RebasePlan (F : Type) where
  conflicts : List (ConflictItem F) := []
  proposedObjects : List ObjectDefinition := []
  requiresManualReview : Bool := false
  deriving DecidableEq

namespace RebasePlan

variable {F : Type}

def conflictItem (entry : ObjectReconciliation F) (resolution : RebaseResolution) :
    ConflictItem F :=
  ⟨entry.objectKey, resolution, entry.baselineFingerprint, entry.sourceFingerprint,
    entry.targetFingerprint⟩

/-- Adds the object of a map, if it has one. -/
def propose (plan : RebasePlan F) (object : Option ObjectDefinition) : RebasePlan F :=
  { plan with proposedObjects := plan.proposedObjects ++ object.toList }

def resolve (plan : RebasePlan F) (entry : ObjectReconciliation F)
    (resolution : RebaseResolution) : RebasePlan F :=
  { plan with conflicts := plan.conflicts ++ [conflictItem entry resolution] }

def review (plan : RebasePlan F) (entry : ObjectReconciliation F) : RebasePlan F :=
  { plan.resolve entry .manualReview with requiresManualReview := true }

/-- One round of the loop of `build_rebase_plan`. -/
def absorb (source target : List ObjectDefinition) (autoResolve : Bool) (plan : RebasePlan F)
    (entry : ObjectReconciliation F) : RebasePlan F :=
  let key := entry.objectKey
  match entry.status with
  | .synced | .bothDriftedIdentical => plan.propose ((byKey source key).or (byKey target key))
  | .targetDrifted =>
    if autoResolve then (plan.propose (byKey target key)).resolve entry .acceptTarget
    else plan.review entry
  | .sourceDrifted =>
    if autoResolve then (plan.propose (byKey source key)).resolve entry .acceptSource
    else plan.review entry
  | .bothDriftedConflict => plan.review entry
  | .newInBoth | .newInSource => plan.propose (byKey source key)
  | .newInTarget => plan.propose (byKey target key)
  -- deleted in at least one of the two, or only in the baseline: not included
  | .deletedInSource | .deletedInTarget => plan
  | .baselineOnly => plan

end RebasePlan

def buildRebasePlan {F : Type} [DecidableEq F] (fingerprint : Str → F) (baseline : StateSnapshot)
    (source target : List ObjectDefinition) (autoResolve : Bool) : RebasePlan F :=
  let result := reconcileThreeWay fingerprint baseline [] source [] target
  result.objectReconciliations.foldl (RebasePlan.absorb source target autoResolve) {}

end Dbx.Source.StateCalibrator
