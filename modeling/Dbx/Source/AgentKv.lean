import Mathlib.Data.Char
import Mathlib.Data.List.Lex
import Dbx.Lib.Pool
import Dbx.Source.Json

/-!
# Confirmations of dangerous etcd actions

Model of `etcd_preflight_core` and `etcd_consume_preflight_core`
(`crates/dbx-core/src/agent_kv.rs:906-1047`). Calls interleave at their awaited operations
and at the locks of the token map; each operation on the map is one step. What the agent
and the clock answer is a choice of the environment, and so is the new token, which is made
just before the map is locked. A poisoned lock is a failed operation on the map. The digest
is a parameter.
-/
namespace Dbx.Source.AgentKv

open Dbx.Lib.Text Dbx.Lib.Program

/-! ## The digest of the parameters -/

/-- `sort_by` on the keys; the values are already printed. -/
def sortByKey {α : Type} (entries : List (Str × α)) : List (Str × α) :=
  entries.insertionSort fun left right => left.1 ≤ right.1

mutual

def canonicalJson : Json → Str
  | .object map =>
    let body := (sortByKey (canonicalMembers map)).map fun (key, value) =>
      jsonString key ++ ':' :: value
    '\x7b' :: joinWith [','] body ++ ['\x7d']
  | .array values => '[' :: joinWith [','] (canonicalItems values) ++ [']']
  | .null => Json.null.print
  | .bool b => (Json.bool b).print
  | .number n => (Json.number n).print
  | .string s => (Json.string s).print

def canonicalItems : List Json → List Str
  | [] => []
  | value :: values => canonicalJson value :: canonicalItems values

def canonicalMembers : List (Str × Json) → List (Str × Str)
  | [] => []
  | (key, value) :: members => (key, canonicalJson value) :: canonicalMembers members

end

def etcdParamsDigest {D : Type} (sha256 : Str → D) (params : Json) : D :=
  sha256 (canonicalJson params)

/-! ## Actions -/

def dangerousActions : List Str :=
  ["compact", "defrag", "lease_revoke", "auth_user_add", "auth_user_delete",
    "auth_user_change_password", "auth_user_grant_role", "auth_user_revoke_role",
    "auth_role_add", "auth_role_delete", "auth_role_grant_permission",
    "auth_role_revoke_permission"].map String.toList

def normalizeEtcdDangerousAction (action : Str) : Except Str Str :=
  if dangerousActions.contains action then .ok action
  else .error ("ETCD_PREFLIGHT_ACTION_INVALID: This action does not support a " ++
    "destructive-operation preflight").toList

inductive AgentCapability where
  | etcdCompaction | etcdDefrag | etcdLease | etcdAuth
  deriving DecidableEq, Repr

/-- The capability that `ensure_etcd_dangerous_action_capability` asks for. -/
def capabilityOf (action : Str) : AgentCapability :=
  if action = "compact".toList then .etcdCompaction
  else if action = "defrag".toList then .etcdDefrag
  else if action = "lease_revoke".toList then .etcdLease
  else .etcdAuth

def etcdConfirmationText : Str := "确认".toList

/-- Five minutes, in milliseconds. -/
def etcdPreflightTtl : Nat := 5 * 60 * 1000

def u64Max : Nat := 2 ^ 64 - 1

/-! ## Calls -/

/-- `D` is the type of digests. -/
structure EtcdPreflightToken (D : Type) where
  connectionId : Str
  action : Str
  paramsDigest : D
  confirmationText : Str
  expiresAtMs : Nat
  clusterId : Option Str
  deriving DecidableEq

structure EtcdPreflightResponse where
  token : Str
  action : Str
  confirmationText : Str
  expiresAtMs : Nat
  clusterId : Option Str
  deriving DecidableEq

/-- What a call awaits, or does under the lock of the token map. -/
inductive Op (D : Type) where
  | capability (connectionId : Str) (capability : AgentCapability)
  /-- `kv_status_core`, of which the cluster is read. -/
  | status (connectionId : Str)
  | currentTimeMillis
  /-- Drops the tokens that have expired and inserts a new one. -/
  | insert (now : Nat) (entry : EtcdPreflightToken D)
  | remove (token : Str)
  deriving DecidableEq

abbrev Op.Ans {D : Type} : Op D → Type
  | .capability _ _ => Except Str Unit
  | .status _ => Except Str (Option Str)
  | .currentTimeMillis => Nat
  | .insert _ _ => Except Str Str
  | .remove _ => Except Str (Option (EtcdPreflightToken D))

inductive Request where
  | preflight (connectionId action : Str) (params : Json)
  | consume (connectionId action : Str) (params : Json) (token confirmationText : Str)

inductive Response where
  | issued (response : EtcdPreflightResponse)
  | consumed
  deriving DecidableEq

abbrev Action (D α : Type) := Prog (Op D) Op.Ans (Except Str α)

section Calls

variable {D : Type} [DecidableEq D] (sha256 : Str → D)

def etcdPreflightCore (connectionId action : Str) (params : Json) : Action D Response :=
  match normalizeEtcdDangerousAction action with
  | .error e => .ret (.error e)
  | .ok action =>
    (Prog.await (Op.capability connectionId (capabilityOf action))).andOk fun _ =>
    (Prog.await (Op.status connectionId)).andOk fun clusterId =>
    (Prog.await Op.currentTimeMillis).bind fun (now : Nat) =>
    let expiresAtMs := min (now + etcdPreflightTtl) u64Max
    let entry : EtcdPreflightToken D :=
      { connectionId, action, paramsDigest := etcdParamsDigest sha256 params
        confirmationText := etcdConfirmationText, expiresAtMs, clusterId }
    (Prog.await (Op.insert now entry)).andOk fun token =>
    .ret (.ok (.issued ⟨token, action, etcdConfirmationText, expiresAtMs, clusterId⟩))

def invalidMessage : Str := "ETCD_PREFLIGHT_INVALID: Request a new preflight confirmation".toList
def expiredMessage : Str := "ETCD_PREFLIGHT_EXPIRED: Request a new preflight confirmation".toList
def mismatchMessage : Str := "ETCD_PREFLIGHT_MISMATCH: Request a new preflight confirmation".toList
def clusterChangedMessage : Str :=
  "ETCD_PREFLIGHT_CLUSTER_CHANGED: Request a new preflight confirmation".toList

def etcdConsumePreflightCore (connectionId action : Str) (params : Json)
    (token confirmationText : Str) : Action D Response :=
  match normalizeEtcdDangerousAction action with
  | .error e => .ret (.error e)
  | .ok action =>
    (Prog.await Op.currentTimeMillis).bind fun (now : Nat) =>
    (Prog.await (Op.remove token)).andOk fun
      | none => .ret (.error invalidMessage)
      | some entry =>
        if entry.expiresAtMs ≤ now then .ret (.error expiredMessage)
        else if entry.connectionId ≠ connectionId ∨ entry.action ≠ action ∨
            entry.paramsDigest ≠ etcdParamsDigest sha256 params ∨
            entry.confirmationText ≠ confirmationText then
          .ret (.error mismatchMessage)
        else
          (Prog.await (Op.status connectionId)).andOk fun currentCluster =>
          if currentCluster ≠ entry.clusterId then .ret (.error clusterChangedMessage)
          else .ret (.ok .consumed)

def program : Request → Action D Response
  | .preflight connectionId action params => etcdPreflightCore sha256 connectionId action params
  | .consume connectionId action params token confirmationText =>
    etcdConsumePreflightCore sha256 connectionId action params token confirmationText

end Calls

/-! ## Runs -/

/-- What the environment answers: a failure, a cluster, a time or a new token. -/
structure Choice where
  failure : Option Str := none
  cluster : Option Str := none
  time : Nat := 0
  token : Str := []
  deriving DecidableEq

/-- One operation that a call has carried out. -/
inductive Step (D : Type) where
  | looked (call : Nat) (cluster : Option Str)
  | read (call : Nat) (time : Nat)
  | issued (call : Nat) (token : Str) (entry : EtcdPreflightToken D)
  | taken (call : Nat) (token : Str) (entry : EtcdPreflightToken D)
  deriving DecidableEq

/-- The token map, and what was done so far. -/
structure World (D : Type) where
  tokens : List (Str × EtcdPreflightToken D) := []
  trace : List (Step D) := []

def handle {D : Type} (i : Nat) : Handler (Op D) Op.Ans (World D) Choice := fun w op choice =>
  match op with
  | .capability _ _ =>
    match choice.failure with
    | some e => (.error e, w)
    | none => (.ok (), w)
  | .status _ =>
    match choice.failure with
    | some e => (.error e, w)
    | none => (.ok choice.cluster, { w with trace := w.trace ++ [.looked i choice.cluster] })
  | .currentTimeMillis => (choice.time, { w with trace := w.trace ++ [.read i choice.time] })
  | .insert now entry =>
    match choice.failure with
    | some e => (.error e, w)
    | none =>
      (.ok choice.token,
        { tokens := (w.tokens.filter fun held => now < held.2.expiresAtMs).filter
            (fun held => held.1 ≠ choice.token) ++ [(choice.token, entry)]
          trace := w.trace ++ [.issued i choice.token entry] })
  | .remove token =>
    match choice.failure with
    | some e => (.error e, w)
    | none =>
      match w.tokens.lookup token with
      | none => (.ok none, w)
      | some entry =>
        (.ok (some entry),
          { tokens := w.tokens.filter fun held => held.1 ≠ token
            trace := w.trace ++ [.taken i token entry] })

abbrev Calls (D : Type) := Pool Request (Op D) Op.Ans (Except Str Response) (World D)

/-- What a run of interleaved calls comes to, from an empty map. -/
def afterEvents {D : Type} [DecidableEq D] (sha256 : Str → D)
    (events : List (Event Request Choice)) : Calls D :=
  Pool.run handle (program sha256) { world := {} } events

end Dbx.Source.AgentKv
