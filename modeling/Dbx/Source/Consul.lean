import Mathlib.Data.Char
import Mathlib.Data.List.Lex
import Mathlib.Data.List.Sort
import Dbx.Lib.Program
import Dbx.Lib.Utf8
import Dbx.Source.DataCompare

/-!
# Bulk operations on the key-value store of Consul

Model of `consul_delete_prefix_execute_core`, `consul_import_execute_core` and what they call
(`crates/dbx-core/src/consul/bulk.rs:66-181`, `archive.rs:200-455`, `txn.rs:139-174`,
`260-320`). A program awaits the connection, reads of the store and transactions. Other
clients write before each of its steps.

What a read answers is a choice of the environment, whatever the store holds: it may be
stale, filtered or about another key, since nothing here rests on its being right. A listing
has each key once. A transaction is atomic, and may be lost before or after it is applied; a
request that cannot be encoded is a lost one.
Base64 and the hash that names a preview are parameters. The two outcome types of the source
are one; a deletion skips nothing.
-/
namespace Dbx.Source.Consul

open Dbx.Lib.Text Dbx.Lib.Program Dbx.Source.DataCompare

/-! ## Values and indexes -/

inductive KvValueEncoding where
  | utf8 | base64
  deriving DecidableEq, Repr

structure KvValue where
  encoding : KvValueEncoding
  data : Str
  deriving DecidableEq, Repr

/-- A number in the text form in which it travels. -/
abbrev KvInt64 := Str

/-- `parse::<u64>`, which takes a leading plus sign. -/
def parseIndex : KvInt64 → Option Nat
  | '+' :: digits => parseU64 digits
  | text => parseU64 text

def zeroIndex : KvInt64 := "0".toList

/-! ## Transactions -/

def maxTxnOperations : Nat := 64

/-- The two verbs that the bulk operations use. -/
inductive Verb where
  | cas (value : KvValue) (flags : KvInt64)
  | deleteCas
  deriving DecidableEq, Repr

structure TxnOperation where
  verb : Verb
  key : Str
  index : KvInt64
  deriving DecidableEq, Repr

def casOperation (key : Str) (value : KvValue) (flags index : KvInt64) : TxnOperation :=
  ⟨.cas value flags, key, index⟩

def deleteCasOperation (key : Str) (index : KvInt64) : TxnOperation := ⟨.deleteCas, key, index⟩

def Verb.flags? : Verb → Option KvInt64
  | .cas _ flags => some flags
  | .deleteCas => none

/-- The checks of one operation. -/
def validateOperation (operation : TxnOperation) : Except Str Unit :=
  if operation.key.isEmpty then
    .error "CONSUL_TXN_KEY_REQUIRED: Transaction keys cannot be empty".toList
  else if (parseIndex operation.index).isNone then
    .error ("CONSUL_TXN_INDEX_INVALID: Invalid Index for key ".toList ++ operation.key)
  else if operation.verb.flags?.any fun flags => (parseIndex flags).isNone then
    .error ("CONSUL_TXN_FLAGS_INVALID: Invalid Flags for key ".toList ++ operation.key)
  else .ok ()

def validateOperations (operations : List TxnOperation) : Except Str Unit :=
  if operations.isEmpty then
    .error "CONSUL_TXN_EMPTY: A transaction requires at least one operation".toList
  else if maxTxnOperations < operations.length then
    .error "CONSUL_TXN_LIMIT_EXCEEDED: Consul transactions support at most 64 operations".toList
  else operations.forM validateOperation

structure TxnError where
  opIndex : Nat
  message : Str
  deriving DecidableEq, Repr

structure TxnResult where
  committed : Bool
  errors : List TxnError
  deriving DecidableEq, Repr

/-- What the server answers: whether its status is a success, and its errors. The values it
returns may be malformed. -/
structure RawTxnResponse where
  success : Bool
  errors : Option (List TxnError)
  malformed : Option Str
  deriving DecidableEq, Repr

def mapTxnResponse (response : RawTxnResponse) : Except Str TxnResult :=
  let errors := response.errors.getD []
  match response.malformed with
  | some e => .error e
  | none => .ok ⟨response.success && errors.isEmpty, errors⟩

/-! ## Operations that are awaited -/

/-- A key as `list_recursive` returns it. -/
structure ConsulKvRecord where
  key : Str
  modifyIndex : KvInt64
  session : Option Str
  deriving DecidableEq, Repr

structure ConsulRecursiveListResponse where
  entries : List ConsulKvRecord
  filteredByAcls : Option Bool
  complete : Bool
  distinct : (entries.map ConsulKvRecord.key).Nodup

/-- The metadata of a key that is read here. -/
structure KvKeyMetadata where
  modRevision : Option KvInt64
  flags : Option KvInt64
  session : Option Str
  deriving DecidableEq, Repr

structure KvGetResponse where
  found : Bool
  value : Option KvValue
  metadata : Option KvKeyMetadata
  deriving DecidableEq, Repr

inductive Op where
  /-- `ensure_writable_core` -/
  | writable
  /-- `client_for_state` -/
  | client
  | listRecursive (pref : Str)
  | getKey (key : Str)
  | txn (operations : List TxnOperation)

abbrev Op.Ans : Op → Type
  | .writable | .client => Except Str Unit
  | .listRecursive _ => Except Str ConsulRecursiveListResponse
  | .getKey _ => Except Str KvGetResponse
  | .txn _ => Except Str RawTxnResponse

abbrev Action (α : Type) := Prog Op Op.Ans α

/-- `ConsulClient::txn` -/
def sendTxn (operations : List TxnOperation) : Action (Except Str TxnResult) :=
  match validateOperations operations with
  | .error e => .ret (.error e)
  | .ok () => (Prog.await (Op.txn operations)).andOk fun response => .ret (mapTxnResponse response)

/-! ## Reports -/

inductive Outcome where
  | succeeded | conflicted | skipped | failed
  deriving DecidableEq, Repr

structure ResultItem where
  key : Str
  outcome : Outcome
  message : Option Str
  batch : Option Nat
  opIndex : Option Nat
  deriving DecidableEq, Repr

structure Report where
  items : List ResultItem
  succeeded : Nat
  conflicted : Nat
  skipped : Nat
  failed : Nat
  atomic : Bool
  deriving DecidableEq, Repr

def summarizeReport (items : List ResultItem) (atomic : Bool) : Report :=
  let count (outcome : Outcome) := items.countP fun item => item.outcome == outcome
  ⟨items, count .succeeded, count .conflicted, count .skipped, count .failed, atomic⟩

def abortedMessage : Str := "Transaction batch was aborted".toList

/-- What became of the operation with a number, and its message. -/
def outcomeOf (result : Except Str TxnResult) (opIndex : Nat) : Outcome × Option Str :=
  match result with
  | .error e => (.failed, some e)
  | .ok result =>
    if result.committed then (.succeeded, none)
    else
      match result.errors.find? fun error => error.opIndex == opIndex with
      | some error => (.conflicted, some error.message)
      | none => (.failed, some abortedMessage)

/-- The items of one transaction. -/
def batchItems (batch : Nat) (keys : List Str) (result : Except Str TxnResult) : List ResultItem :=
  keys.zipIdx.map fun (key, opIndex) =>
    let (outcome, message) := outcomeOf result opIndex
    ⟨key, outcome, message, some batch, some opIndex⟩

/-- Sends the transactions one after the other, whatever becomes of each. -/
def sendBatches (batch : Nat) : List (List TxnOperation) → Action (List ResultItem)
  | [] => .ret []
  | operations :: rest =>
    (sendTxn operations).bind fun result =>
    (sendBatches (batch + 1) rest).bind fun items =>
    .ret (batchItems batch (operations.map TxnOperation.key) result ++ items)

/-! ## Deleting a prefix -/

def maxRecursiveEntries : Nat := 10000

structure ConsulDeleteCandidate where
  key : Str
  modifyIndex : KvInt64
  session : Option Str
  deriving DecidableEq, Repr

structure ConsulDeletePrefixPreview where
  candidates : List ConsulDeleteCandidate
  filteredByAcls : Option Bool
  canExecute : Bool
  locked : Nat

structure ConsulDeletePrefixRequest where
  pref : Str
  expected : List ConsulDeleteCandidate

def validatePrefix (pref : Str) : Except Str Unit :=
  if (trim pref).isEmpty then
    .error "CONSUL_DELETE_PREFIX_REQUIRED: Deleting the entire Consul KV root is not allowed".toList
  else .ok ()

def consulDeletePrefixPreviewCore (pref : Str) : Action (Except Str ConsulDeletePrefixPreview) :=
  match validatePrefix pref with
  | .error e => .ret (.error e)
  | .ok () =>
    (Prog.await Op.client).andOk fun _ =>
    (Prog.await (Op.listRecursive pref)).andOk fun recursive =>
    let candidates := recursive.entries.map fun entry =>
      (⟨entry.key, entry.modifyIndex, entry.session⟩ : ConsulDeleteCandidate)
    let locked := candidates.countP fun candidate => candidate.session.isSome
    let canExecute := recursive.complete && recursive.filteredByAcls != some true &&
      locked == 0 && !candidates.isEmpty
    .ret (.ok ⟨candidates, recursive.filteredByAcls, canExecute, locked⟩)

/-- The index under a key in the map that `collect` makes: the last one counts. -/
def indexIn (candidates : List ConsulDeleteCandidate) (key : Str) : Option KvInt64 :=
  (candidates.reverse.find? fun candidate => candidate.key == key).map
    ConsulDeleteCandidate.modifyIndex

/-- The two maps of keys and indexes are equal. -/
def samePreview (expected current : List ConsulDeleteCandidate) : Bool :=
  ((expected ++ current).map ConsulDeleteCandidate.key).all fun key =>
    indexIn expected key == indexIn current key

def ensureSamePreview (expected current : List ConsulDeleteCandidate) : Except Str Unit :=
  if samePreview expected current then .ok ()
  else .error ("CONSUL_DELETE_PREVIEW_STALE: Prefix contents changed after preview; " ++
    "refresh before deleting").toList

def cannotExecute (preview : ConsulDeletePrefixPreview) : Str :=
  if preview.filteredByAcls = some true then
    ("CONSUL_DELETE_ACL_FILTERED: Prefix deletion is blocked because ACL policies hide " ++
      "keys").toList
  else if 0 < preview.locked then
    "CONSUL_DELETE_LOCKED: Prefix contains ".toList ++ (toString preview.locked).toList ++
      " Session-locked keys".toList
  else "CONSUL_DELETE_PREVIEW_INVALID: Prefix cannot be deleted from the current preview".toList

def sortByKey {α : Type} (key : α → Str) (items : List α) : List α :=
  items.insertionSort fun left right => key left ≤ key right

def consulDeletePrefixExecuteCore (request : ConsulDeletePrefixRequest) :
    Action (Except Str Report) :=
  (Prog.await Op.writable).andOk fun _ =>
  match validatePrefix request.pref with
  | .error e => .ret (.error e)
  | .ok () =>
    if request.expected.isEmpty || maxRecursiveEntries < request.expected.length then
      .ret (.error "CONSUL_DELETE_PREVIEW_REQUIRED: A complete delete preview is required".toList)
    else
      (consulDeletePrefixPreviewCore request.pref).andOk fun preview =>
      if preview.canExecute then
        match ensureSamePreview request.expected preview.candidates with
        | .error e => .ret (.error e)
        | .ok () =>
          (Prog.await Op.client).andOk fun _ =>
          let candidates := sortByKey ConsulDeleteCandidate.key preview.candidates
          let atomic := decide (candidates.length ≤ maxTxnOperations)
          let batches := (chunks maxTxnOperations candidates).map fun chunk =>
            chunk.map fun candidate => deleteCasOperation candidate.key candidate.modifyIndex
          (sendBatches 0 batches).bind fun items => .ret (.ok (summarizeReport items atomic))
      else .ret (.error (cannotExecute preview))

/-! ## Importing a bundle -/

def consulBundleFormat : Str := "dbx-consul-kv-bundle".toList

def consulBundleVersion : Nat := 1

def maxValueBytes : Nat := 512 * 1024

def maxRecursiveValueBytes : Nat := 32 * 1024 * 1024

structure ConsulBundleEntry where
  key : Str
  value : KvValue
  flags : KvInt64
  deriving DecidableEq, Repr

structure ConsulKvBundle where
  format : Str
  version : Nat
  entries : List ConsulBundleEntry

inductive ConsulImportConflictPolicy where
  | abort | skip | cas
  deriving DecidableEq, Repr

inductive ConsulImportOperation where
  | create | update | unchanged | skipped | conflict | locked
  deriving DecidableEq, Repr

structure ConsulImportPreviewRow where
  key : Str
  operation : ConsulImportOperation
  expectedModifyIndex : Option KvInt64
  targetSession : Option Str
  reason : Option Str
  deriving DecidableEq, Repr

structure ConsulImportPreview where
  previewId : Str
  rows : List ConsulImportPreviewRow
  canApply : Bool

structure ConsulImportRequest where
  bundle : ConsulKvBundle
  policy : ConsulImportConflictPolicy
  previewId : Option Str

section Import

-- The bytes of a Base64 text, and the name of a preview.
variable (decodeBase64 : Str → Except Str (List UInt8))
  (previewId : List ConsulImportPreviewRow → ConsulKvBundle → ConsulImportConflictPolicy → Str)

def valueSize (value : KvValue) : Except Str Nat :=
  match value.encoding with
  | .utf8 => .ok (Dbx.Lib.Utf8.encode value.data).length
  | .base64 =>
    match decodeBase64 (value.data.filter fun c => !isWhitespace c) with
    | .ok bytes => .ok bytes.length
    | .error e => .error ("CONSUL_BUNDLE_INVALID: Invalid Base64 value: ".toList ++ e)

/-- The loop over the entries, with the keys and the bytes so far. -/
def validateEntries (keys : List Str) (totalBytes : Nat) : List ConsulBundleEntry → Except Str Unit
  | [] => .ok ()
  | entry :: entries =>
    if entry.key.isEmpty then
      .error "CONSUL_BUNDLE_INVALID: Bundle contains an empty key".toList
    else if keys.contains entry.key then
      .error ("CONSUL_BUNDLE_INVALID: Duplicate key in bundle: ".toList ++ entry.key)
    else if (parseIndex entry.flags).isNone then
      .error ("CONSUL_BUNDLE_INVALID: Invalid Flags for key ".toList ++ entry.key)
    else
      match valueSize decodeBase64 entry.value with
      | .error e => .error e
      | .ok valueBytes =>
        if maxValueBytes < valueBytes then
          .error ("CONSUL_VALUE_TOO_LARGE: Bundle value exceeds 512 KiB for key ".toList ++
            entry.key)
        else if maxRecursiveValueBytes < totalBytes + valueBytes then
          .error "CONSUL_BUNDLE_TOO_LARGE: Bundle values exceed 32 MiB".toList
        else validateEntries (entry.key :: keys) (totalBytes + valueBytes) entries

def validateBundle (bundle : ConsulKvBundle) : Except Str Unit :=
  if bundle.format ≠ consulBundleFormat ∨ bundle.version ≠ consulBundleVersion then
    .error "CONSUL_BUNDLE_UNSUPPORTED: Expected DBX Consul KV bundle version 1".toList
  else if maxRecursiveEntries < bundle.entries.length then
    .error "CONSUL_BUNDLE_TOO_LARGE: Bundle contains more than 10000 keys".toList
  else validateEntries decodeBase64 [] 0 bundle.entries

def emptyMetadata : KvKeyMetadata := ⟨none, none, none⟩

def previewExisting (source : ConsulBundleEntry) (target : KvGetResponse)
    (policy : ConsulImportConflictPolicy) : ConsulImportPreviewRow :=
  let metadata := target.metadata.getD emptyMetadata
  let targetSession := metadata.session.filter fun session => !session.isEmpty
  if targetSession.isSome then
    ⟨source.key, .locked, metadata.modRevision, targetSession,
      some "Target key is held by a Consul Session".toList⟩
  else if target.value = some source.value ∧ metadata.flags.getD zeroIndex = source.flags then
    ⟨source.key, .unchanged, metadata.modRevision, none, none⟩
  else
    let (operation, reason) := match policy with
      | .abort =>
        (.conflict, some "Target key exists with a different value or Flags".toList)
      | .skip =>
        (.skipped, some "Existing target key is skipped by the selected policy".toList)
      | .cas => (ConsulImportOperation.update, none)
    ⟨source.key, operation, metadata.modRevision, none, reason⟩

def previewRow (source : ConsulBundleEntry) (target : KvGetResponse)
    (policy : ConsulImportConflictPolicy) : ConsulImportPreviewRow :=
  if target.found then previewExisting source target policy
  else ⟨source.key, .create, none, none, none⟩

def previewRows (policy : ConsulImportConflictPolicy) : List ConsulBundleEntry →
    Action (Except Str (List ConsulImportPreviewRow))
  | [] => .ret (.ok [])
  | source :: entries =>
    (Prog.await (Op.getKey source.key)).andOk fun target =>
    (previewRows policy entries).andOk fun rows =>
    .ret (.ok (previewRow source target policy :: rows))

def isConflict (row : ConsulImportPreviewRow) : Bool :=
  row.operation == .conflict || row.operation == .locked

def buildPreview (bundle : ConsulKvBundle) (policy : ConsulImportConflictPolicy) :
    Action (Except Str ConsulImportPreview) :=
  (previewRows policy bundle.entries).andOk fun rows =>
  let canApply := !rows.any isConflict || policy != .abort
  .ret (.ok ⟨previewId rows bundle policy, rows, canApply⟩)

def unsentItem (key : Str) (outcome : Outcome) (reason : Option Str) : ResultItem :=
  ⟨key, outcome, reason, none, none⟩

def reportFromBlockedPreview (preview : ConsulImportPreview) : Report :=
  summarizeReport (preview.rows.map fun row =>
    unsentItem row.key (if isConflict row then .conflicted else .skipped) row.reason) false

/-- The row under a key in the map that `collect` makes: the last one counts. -/
def rowFor (rows : List ConsulImportPreviewRow) (key : Str) : Option ConsulImportPreviewRow :=
  rows.reverse.find? fun row => row.key == key

/-- The items that need no transaction, and the operations of the others. -/
def pendingOperations (rows : List ConsulImportPreviewRow) : List ConsulBundleEntry →
    List ResultItem × List TxnOperation
  | [] => ([], [])
  | source :: sources =>
    let (items, pending) := pendingOperations rows sources
    match rowFor rows source.key with
    | none => (items, pending)
    | some row =>
      match row.operation with
      | .unchanged | .skipped => (unsentItem source.key .skipped row.reason :: items, pending)
      | .conflict | .locked => (unsentItem source.key .conflicted row.reason :: items, pending)
      | .create | .update =>
        (items, casOperation source.key source.value source.flags
          (row.expectedModifyIndex.getD zeroIndex) :: pending)

def consulImportExecuteCore (request : ConsulImportRequest) : Action (Except Str Report) :=
  (Prog.await Op.writable).andOk fun _ =>
  match validateBundle decodeBase64 request.bundle with
  | .error e => .ret (.error e)
  | .ok () =>
    (Prog.await Op.client).andOk fun _ =>
    (buildPreview previewId request.bundle request.policy).andOk fun preview =>
    if request.previewId = some preview.previewId then
      if preview.canApply then
        let sources := sortByKey ConsulBundleEntry.key request.bundle.entries
        let (items, pending) := pendingOperations preview.rows sources
        let atomic := decide (pending.length ≤ maxTxnOperations)
        (sendBatches 0 (chunks maxTxnOperations pending)).bind fun sent =>
        .ret (.ok (summarizeReport (items ++ sent) atomic))
      else .ret (.ok (reportFromBlockedPreview preview))
    else .ret (.error ("CONSUL_IMPORT_PREVIEW_STALE: Target state changed after preview; " ++
      "refresh before importing").toList)

end Import

/-! ## The store -/

structure Stored where
  value : KvValue
  flags : KvInt64
  modifyIndex : Nat
  deriving DecidableEq, Repr

/-- What a transaction of the program did to one key. -/
inductive Effect where
  /-- With the index it had, and whether it was written since the run began. -/
  | removed (key : Str) (index : Nat) (written : Bool)
  /-- With the index it had, if it existed. -/
  | put (key : Str) (index : Option Nat)
  deriving DecidableEq, Repr

/-- A transaction that reached the store. -/
structure SentTxn where
  operations : List TxnOperation
  committed : Bool

/-- A store with the indexes it has given. -/
structure Kv where
  store : Str → Option Stored
  used : List Nat
  given : ∀ key stored, store key = some stored → stored.modifyIndex ∈ used

/-- The store, and a record of the run. -/
structure World where
  store : Str → Option Stored
  /-- The indexes given so far. -/
  used : List Nat
  /-- The keys written or deleted since the run began. -/
  written : List Str := []
  /-- What the program was told about single keys. -/
  answers : List (Str × KvGetResponse) := []
  effects : List Effect := []
  sent : List SentTxn := []

/-- A run begins with the preview that the caller has seen. -/
def World.start (kv : Kv) : World := { store := kv.store, used := kv.used }

/-- An index that was not given before, and is not 0; the suggestion if it is one. -/
def freshIndex (used : List Nat) (suggestion : Nat) : Nat :=
  if suggestion = 0 ∨ suggestion ∈ used then used.foldr max 0 + 1 else suggestion

def setKey (store : Str → Option Stored) (key : Str) (stored : Option Stored) :
    Str → Option Stored :=
  fun other => if other = key then stored else store other

/-- What another client writes: a value with a fresh index, or a deletion. -/
inductive Write where
  | put (key : Str) (value : KvValue) (flags : KvInt64) (index : Nat)
  | delete (key : Str)

def World.write (w : World) : Write → World
  | .put key value flags suggestion =>
    let index := freshIndex w.used suggestion
    { w with store := setKey w.store key (some ⟨value, flags, index⟩), used := index :: w.used
             written := key :: w.written }
  | .delete key =>
    { w with store := setKey w.store key none, written := key :: w.written }

/-- `cas`: with index 0 it wants the key to be absent. -/
def applyCas (index : Nat) (w : World) (key : Str) (value : KvValue) (flags : KvInt64)
    (expected : Nat) : Option World :=
  let current := (w.store key).map Stored.modifyIndex
  if current = (if expected = 0 then none else some expected) then
    some { w with store := setKey w.store key (some ⟨value, flags, index⟩)
                  written := key :: w.written
                  effects := w.effects ++ [.put key current] }
  else none

/-- `delete-cas`: an absent key is left as it is. -/
def applyDeleteCas (w : World) (key : Str) (expected : Nat) : Option World :=
  match w.store key with
  | none => some w
  | some stored =>
    if stored.modifyIndex = expected then
      some { w with store := setKey w.store key none
                    written := key :: w.written
                    effects := w.effects ++
                      [.removed key stored.modifyIndex (w.written.contains key)] }
    else none

/-- One operation of a transaction: nothing if its condition fails. -/
def applyOperation (index : Nat) (w : World) (operation : TxnOperation) : Option World :=
  match parseIndex operation.index with
  | none => none
  | some expected =>
    match operation.verb with
    | .cas value flags => applyCas index w operation.key value flags expected
    | .deleteCas => applyDeleteCas w operation.key expected

/-- All operations or none. Every key that is written gets the index of the transaction. -/
def World.applyTxn (w : World) (suggestion : Nat) (operations : List TxnOperation) : World × Bool :=
  let index := freshIndex w.used suggestion
  match operations.foldlM (applyOperation index) { w with used := index :: w.used } with
  | some w' => ({ w' with sent := w'.sent ++ [⟨operations, true⟩] }, true)
  | none => ({ w with sent := w.sent ++ [⟨operations, false⟩] }, false)

/-- What becomes of a request for a transaction. -/
inductive Delivery where
  /-- It does not reach the store. -/
  | lost (e : Str)
  /-- It is applied, and its answer is lost or unreadable. -/
  | unanswered (e : Str)
  /-- With the status and the errors it has if the transaction is not committed. -/
  | answered (success : Bool) (errors : List TxnError) (malformed : Option Str)

/-- What the environment does before and at a step of the program. -/
structure Choice where
  writes : List Write := []
  failure : Option Str := none
  listing : ConsulRecursiveListResponse := ⟨[], none, true, List.nodup_nil⟩
  answer : KvGetResponse := ⟨false, none, none⟩
  index : Nat := 0
  delivery : Delivery := .answered false [] none

/-- The answer of the store: a transaction that is not committed has another status, or errors. -/
def txnAnswer (committed success : Bool) (errors : List TxnError) (malformed : Option Str) :
    RawTxnResponse :=
  if committed then ⟨true, none, malformed⟩
  else ⟨success && !errors.isEmpty, some errors, malformed⟩

def handleTxn (w : World) (operations : List TxnOperation) (choice : Choice) :
    Except Str RawTxnResponse × World :=
  match choice.delivery with
  | .lost e => (.error e, w)
  | .unanswered e => (.error e, (w.applyTxn choice.index operations).1)
  | .answered success errors malformed =>
    let (w', committed) := w.applyTxn choice.index operations
    (.ok (txnAnswer committed success errors malformed), w')

def failing {α : Type} (failure : Option Str) (answer : α) : Except Str α :=
  match failure with
  | some e => .error e
  | none => .ok answer

def World.answer (w : World) (key : Str) : Except Str KvGetResponse → World
  | .ok response => { w with answers := w.answers ++ [(key, response)] }
  | .error _ => w

def handle : Handler Op Op.Ans World Choice := fun before op choice =>
  let w := choice.writes.foldl World.write before
  match op with
  | .writable | .client => (failing choice.failure (), w)
  | .listRecursive _ => (failing choice.failure choice.listing, w)
  | .getKey key =>
    let response := failing choice.failure choice.answer
    (response, w.answer key response)
  | .txn operations => handleTxn w operations choice

end Dbx.Source.Consul
