import Mathlib.Data.List.Perm.Basic
import Dbx.Guarantees.ConsulTransactions
import Dbx.Guarantees.SyncPlan

/-!
# Bulk operations of Consul keep to their previews

Whatever other clients write between the steps of `consul_delete_prefix_execute_core` and
`consul_import_execute_core` (`crates/dbx-core/src/consul/bulk.rs:92-181`,
`archive.rs:200-390`), and whatever becomes of each request, a deletion removes only keys
that the caller expects with the index they have, and an import overwrites a key only with
the index that its own preview has seen. The report has every key once.
-/
namespace Dbx.Guarantees.ConsulBulk

open Dbx.Lib.Text Dbx.Lib.Program Dbx.Source.DataCompare Dbx.Source.Consul List Option
open Dbx.Guarantees.SyncPlan Dbx.Guarantees.ConsulTransactions

theorem sortByKey_perm {α : Type} (key : α → Str) (items : List α) :
    (sortByKey key items).Perm items :=
  perm_insertionSort _ items

/-! ## The comparison of previews -/

variable {candidates : List ConsulDeleteCandidate} {key : Str} {kv : Kv}
  {row : ConsulImportPreviewRow} {sources : List ConsulBundleEntry}

theorem indexIn_some {index : KvInt64} (found : indexIn candidates key = some index) :
    ∃ candidate ∈ candidates, candidate.key = key ∧ candidate.modifyIndex = index := by
  obtain ⟨candidate, at_, same⟩ := map_eq_some_iff.mp found
  have member := mem_reverse.mp (mem_of_find?_eq_some at_)
  have equal : candidate.key = key := by simpa using find?_some at_
  exact ⟨candidate, member, equal, same⟩

theorem indexIn_isSome :
    (indexIn candidates key).isSome ↔ key ∈ candidates.map (·.key) := by
  unfold indexIn
  simp [List.mem_map]

theorem indexIn_of_mem (distinct : (candidates.map (·.key)).Nodup)
    {candidate : ConsulDeleteCandidate} (member : candidate ∈ candidates) :
    indexIn candidates candidate.key = some candidate.modifyIndex := by
  have found := indexIn_isSome.mpr (mem_map_of_mem member)
  obtain ⟨index, at_⟩ := isSome_iff_exists.mp found
  obtain ⟨other, mem, key, same⟩ := indexIn_some at_
  have equal := inj_on_of_nodup_map distinct mem member key
  rw [at_, ← same, equal]

section Previews

variable {expected current : List ConsulDeleteCandidate}

section

variable (same : samePreview expected current = true)
include same

theorem samePreview_key (member : key ∈ (expected ++ current).map (·.key)) :
    indexIn expected key = indexIn current key :=
  eq_of_beq (all_eq_true.mp same key member)

theorem samePreview_keys (key : Str) : key ∈ current.map (·.key) ↔
      key ∈ expected.map (·.key) := by
  constructor
  · intro member
    have equal : indexIn expected key = indexIn current key := by
      apply samePreview_key same
      rw [map_append]
      exact mem_append_right _ member
    rw [← indexIn_isSome, equal]
    exact indexIn_isSome.mpr member
  · intro member
    have equal : indexIn expected key = indexIn current key := by
      apply samePreview_key same
      rw [map_append]
      exact mem_append_left _ member
    rw [← indexIn_isSome, ← equal]
    exact indexIn_isSome.mpr member

/-- Each key of the own preview is expected with its index. -/
theorem samePreview_mem (distinct : (current.map (·.key)).Nodup)
    {candidate : ConsulDeleteCandidate} (member : candidate ∈ current) :
    ∃ other ∈ expected, other.key = candidate.key ∧
      other.modifyIndex = candidate.modifyIndex := by
  apply indexIn_some
  rw [samePreview_key same (mem_map_of_mem (mem_append_right _ member))]
  exact indexIn_of_mem distinct member

end

end Previews

/-! ## Deletions -/

/-- A removal of a key with the index that is expected for it. If that index was given when
the run began, the key was not written since. -/
def ExpectedRemoval (kv : Kv) (expected : List ConsulDeleteCandidate) : Effect → Prop
  | .removed key index written =>
    (∃ candidate ∈ expected, candidate.key = key ∧
      parseIndex candidate.modifyIndex = some index) ∧
    (index ∈ kv.used → written = false)
  | .put _ _ => False

/-- What holds in every world of a deletion. -/
structure Deleting (kv : Kv) (expected : List ConsulDeleteCandidate) (w : World) : Prop where
  removed : ∀ effect ∈ w.effects, ExpectedRemoval kv expected effect
  bounded : ∀ txn ∈ w.sent, txn.operations.length ≤ maxTxnOperations

variable {expected : List ConsulDeleteCandidate} {w : World} {answers : List (Str × KvGetResponse)}

theorem Deleting.of_reading (h : Reading kv.used [] w) : Deleting kv expected w := by
  constructor
  · rw [h.effects]
    exact nofun
  · rw [h.sent]
    exact nofun

/-- The operation for a candidate. -/
def deleteOperation (candidate : ConsulDeleteCandidate) : TxnOperation :=
  deleteCasOperation candidate.key candidate.modifyIndex

theorem Deleting.of_sending
    (among : ∀ candidate ∈ candidates, ∃ other ∈ expected, other.key = candidate.key ∧
      other.modifyIndex = candidate.modifyIndex)
    (h : Sending kv.used (candidates.map deleteOperation) answers w) : Deleting kv expected w := by
  apply Deleting.mk _ h.bounded
  intro effect member
  have unwritten := h.effected.unwritten effect member
  obtain ⟨operation, mem, caused⟩ := h.effected.caused effect member
  obtain ⟨candidate, listed, rfl⟩ := mem_map.mp mem
  obtain ⟨other, found, key, index⟩ := among candidate listed
  cases effect with
  | removed removedKey at_ written =>
    obtain ⟨_, same, parsed⟩ := caused
    have expectedHere : parseIndex other.modifyIndex = some at_ := by
      rw [index]
      exact parsed
    exact ⟨⟨other, found, key.trans same, expectedHere⟩, unwritten⟩
  | put putKey old =>
    cases old with
    | none | some => exact caused.1 rfl

theorem deleting_await (op : Op) (quiet : Quiet op) (h : Reading kv.used [] w) :
    Always handle (Deleting kv expected) (fun _ w => Reading kv.used [] w) (Prog.await op) w :=
  await_always (fun _ reading => Deleting.of_reading reading) quiet h

theorem preview_always (pref : Str) (h : Reading kv.used [] w) :
    Always handle (Deleting kv expected)
      (fun result w => Reading kv.used [] w ∧ ∀ preview, result = .ok preview →
        (preview.candidates.map (·.key)).Nodup)
      (consulDeletePrefixPreviewCore pref) w := by
  unfold consulDeletePrefixPreviewCore
  cases validatePrefix pref with
  | error e => exact ⟨.of_reading h, h, nofun⟩
  | ok done =>
    refine (deleting_await .client trivial h).andOk ?_ fun e w _ reading => ⟨reading, nofun⟩
    intro _ w₁ _ h₁
    refine (deleting_await (.listRecursive pref) trivial h₁).andOk ?_
      fun e w _ reading => ⟨reading, nofun⟩
    intro recursive w₂ deleting h₂
    apply Always.ret deleting
    apply And.intro h₂
    intro preview same
    cases same
    rw [List.map_map]
    exact recursive.distinct

theorem deleteBatches_flatten (candidates : List ConsulDeleteCandidate) :
    ((chunks maxTxnOperations candidates).map fun chunk =>
      chunk.map deleteOperation).flatten = candidates.map deleteOperation := by
  have flat : (chunks maxTxnOperations candidates).flatten = candidates :=
    chunksFrom_flatten [] candidates
  rw [← map_flatten, flat]

/-- The sending part of a deletion, for candidates that are expected. -/
theorem deletion_always (same : samePreview expected candidates = true)
    (distinct : (candidates.map (·.key)).Nodup) (h : Reading kv.used [] w)
    (atomic : Bool) :
    Always handle (Deleting kv expected)
      (ReportedIfOk (expected.map (·.key)))
      ((sendBatches 0 ((chunks maxTxnOperations
          (sortByKey ConsulDeleteCandidate.key candidates)).map fun chunk =>
          chunk.map deleteOperation)).bind fun items =>
        Prog.ret (Except.ok (summarizeReport items atomic))) w := by
  have perm := sortByKey_perm ConsulDeleteCandidate.key candidates
  have flat := deleteBatches_flatten (sortByKey ConsulDeleteCandidate.key candidates)
  have among : ∀ candidate ∈ sortByKey ConsulDeleteCandidate.key candidates,
      ∃ other ∈ expected, other.key = candidate.key ∧
        other.modifyIndex = candidate.modifyIndex := by
    intro candidate member
    exact samePreview_mem same distinct (perm.mem_iff.mp member)
  have sending := h.sending
    ((sortByKey ConsulDeleteCandidate.key candidates).map deleteOperation)
  have sends := sendBatches_always 0 (fun sent member operation inside =>
    flat ▸ mem_flatten.mpr ⟨sent, member, inside⟩) sending
  apply (sends.mono (fun w => Deleting.of_sending among) fun _ _ post => post).bind
  intro items w' deleting post
  apply Always.ret deleting
  intro report equal
  cases equal
  rw [flat, List.map_map] at post
  have keys : items.map ResultItem.key =
      (sortByKey ConsulDeleteCandidate.key candidates).map (·.key) := post.keys
  have permKeys := perm.map (·.key)
  constructor
  · exact keys ▸ permKeys.nodup_iff.mpr distinct
  · intro key
    rw [← samePreview_keys same key, ← permKeys.mem_iff, ← keys]
    rfl
  · exact post.succeeded

theorem delete_always (kv : Kv) (request : ConsulDeletePrefixRequest) :
    Always handle (Deleting kv request.expected)
      (ReportedIfOk (request.expected.map (·.key)))
      (consulDeletePrefixExecuteCore request) (World.start kv) := by
  refine (deleting_await .writable trivial (Reading.start kv [])).andOk ?_ fun _ _ _ _ => nofun
  intro _ w₁ deleting₁ h₁
  cases validatePrefix request.pref with
  | error e => exact ⟨deleting₁, nofun⟩
  | ok done =>
    simp only
    split
    · exact ⟨deleting₁, nofun⟩
    refine (preview_always request.pref h₁).andOk ?_ fun _ _ _ _ => nofun
    intro preview w₂ deleting₂ post
    obtain ⟨h₂, distinct⟩ := post
    split
    · unfold ensureSamePreview
      cases same : samePreview request.expected preview.candidates with
      | false => exact ⟨deleting₂, nofun⟩
      | true =>
        apply (deleting_await .client trivial h₂).andOk
        · intro _ w₃ _ h₃
          exact deletion_always same (distinct preview rfl) h₃ _
        · exact fun e w _ _ => nofun
    · exact ⟨deleting₂, nofun⟩

/-! ## The preview of an import -/

section Bundles

variable {decodeBase64 : Str → Except Str (List UInt8)}

theorem validateEntries_distinct {seen : List Str} {total : Nat} {entries : List ConsulBundleEntry}
    (valid : validateEntries decodeBase64 seen total entries = .ok ()) :
    (entries.map (·.key)).Nodup ∧
      ∀ key ∈ entries.map (·.key), key ∉ seen := by
  induction entries generalizing seen total with
  | nil => exact ⟨nodup_nil, nofun⟩
  | cons entry entries ih =>
    unfold validateEntries at valid
    split at valid
    · cases valid
    split at valid
    · cases valid
    rename_i unseen
    have absent : entry.key ∉ seen := fun member => unseen (contains_iff_mem.mpr member)
    split at valid
    · cases valid
    split at valid
    · cases valid
    split at valid
    · cases valid
    split at valid
    · cases valid
    obtain ⟨distinct, fresh⟩ := ih valid
    constructor
    · rw [map_cons, nodup_cons]
      exact ⟨fun member => fresh _ member mem_cons_self, distinct⟩
    · exact forall_mem_cons.mpr ⟨absent, fun key later known =>
        fresh key later (mem_cons_of_mem _ known)⟩

theorem validateBundle_distinct {bundle : ConsulKvBundle}
    (valid : validateBundle decodeBase64 bundle = .ok ()) :
    (bundle.entries.map (·.key)).Nodup := by
  unfold validateBundle at valid
  split at valid
  · cases valid
  · split at valid
    · cases valid
    · exact (validateEntries_distinct valid).1

end Bundles

/-- The index that an answer shows. -/
def seenIndex (response : KvGetResponse) : Option KvInt64 :=
  if response.found then response.metadata.bind KvKeyMetadata.modRevision else none

theorem previewRow_expected (source : ConsulBundleEntry) (target : KvGetResponse)
    (policy : ConsulImportConflictPolicy) :
    (previewRow source target policy).key = source.key ∧
      (previewRow source target policy).expectedModifyIndex = seenIndex target := by
  have metadata : (target.metadata.getD emptyMetadata).modRevision =
      target.metadata.bind KvKeyMetadata.modRevision := by
    cases target.metadata <;> rfl
  unfold previewRow seenIndex
  split
  · rw [← metadata]
    unfold previewExisting
    simp only
    split
    · exact ⟨rfl, rfl⟩
    · split
      · exact ⟨rfl, rfl⟩
      · cases policy <;> exact ⟨rfl, rfl⟩
  · exact ⟨rfl, rfl⟩

/-- The row for an entry, from what the run was told about its key. -/
def RowSeen (policy : ConsulImportConflictPolicy) (answers : List (Str × KvGetResponse))
    (source : ConsulBundleEntry) (row : ConsulImportPreviewRow) : Prop :=
  ∃ target, (source.key, target) ∈ answers ∧ row = previewRow source target policy

/-- An overwritten key had the index that the run was shown for it. -/
def SeenOverwrite (answers : List (Str × KvGetResponse)) : Effect → Prop
  | .removed _ _ _ => False
  | .put _ none => True
  | .put key (some index) =>
    ∃ response, (key, response) ∈ answers ∧ (seenIndex response).bind parseIndex = some index

/-- What holds in every world of an import. -/
structure Importing (w : World) : Prop where
  /-- A key is read once. -/
  previewed : (w.answers.map Prod.fst).Nodup
  overwritten : ∀ effect ∈ w.effects, SeenOverwrite w.answers effect
  bounded : ∀ txn ∈ w.sent, txn.operations.length ≤ maxTxnOperations

variable {before : List Nat} {keys : List Str} {w : World}

theorem Importing.of_reading (distinct : keys.Nodup) (h : Reading before keys w) : Importing w := by
  apply Importing.mk (h.answers.sublist.nodup distinct)
  · rw [h.effects]
    exact nofun
  · rw [h.sent]
    exact nofun

variable {policy : ConsulImportConflictPolicy}

theorem previewRows_always {entries : List ConsulBundleEntry} (distinct : keys.Nodup)
    (h : Reading before keys w) (next : w.answers.map Prod.fst ++ entries.map (·.key) = keys) :
    Always handle Importing
      (fun result w => Reading before keys w ∧ ∀ rows, result = .ok rows →
        List.Forall₂ (RowSeen policy w.answers) entries rows)
      (previewRows policy entries) w := by
  induction entries generalizing w with
  | nil =>
    apply Always.ret (.of_reading distinct h)
    apply And.intro h
    intro rows same
    cases same
    exact .nil
  | cons source entries ih =>
    apply Always.await (.of_reading distinct h)
    intro choice
    cases answered : (handle w (.getKey source.key) choice).1 with
    | error e =>
      have reading := h.getKey_error answered
      exact ⟨.of_reading distinct reading, reading, nofun⟩
    | ok target =>
      obtain ⟨reading, answers⟩ := h.getKey next choice answered
      have later := ih reading (by
        rw [answers, ← next]
        simp)
      -- The answer for this key is still on the record when the others have been read.
      have both := later.and_kept (S := fun w => (source.key, target) ∈ w.answers)
        (fun w op c member => (handle_extends w op c).1.subset member) (by
          rw [answers]
          exact mem_append_right _ (mem_singleton_self _))
      apply (both.mono (fun _ inv => inv.1) fun _ _ post => post).andOk
      · intro rows w' importing post
        apply Always.ret importing
        apply And.intro post.1.1
        intro all same
        cases same
        exact .cons ⟨target, post.2, rfl⟩ (post.1.2 rows rfl)
      · intro e w' _ post
        exact ⟨post.1.1, nofun⟩

/-! ## The operations of an import -/

section Pending

variable {policy : ConsulImportConflictPolicy} {answers : List (Str × KvGetResponse)}
  {entries : List ConsulBundleEntry} {rows : List ConsulImportPreviewRow}

theorem rows_keys (seen : List.Forall₂ (RowSeen policy answers) entries rows) :
    rows.map ConsulImportPreviewRow.key = entries.map (·.key) := by
  induction seen with
  | nil => rfl
  | cons head _ ih =>
    obtain ⟨target, _, rfl⟩ := head
    rw [map_cons, map_cons, ih, (previewRow_expected _ _ _).1]

theorem rowSeen_of_mem (seen : List.Forall₂ (RowSeen policy answers) entries rows)
    (member : row ∈ rows) :
    ∃ target, (row.key, target) ∈ answers ∧ row.expectedModifyIndex = seenIndex target := by
  induction seen with
  | nil => cases member
  | @cons source _ _ _ head _ ih =>
    obtain same | later := mem_cons.mp member
    · obtain ⟨target, answer, rfl⟩ := head
      have expected := previewRow_expected source target policy
      rw [same, expected.1]
      exact ⟨target, answer, expected.2⟩
    · exact ih later

theorem rowFor_some (found : rowFor rows key = some row) : row ∈ rows ∧ row.key = key := by
  apply And.intro (mem_reverse.mp (mem_of_find?_eq_some found))
  simpa using find?_some found

theorem rowFor_of_mem (member : key ∈ rows.map ConsulImportPreviewRow.key) :
    ∃ row, rowFor rows key = some row := by
  obtain ⟨row, inside, same⟩ := mem_map.mp member
  apply isSome_iff_exists.mp
  unfold rowFor
  rw [find?_isSome]
  exact ⟨row, mem_reverse.mpr inside, beq_iff_eq.mpr same⟩

theorem pendingOperations_cons_none {source : ConsulBundleEntry}
    (missing : rowFor rows source.key = none) :
    pendingOperations rows (source :: sources) = pendingOperations rows sources := by
  rw [pendingOperations, missing]

/-- A source with a row gives an item or an operation. -/
theorem pendingOperations_cons {source : ConsulBundleEntry}
    (found : rowFor rows source.key = some row) :
    (∃ outcome, outcome ≠ .succeeded ∧ pendingOperations rows (source :: sources) =
      (unsentItem source.key outcome row.reason :: (pendingOperations rows sources).1,
        (pendingOperations rows sources).2)) ∨
    pendingOperations rows (source :: sources) =
      ((pendingOperations rows sources).1, casOperation source.key source.value source.flags
        (row.expectedModifyIndex.getD zeroIndex) :: (pendingOperations rows sources).2) := by
  rw [pendingOperations, found]
  simp only
  cases row.operation with
  | unchanged | skipped => exact .inl ⟨.skipped, nofun, rfl⟩
  | conflict | locked => exact .inl ⟨.conflicted, nofun, rfl⟩
  | create | update => exact .inr rfl

/-- A source is in one of the two lists. -/
theorem pendingOperations_keys
    (found : ∀ source ∈ sources, ∃ row, rowFor rows source.key = some row) :
    ((pendingOperations rows sources).1.map ResultItem.key ++
      (pendingOperations rows sources).2.map TxnOperation.key).Perm
        (sources.map (·.key)) := by
  induction sources with
  | nil => exact .nil
  | cons source sources ih =>
    have rest := ih (forall_mem_cons.mp found).2
    have first := rest.cons source.key
    obtain ⟨row, at_⟩ := found source mem_cons_self
    obtain item | equal := pendingOperations_cons at_
    · obtain ⟨outcome, _, equal⟩ := item
      rw [equal]
      exact first
    · rw [equal]
      exact List.perm_middle.trans first

/-- The items without a transaction do not succeed, and the operations write with the index
of their row. -/
theorem pendingOperations_parts :
    (∀ item ∈ (pendingOperations rows sources).1, item.outcome ≠ .succeeded) ∧
      ∀ operation ∈ (pendingOperations rows sources).2,
        operation.verb ≠ .deleteCas ∧ ∃ row ∈ rows, row.key = operation.key ∧
          operation.index = row.expectedModifyIndex.getD zeroIndex := by
  induction sources with
  | nil => exact ⟨nofun, nofun⟩
  | cons source sources ih =>
    cases found : rowFor rows source.key with
    | none =>
      rw [pendingOperations_cons_none found]
      exact ih
    | some row =>
      obtain ⟨outcome, other, equal⟩ | equal := pendingOperations_cons found
      · rw [equal]
        exact ⟨forall_mem_cons.mpr ⟨other, ih.1⟩, ih.2⟩
      · obtain ⟨listed, key⟩ := rowFor_some found
        rw [equal]
        exact ⟨ih.1, forall_mem_cons.mpr ⟨⟨nofun, row, listed, key, rfl⟩, ih.2⟩⟩

end Pending

/-! ## Imports -/

/-- An operation that writes a key with the index the run was shown for it. -/
def SeenOperation (answers : List (Str × KvGetResponse)) (operation : TxnOperation) : Prop :=
  operation.verb ≠ .deleteCas ∧ ∃ target, (operation.key, target) ∈ answers ∧
    operation.index = (seenIndex target).getD zeroIndex

theorem SeenOperation.overwrite {operation : TxnOperation} (seen : SeenOperation answers operation)
    {effect : Effect} (caused : CausedBy operation effect) : SeenOverwrite answers effect := by
  obtain ⟨verb, target, answer, index⟩ := seen
  cases effect with
  | removed key at_ written => exact verb caused.1
  | put key old =>
    cases old with
    | none => trivial
    | some at_ =>
      obtain ⟨_, same, positive, parsed⟩ := caused
      rw [index] at parsed
      cases shown : seenIndex target with
      | none =>
        -- Index 0 overwrites nothing.
        rw [shown] at parsed
        exact absurd (Option.some.inj parsed).symm positive
      | some text =>
        rw [shown] at parsed
        apply Exists.intro target
        rw [← same, shown]
        exact ⟨answer, parsed⟩

theorem Importing.of_sending {operations : List TxnOperation}
    (seen : ∀ operation ∈ operations, SeenOperation answers operation)
    (previewed : (answers.map Prod.fst).Nodup) (h : Sending before operations answers w) :
    Importing w := by
  constructor
  · rw [h.answers]
    exact previewed
  · intro effect member
    obtain ⟨operation, mem, caused⟩ := h.effected.caused effect member
    rw [h.answers]
    exact (seen operation mem).overwrite caused
  · exact h.bounded

section

variable {entries : List ConsulBundleEntry} (distinct : (entries.map (·.key)).Nodup)
include distinct

/-- The sending part of an import, for the rows of its preview. -/
theorem sending_always {rows : List ConsulImportPreviewRow}
    (h : Reading before (entries.map (·.key)) w)
    (seen : List.Forall₂ (RowSeen policy w.answers) entries rows) (atomic : Bool) :
    Always handle Importing (ReportedIfOk (entries.map (·.key)))
      ((sendBatches 0 (chunks maxTxnOperations
          (pendingOperations rows (sortByKey ConsulBundleEntry.key entries)).2)).bind fun sent =>
        Prog.ret (Except.ok (summarizeReport
          ((pendingOperations rows (sortByKey ConsulBundleEntry.key entries)).1 ++ sent) atomic)))
      w := by
  have perm := sortByKey_perm ConsulBundleEntry.key entries
  have found : ∀ source ∈ sortByKey ConsulBundleEntry.key entries,
      ∃ row, rowFor rows source.key = some row := by
    intro source member
    apply rowFor_of_mem
    rw [rows_keys seen]
    exact mem_map_of_mem (perm.mem_iff.mp member)
  have operations : ∀ operation ∈
      (pendingOperations rows (sortByKey ConsulBundleEntry.key entries)).2,
      SeenOperation w.answers operation := by
    intro operation member
    obtain ⟨verb, row, listed, key, index⟩ := pendingOperations_parts.2 _ member
    obtain ⟨target, answer, expected⟩ := rowSeen_of_mem seen listed
    exact ⟨verb, target, key ▸ answer, expected ▸ index⟩
  have once := (pendingOperations_keys found).trans (perm.map (·.key))
  have unsent : ∀ item ∈ (pendingOperations rows (sortByKey ConsulBundleEntry.key entries)).1,
      item.outcome ≠ .succeeded := pendingOperations_parts.1
  generalize pendingOperations rows (sortByKey ConsulBundleEntry.key entries) = pending at *
  have flat : (chunks maxTxnOperations pending.2).flatten = pending.2 :=
    chunksFrom_flatten [] pending.2
  have sends := sendBatches_always 0 (fun sent member operation inside =>
    flat ▸ mem_flatten.mpr ⟨sent, member, inside⟩) (h.sending pending.2)
  have previewed := h.answers.sublist.nodup distinct
  apply (sends.mono (fun w => Importing.of_sending operations previewed) fun _ _ post => post).bind
  intro sent w' importing post
  apply Always.ret importing
  intro report equal
  cases equal
  rw [flat] at post
  have perm : ((pending.1 ++ sent).map ResultItem.key).Perm
      (entries.map (·.key)) := by
    rw [map_append, post.keys]
    exact once
  constructor
  · exact perm.nodup_iff.mpr distinct
  · exact fun key => perm.mem_iff
  · intro item member succeeded
    obtain left | right := mem_append.mp member
    · exact absurd succeeded (unsent item left)
    · exact post.succeeded item right succeeded

theorem blocked_reported {preview : ConsulImportPreview}
    (seen : List.Forall₂ (RowSeen policy answers) entries preview.rows) (w : World) :
    Reported (entries.map (·.key)) w (reportFromBlockedPreview preview) := by
  have keys : (reportFromBlockedPreview preview).items.map ResultItem.key =
      entries.map (·.key) := by
    rw [← rows_keys seen]
    unfold reportFromBlockedPreview summarizeReport
    rw [List.map_map]
    rfl
  constructor
  · exact keys ▸ distinct
  · intro key
    rw [keys]
  · intro item member succeeded
    obtain ⟨row, _, rfl⟩ := mem_map.mp member
    split at succeeded <;> cases succeeded

end

section Executions

variable (decodeBase64 : Str → Except Str (List UInt8))
  (previewId : List ConsulImportPreviewRow → ConsulKvBundle → ConsulImportConflictPolicy → Str)

theorem importing_await (op : Op) (quiet : Quiet op) (h : Reading before [] w) :
    Always handle Importing (fun _ w => Reading before [] w) (Prog.await op) w :=
  await_always (fun _ reading => Importing.of_reading nodup_nil reading) quiet h

theorem buildPreview_always {bundle : ConsulKvBundle} (policy : ConsulImportConflictPolicy)
    (distinct : (bundle.entries.map (·.key)).Nodup) (h : Reading before [] w) :
    Always handle Importing
      (fun result w => Reading before (bundle.entries.map (·.key)) w ∧
        ∀ preview, result = .ok preview →
          List.Forall₂ (RowSeen policy w.answers) bundle.entries preview.rows)
      (buildPreview previewId bundle policy) w := by
  have all : w.answers.map Prod.fst ++ bundle.entries.map (·.key) =
      bundle.entries.map (·.key) := by
    rw [h.unread]
    rfl
  apply (previewRows_always distinct (h.widen _) all).andOk
  · intro rows w' importing post
    apply Always.ret importing
    apply And.intro post.1
    intro preview same
    cases same
    exact post.2 rows rfl
  · intro e w' _ post
    exact ⟨post.1, nofun⟩

theorem import_always (kv : Kv) (request : ConsulImportRequest) : Always handle Importing
      (ReportedIfOk (request.bundle.entries.map (·.key)))
      (consulImportExecuteCore decodeBase64 previewId request) (World.start kv) := by
  refine (importing_await .writable trivial (Reading.start kv [])).andOk ?_ fun _ _ _ _ => nofun
  intro _ w₁ importing₁ h₁
  cases valid : validateBundle decodeBase64 request.bundle with
  | error e => exact ⟨importing₁, nofun⟩
  | ok done =>
    have distinct := validateBundle_distinct valid
    refine (importing_await .client trivial h₁).andOk ?_ fun _ _ _ _ => nofun
    intro _ w₂ _ h₂
    refine (buildPreview_always previewId request.policy distinct h₂).andOk ?_ fun _ _ _ _ => nofun
    intro preview w₃ importing₃ post
    obtain ⟨h₃, seen⟩ := post
    split
    · split
      · exact sending_always distinct h₃ (seen preview rfl) _
      apply Always.ret importing₃
      intro report same
      cases same
      exact blocked_reported distinct (seen preview rfl) w₃
    · exact ⟨importing₃, nofun⟩

/-! ## Both operations -/

/-- What the world of a deletion shows, wherever it stops, and its report. -/
structure DeletionKept (kv : Kv) (request : ConsulDeletePrefixRequest)
    (run : Action (Except Str Report) × World) : Prop where
  kept : Deleting kv request.expected run.2
  reported : ∀ report, run.1 = .ret (.ok report) →
    Reported (request.expected.map ConsulDeleteCandidate.key) run.2 report

structure ImportKept (request : ConsulImportRequest)
    (run : Action (Except Str Report) × World) : Prop where
  kept : Importing run.2
  reported : ∀ report, run.1 = .ret (.ok report) →
    Reported (request.bundle.entries.map ConsulBundleEntry.key) run.2 report

/-- Every run of either operation, with any writes of others before each of its steps. -/
theorem bulk_operations_keep_to_preview (kv : Kv) (choices : List Choice) :
    (∀ request, DeletionKept kv request
      (exec handle (consulDeletePrefixExecuteCore request) (World.start kv) choices)) ∧
    (∀ request, ImportKept request
      (exec handle (consulImportExecuteCore decodeBase64 previewId request) (World.start kv)
        choices)) := by
  constructor
  · intro request
    have always := delete_always kv request
    apply DeletionKept.mk (always.exec_inv choices)
    intro report returned
    exact always.exec_post (Prod.ext returned rfl) report rfl
  · intro request
    have always := import_always decodeBase64 previewId kv request
    apply ImportKept.mk (always.exec_inv choices)
    intro report returned
    exact always.exec_post (Prod.ext returned rfl) report rfl

end Executions

/-- One key with index 5. -/
def oneKey : Kv where
  store := fun key => if key = "a/x".toList then some ⟨⟨.utf8, "1".toList⟩, zeroIndex, 5⟩ else none
  used := [5]
  given := by
    intro key stored found
    split at found
    · cases found
      exact mem_singleton_self _
    · cases found

-- A listing with that key, and a transaction before which nothing else happens.
example :
    (exec handle (consulDeletePrefixExecuteCore ⟨"a/".toList, [⟨"a/x".toList, "5".toList, none⟩]⟩)
      (World.start oneKey)
      [{}, {}, { listing := ⟨[⟨"a/x".toList, "5".toList, none⟩], none, true, by decide⟩ }, {},
        {}]).2.effects = [.removed "a/x".toList 5 false] := by
  decide

end Dbx.Guarantees.ConsulBulk
