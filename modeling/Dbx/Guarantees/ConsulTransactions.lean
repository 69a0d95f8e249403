import Mathlib.Data.List.MinMax
import Dbx.Source.Consul

/-!
# Transactions among the writes of other clients

A bulk operation of Consul (`crates/dbx-core/src/consul/bulk.rs:92-166`, `archive.rs:200-281`)
has a reading part, in which nothing is sent, and a sending part, in which nothing is read.
Each has an invariant that holds whatever other clients write between its steps and whatever
becomes of each request. The effects of a transaction are those of its operations, on keys
that have the index the operation expects.
-/
namespace Dbx.Guarantees.ConsulTransactions

open Dbx.Lib.Text Dbx.Lib.Program Dbx.Source.DataCompare Dbx.Source.Consul List Option

/-! ## Fresh indexes -/

variable {index : Nat} {w' w : World} {sent : List TxnOperation}

theorem freshIndex_not_mem {used : List Nat} {suggestion : Nat} :
    freshIndex used suggestion ∉ used := by
  unfold freshIndex
  split
  · intro member
    have : used.foldr max 0 + 1 ≤ used.foldr max 0 := le_max_of_le member le_rfl
    omega
  · rename_i free
    exact fun member => free (.inr member)

/-- A key that was written since the indexes `before` were given has none of them. -/
structure Renewed (before : List Nat) (w : World) : Prop where
  kept : before ⊆ w.used
  renewed : ∀ key ∈ w.written, ∀ stored, w.store key = some stored →
    stored.modifyIndex ∉ before

variable {before : List Nat} {w : World}

theorem Renewed.start (kv : Kv) : Renewed kv.used (World.start kv) where
  kept := List.Subset.refl _
  renewed := fun _ member => nomatch member

/-- A key that still has an index from before is unwritten. -/
theorem Renewed.unwritten (h : Renewed before w) {key : Str} {stored : Stored}
    (found : w.store key = some stored) (old : stored.modifyIndex ∈ before) :
    w.written.contains key = false := by
  cases written : w.written.contains key with
  | false => rfl
  | true => exact absurd old (h.renewed key (contains_iff_mem.mp written) stored found)

/-- One key gets a new index, or goes. -/
theorem Renewed.set (h : Renewed before w) (key : Str) (stored : Option Stored)
    (fresh : ∀ new ∈ stored, new.modifyIndex ∉ before) (kept : w.used ⊆ w'.used)
    (store : w'.store = setKey w.store key stored) (written : w'.written = key :: w.written) :
    Renewed before w' where
  kept := List.Subset.trans h.kept kept
  renewed := by
    intro other member found at_
    rw [store] at at_
    unfold setKey at at_
    split at at_
    · exact fresh found at_
    · rename_i different
      rw [written] at member
      exact h.renewed other ((mem_cons.mp member).resolve_left different) found at_

/-! ## Writes of other clients -/

theorem Renewed.write (h : Renewed before w) (write : Write) : Renewed before (w.write write) := by
  cases write with
  | put key value flags suggestion =>
    have fresh : freshIndex w.used suggestion ∉ before :=
      fun member => freshIndex_not_mem (h.kept member)
    exact h.set key (some ⟨value, flags, freshIndex w.used suggestion⟩) (by simpa using fresh)
      (subset_cons_self _ _) rfl rfl
  | delete key =>
    exact h.set key none nofun (List.Subset.refl _) rfl rfl

theorem Renewed.writes (h : Renewed before w) (writes : List Write) :
    Renewed before (writes.foldl World.write w) := by
  induction writes generalizing w with
  | nil => exact h
  | cons first rest ih => exact ih (h.write first)

/-- What the writes of others leave alone: the record of what the program did. -/
structure SameRecord (w w' : World) : Prop where
  answers : w'.answers = w.answers
  effects : w'.effects = w.effects
  sent : w'.sent = w.sent

theorem SameRecord.writes (w : World) (writes : List Write) :
    SameRecord w (writes.foldl World.write w) := by
  induction writes generalizing w with
  | nil => exact ⟨rfl, rfl, rfl⟩
  | cons first rest ih =>
    have later := ih (w.write first)
    cases first <;> exact ⟨later.answers, later.effects, later.sent⟩

/-! ## Transactions -/

/-- An effect that an operation may have. -/
def CausedBy (operation : TxnOperation) : Effect → Prop
  | .removed key index _ =>
    operation.verb = .deleteCas ∧ operation.key = key ∧ parseIndex operation.index = some index
  | .put key none => operation.verb ≠ .deleteCas ∧ operation.key = key
  | .put key (some index) =>
    operation.verb ≠ .deleteCas ∧ operation.key = key ∧ index ≠ 0 ∧
      parseIndex operation.index = some index

/-- A key that is removed with an index from before was not written since. -/
def Unwritten (before : List Nat) : Effect → Prop
  | .removed _ index written => index ∈ before → written = false
  | .put _ _ => True

/-- The world while the operations of a list are sent. -/
structure Effected (before : List Nat) (operations : List TxnOperation) (w : World) : Prop where
  renewed : Renewed before w
  unwritten : ∀ effect ∈ w.effects, Unwritten before effect
  caused : ∀ effect ∈ w.effects, ∃ operation ∈ operations, CausedBy operation effect

variable {operations : List TxnOperation}

/-- What one operation can do. -/
theorem applyOperation_cases {operation : TxnOperation}
    (applied : applyOperation index w operation = some w') : w' = w ∨ ∃ stored effect,
      w' = { w with store := setKey w.store operation.key stored
                    written := operation.key :: w.written, effects := w.effects ++ [effect] } ∧
      (∀ new ∈ stored, new.modifyIndex = index) ∧ CausedBy operation effect ∧
      ∀ before, Renewed before w → Unwritten before effect := by
  unfold applyOperation at applied
  cases parsed : parseIndex operation.index with
  | none =>
    rw [parsed] at applied
    cases applied
  | some expected =>
    rw [parsed] at applied
    simp only at applied
    split at applied
    · rename_i value flags verb
      obtain ⟨holds, done⟩ := ite_none_right_eq_some.mp applied
      cases done
      have other : operation.verb ≠ .deleteCas := by
        rw [verb]
        exact nofun
      refine .inr ⟨some ⟨value, flags, index⟩, _, rfl, by simp, ?_, fun _ _ => trivial⟩
      rw [holds]
      split
      · exact ⟨other, rfl⟩
      · rename_i positive
        exact ⟨other, rfl, positive, parsed⟩
    · rename_i verb
      unfold applyDeleteCas at applied
      split at applied
      · exact .inl (some.inj applied).symm
      rename_i stored found
      obtain ⟨same, done⟩ := ite_none_right_eq_some.mp applied
      cases done
      exact .inr ⟨none, _, rfl, nofun, ⟨verb, rfl, by rw [same, parsed]⟩,
        fun _ renewed => renewed.unwritten found⟩

theorem Effected.operation (h : Effected before operations w) {operation : TxnOperation}
    (member : operation ∈ operations) (fresh : index ∉ before)
    (applied : applyOperation index w operation = some w') : Effected before operations w' := by
  rcases applyOperation_cases applied with rfl | ⟨stored, effect, rfl, new, by_, unwritten⟩
  · exact h
  constructor
  · exact h.renewed.set operation.key stored (fun s at_ => new s at_ ▸ fresh)
      (List.Subset.refl _) rfl rfl
  · exact forall_mem_append.mpr
      ⟨h.unwritten, forall_mem_singleton.mpr (unwritten before h.renewed)⟩
  · exact forall_mem_append.mpr ⟨h.caused, forall_mem_singleton.mpr ⟨operation, member, by_⟩⟩

theorem Effected.foldlM (fresh : index ∉ before)
    (among : ∀ operation ∈ sent, operation ∈ operations) (h : Effected before operations w)
    (applied : sent.foldlM (applyOperation index) w = some w') : Effected before operations w' := by
  induction sent generalizing w with
  | nil =>
    cases applied
    exact h
  | cons first rest ih =>
    obtain ⟨middle, head, tail⟩ := bind_eq_some_iff.mp applied
    apply ih (forall_mem_cons.mp among).2 _ tail
    exact h.operation (among first mem_cons_self) fresh head

/-- Operations touch the store, its indexes and the effects only. -/
theorem applyOperation_record {operation : TxnOperation}
    (applied : applyOperation index w operation = some w') :
    w'.answers = w.answers ∧ w'.sent = w.sent := by
  rcases applyOperation_cases applied with rfl | ⟨_, _, rfl, _⟩ <;> exact ⟨rfl, rfl⟩

theorem foldlM_record (applied : sent.foldlM (applyOperation index) w = some w') :
    w'.answers = w.answers ∧ w'.sent = w.sent := by
  induction sent generalizing w with
  | nil =>
    cases applied
    exact ⟨rfl, rfl⟩
  | cons first rest ih =>
    obtain ⟨middle, head, tail⟩ := bind_eq_some_iff.mp applied
    have now := applyOperation_record head
    have later := ih tail
    exact ⟨later.1.trans now.1, later.2.trans now.2⟩

/-- All that a transaction can do to the record. -/
theorem applyTxn_record (w : World) (suggestion : Nat) (sent : List TxnOperation) :
    (w.applyTxn suggestion sent).1.answers = w.answers ∧
      (w.applyTxn suggestion sent).1.sent =
        w.sent ++ [⟨sent, (w.applyTxn suggestion sent).2⟩] := by
  unfold World.applyTxn
  simp only
  split
  · rename_i w' applied
    have same := foldlM_record applied
    exact ⟨same.1, by rw [same.2]⟩
  · exact ⟨rfl, rfl⟩

theorem Effected.applyTxn (h : Effected before operations w) (suggestion : Nat)
    (among : ∀ operation ∈ sent, operation ∈ operations) :
    Effected before operations (w.applyTxn suggestion sent).1 := by
  have fresh : freshIndex w.used suggestion ∉ before :=
    fun member => freshIndex_not_mem (h.renewed.kept member)
  have opened : Effected before operations
      { w with used := freshIndex w.used suggestion :: w.used } :=
    ⟨⟨List.Subset.trans h.renewed.kept (subset_cons_self _ _), h.renewed.renewed⟩,
      h.unwritten, h.caused⟩
  unfold World.applyTxn
  simp only
  split
  · rename_i w' applied
    have done := opened.foldlM fresh among applied
    exact ⟨⟨done.renewed.kept, done.renewed.renewed⟩, done.unwritten, done.caused⟩
  · exact ⟨⟨h.renewed.kept, h.renewed.renewed⟩, h.unwritten, h.caused⟩

/-! ## Sending -/

/-- The invariant of the sending part. -/
structure Sending (before : List Nat) (operations : List TxnOperation)
    (answers : List (Str × KvGetResponse)) (w : World) : Prop where
  effected : Effected before operations w
  answers : w.answers = answers
  bounded : ∀ txn ∈ w.sent, txn.operations.length ≤ maxTxnOperations

variable {answers : List (Str × KvGetResponse)}

theorem Sending.writes (h : Sending before operations answers w) (writes : List Write) :
    Sending before operations answers (writes.foldl World.write w) := by
  have same := SameRecord.writes w writes
  constructor
  · constructor
    · exact h.effected.renewed.writes writes
    · rw [same.effects]
      exact h.effected.unwritten
    · rw [same.effects]
      exact h.effected.caused
  · rw [same.answers]
    exact h.answers
  · rw [same.sent]
    exact h.bounded

theorem Sending.applyTxn (h : Sending before operations answers w) (suggestion : Nat)
    (among : ∀ operation ∈ sent, operation ∈ operations) (few : sent.length ≤ maxTxnOperations) :
    Sending before operations answers (w.applyTxn suggestion sent).1 := by
  have record := applyTxn_record w suggestion sent
  constructor
  · exact h.effected.applyTxn suggestion among
  · rw [record.1]
    exact h.answers
  · rw [record.2]
    exact forall_mem_append.mpr ⟨h.bounded, forall_mem_singleton.mpr few⟩

theorem Sending.txn (h : Sending before operations answers w)
    (among : ∀ operation ∈ sent, operation ∈ operations) (few : sent.length ≤ maxTxnOperations)
    (choice : Choice) : Sending before operations answers (handle w (.txn sent) choice).2 := by
  have written := h.writes choice.writes
  unfold handle
  unfold handleTxn
  cases choice.delivery with
  | lost e => exact written
  | unanswered | answered => exact written.applyTxn choice.index among few

theorem txnAnswer_committed {committed success : Bool} {errors : List TxnError}
    {malformed : Option Str} {result : TxnResult}
    (mapped : mapTxnResponse (txnAnswer committed success errors malformed) = .ok result)
    (counted : result.committed = true) : committed = true := by
  cases committed with
  | true => rfl
  | false =>
    unfold mapTxnResponse txnAnswer at mapped
    cases malformed with
    | some e => cases mapped
    | none =>
      cases mapped
      cases empty : errors.isEmpty <;> simp [empty] at counted

/-- An answer that counts as committed is that of a committed transaction. -/
theorem handleTxn_committed {choice : Choice} {response : RawTxnResponse} {result : TxnResult}
    (answered : (handleTxn w sent choice).1 = .ok response)
    (mapped : mapTxnResponse response = .ok result) (counted : result.committed = true) :
    ⟨sent, true⟩ ∈ (handleTxn w sent choice).2.sent := by
  unfold handleTxn at answered ⊢
  cases delivery : choice.delivery with
  | lost | unanswered =>
    rw [delivery] at answered
    cases answered
  | answered success errors malformed =>
    rw [delivery] at answered
    rw [← Except.ok.inj answered] at mapped
    have committed : (w.applyTxn choice.index sent).2 = true := txnAnswer_committed mapped counted
    have record := (applyTxn_record w choice.index sent).2
    rw [committed] at record
    simp only [record]
    exact mem_append_right _ (mem_singleton_self _)

/-- The record only grows. -/
theorem handle_extends (w : World) (op : Op) (choice : Choice) :
    w.answers <+: (handle w op choice).2.answers ∧ w.sent <+: (handle w op choice).2.sent := by
  have same := SameRecord.writes w choice.writes
  rw [← same.answers, ← same.sent]
  have here := And.intro (prefix_refl (choice.writes.foldl World.write w).answers)
    (prefix_refl (choice.writes.foldl World.write w).sent)
  unfold handle
  cases op with
  | writable | client | listRecursive => exact here
  | getKey key =>
    cases failing choice.failure choice.answer with
    | ok response => exact ⟨prefix_append _ _, here.2⟩
    | error e => exact here
  | txn sent =>
    unfold handleTxn
    have record := applyTxn_record (choice.writes.foldl World.write w) choice.index sent
    have after : (choice.writes.foldl World.write w).answers <+:
          ((choice.writes.foldl World.write w).applyTxn choice.index sent).1.answers ∧
        (choice.writes.foldl World.write w).sent <+:
          ((choice.writes.foldl World.write w).applyTxn choice.index sent).1.sent := by
      rw [record.1, record.2]
      exact ⟨here.1, prefix_append _ _⟩
    cases choice.delivery with
    | lost e => exact here
    | unanswered | answered => exact after

theorem validateOperations_length (valid : validateOperations sent = .ok ()) :
    sent.length ≤ maxTxnOperations := by
  unfold validateOperations at valid
  split at valid
  · cases valid
  · split at valid
    · cases valid
    · omega

theorem sendTxn_always (h : Sending before operations answers w)
    (among : ∀ operation ∈ sent, operation ∈ operations) :
    Always handle (Sending before operations answers)
      (fun result w' => ∀ r, result = .ok r → r.committed = true → ⟨sent, true⟩ ∈ w'.sent)
      (sendTxn sent) w := by
  unfold sendTxn
  cases valid : validateOperations sent with
  | error e => exact ⟨h, nofun⟩
  | ok done =>
    apply Always.await h
    intro choice
    have next := h.txn among (validateOperations_length valid) choice
    cases answered : (handle w (.txn sent) choice).1 with
    | error e => exact ⟨next, nofun⟩
    | ok response =>
      apply And.intro next
      intro r mapped counted
      exact handleTxn_committed answered mapped counted

/-! ## Items of transactions -/

/-- A committed transaction has the key of the item where the item says. -/
def Committed (w : World) (item : ResultItem) : Prop :=
  ∃ txn ∈ w.sent, txn.committed = true ∧
    ∃ opIndex, item.opIndex = some opIndex ∧
      (txn.operations[opIndex]?).map TxnOperation.key = some item.key

/-- What a report says of the keys of some operations. -/
structure ItemsOf (keys : List Str) (items : List ResultItem) (w : World) : Prop where
  keys : items.map ResultItem.key = keys
  succeeded : ∀ item ∈ items, item.outcome = .succeeded → Committed w item

theorem outcomeOf_succeeded {result : Except Str TxnResult} {opIndex : Nat}
    (succeeded : (outcomeOf result opIndex).1 = .succeeded) :
    ∃ r, result = .ok r ∧ r.committed = true := by
  unfold outcomeOf at succeeded
  split at succeeded
  · cases succeeded
  rename_i r
  split at succeeded
  · rename_i committed
    exact ⟨r, rfl, committed⟩
  · split at succeeded <;> cases succeeded

theorem batchItems_itemsOf {batch : Nat} {result : Except Str TxnResult}
    (recorded : ∀ r, result = .ok r → r.committed = true → ⟨sent, true⟩ ∈ w.sent) :
    ItemsOf (sent.map (·.key)) (batchItems batch (sent.map (·.key)) result) w := by
  constructor
  · unfold batchItems
    rw [List.map_map]
    exact zipIdx_map_fst 0 _
  · intro item member succeeded
    obtain ⟨⟨key, opIndex⟩, at_, rfl⟩ := mem_map.mp member
    obtain ⟨r, ok, committed⟩ := outcomeOf_succeeded succeeded
    apply Exists.intro ⟨sent, true⟩
    apply And.intro (recorded r ok committed)
    apply And.intro rfl
    apply Exists.intro opIndex
    apply And.intro rfl
    rw [← getElem?_map]
    exact mem_zipIdx_iff_getElem?.mp at_

theorem ItemsOf.append {first second : List Str} {items more : List ResultItem}
    (h : ItemsOf first items w) (h' : ItemsOf second more w) :
    ItemsOf (first ++ second) (items ++ more) w := by
  constructor
  · rw [map_append, h.keys, h'.keys]
  · exact forall_mem_append.mpr ⟨h.succeeded, h'.succeeded⟩

theorem sendBatches_always {batches : List (List TxnOperation)} (batch : Nat)
    (among : ∀ sent ∈ batches, ∀ operation ∈ sent, operation ∈ operations)
    (h : Sending before operations answers w) :
    Always handle (Sending before operations answers)
      (ItemsOf (batches.flatten.map (·.key))) (sendBatches batch batches) w := by
  induction batches generalizing batch w with
  | nil => exact ⟨h, rfl, nofun⟩
  | cons sent rest ih =>
    apply (sendTxn_always h (among sent mem_cons_self)).bind
    intro result w₁ sending recorded
    have later := ih (batch + 1)
      (forall_mem_cons.mp among).2 sending
    -- The record of this transaction is still there when the others have been sent.
    have both := later.and_kept
      (S := fun w => ∀ r, result = .ok r → r.committed = true → ⟨sent, true⟩ ∈ w.sent)
      (fun w op c kept r ok committed => (handle_extends w op c).2.subset (kept r ok committed)) recorded
    apply Always.bind (both.mono (fun w inv => inv.1) fun items w post => post)
    intro items w₂ sending₂ post
    apply Always.ret sending₂
    rw [flatten_cons, map_append]
    exact (batchItems_itemsOf post.2).append post.1

/-! ## Reading -/

/-- The invariant of the reading part: nothing was sent, and of the keys of a list the first
ones were read. -/
structure Reading (before : List Nat) (keys : List Str) (w : World) : Prop where
  renewed : Renewed before w
  effects : w.effects = []
  sent : w.sent = []
  answers : w.answers.map Prod.fst <+: keys

variable {keys : List Str} {K : World → Prop}

theorem Reading.start (kv : Kv) (keys : List Str) : Reading kv.used keys (World.start kv) :=
  ⟨Renewed.start kv, rfl, rfl, nil_prefix⟩

theorem Reading.writes (h : Reading before keys w) (writes : List Write) :
    Reading before keys (writes.foldl World.write w) := by
  have same := SameRecord.writes w writes
  exact ⟨h.renewed.writes writes, same.effects ▸ h.effects, same.sent ▸ h.sent,
    same.answers ▸ h.answers⟩

theorem Reading.unread (h : Reading before [] w) : w.answers = [] :=
  map_eq_nil_iff.mp (prefix_nil.mp h.answers)

theorem Reading.widen (h : Reading before [] w) (keys : List Str) : Reading before keys w := by
  apply Reading.mk h.renewed h.effects h.sent
  rw [h.unread]
  exact nil_prefix

/-- Where the reading part ends, the sending part begins. -/
theorem Reading.sending (h : Reading before keys w) (operations : List TxnOperation) :
    Sending before operations w.answers w where
  effected := by
    constructor
    · exact h.renewed
    · rw [h.effects]
      exact nofun
    · rw [h.effects]
      exact nofun
  answers := rfl
  bounded := by
    rw [h.sent]
    exact nofun

/-- Operations that neither read a single key nor send. -/
def Quiet : Op → Prop
  | .writable | .client | .listRecursive _ => True
  | .getKey _ | .txn _ => False

theorem await_always (weaker : ∀ w, Reading before keys w → K w) {op : Op} (quiet : Quiet op)
    (h : Reading before keys w) :
    Always handle K (fun _ w => Reading before keys w) (Prog.await op) w := by
  apply And.intro (weaker w h)
  intro choice
  have next : Reading before keys (handle w op choice).2 := by
    cases op with
    | writable | client | listRecursive => exact h.writes choice.writes
    | getKey | txn => cases quiet
  exact ⟨weaker _ next, next⟩

/-- One more key is read. -/
theorem Reading.getKey {entry : Str} {rest : List Str} (h : Reading before keys w)
    (next : w.answers.map Prod.fst ++ entry :: rest = keys) (choice : Choice)
    {target : KvGetResponse} (answered : (handle w (.getKey entry) choice).1 = .ok target) :
    Reading before keys (handle w (.getKey entry) choice).2 ∧
      (handle w (.getKey entry) choice).2.answers = w.answers ++ [(entry, target)] := by
  have written := h.writes choice.writes
  have same := (SameRecord.writes w choice.writes).answers
  unfold handle at answered ⊢
  simp only at answered ⊢
  rw [answered]
  have answers : (choice.writes.foldl World.write w).answers ++ [(entry, target)] =
      w.answers ++ [(entry, target)] := by rw [same]
  constructor
  · apply Reading.mk
    · exact ⟨written.renewed.kept, written.renewed.renewed⟩
    · exact written.effects
    · exact written.sent
    · change ((choice.writes.foldl World.write w).answers ++ [(entry, target)]).map Prod.fst <+: keys
      rw [answers, map_append, ← next]
      exact ⟨rest, by simp⟩
  · exact answers

theorem Reading.getKey_error (h : Reading before keys w) {entry : Str} {choice : Choice} {e : Str}
    (answered : (handle w (.getKey entry) choice).1 = .error e) :
    Reading before keys (handle w (.getKey entry) choice).2 := by
  unfold handle at answered ⊢
  simp only at answered ⊢
  rw [answered]
  exact h.writes choice.writes

/-! ## What a report says -/

/-- Every key once, and success only for what was committed. -/
structure Reported (keys : List Str) (w : World) (report : Report) : Prop where
  once : (report.items.map ResultItem.key).Nodup
  keys : ∀ key, key ∈ report.items.map ResultItem.key ↔ key ∈ keys
  succeeded : ∀ item ∈ report.items, item.outcome = .succeeded → Committed w item

def ReportedIfOk (keys : List Str) (result : Except Str Report) (w : World) : Prop :=
  ∀ report, result = .ok report → Reported keys w report

end Dbx.Guarantees.ConsulTransactions
