import Dbx.Source.SqlLimits

/-!
# The batches partition the items

`extend_spec` is the invariant of the inner loop, `batchesFrom_covers` that of the outer one.
-/
namespace Dbx.Guarantees.SqlBatches

open Dbx.Lib.Text Dbx.Source.SqlLimits

variable (itemCount maxItems : Nat) (render : Nat → Nat → Str)

/-- The range is rendered within the bounds, and with the next item it would not be. -/
structure Maximal (start stop : Nat) (sql : Str) : Prop where
  rendered : sql = render start stop
  bytes : len sql ≤ maxSqlStatementBytes
  items : stop - start ≤ maxItems
  full : stop = itemCount ∨ maxItems < stop + 1 - start ∨
    maxSqlStatementBytes < len (render start (stop + 1))

/-- The batches are the maximal ranges from a start to the last item, one after another. -/
def Covers : Nat → List SqlBatch → Prop
  | start, [] => start = itemCount
  | start, batch :: batches =>
    0 < batch.itemCount ∧ start + batch.itemCount ≤ itemCount ∧
      Maximal itemCount maxItems render start (start + batch.itemCount) batch.sql ∧
      Covers (start + batch.itemCount) batches

variable {itemCount maxItems render}

theorem extend_spec {start stop : Nat} {accepted : Str} (some : start < stop)
    (within : stop ≤ itemCount) (items : stop - start ≤ maxItems)
    (rendered : accepted = render start stop) (bytes : len accepted ≤ maxSqlStatementBytes) :
    (extend itemCount maxItems render start stop accepted).1 ≤ itemCount ∧
      Maximal itemCount maxItems render start
        (extend itemCount maxItems render start stop accepted).1
        (extend itemCount maxItems render start stop accepted).2 := by
  fun_induction extend itemCount maxItems render start stop accepted with
  | case1 stop accepted room candidate tooLong =>
    exact ⟨within, rendered, bytes, items, .inr (.inr tooLong)⟩
  | case2 stop accepted room candidate fits ih =>
    exact ih (by omega) (by omega) (by omega) rfl (by omega)
  | case3 stop accepted full =>
    exact ⟨within, rendered, bytes, items, by omega⟩

theorem batchesFrom_covers {itemLabel : Str} {start : Nat} (positive : 0 < maxItems)
    (nonBlank : ∀ start stop, start < stop → stop ≤ itemCount → trim (render start stop) ≠ [])
    (within : start ≤ itemCount) :
    match batchesFrom itemCount maxItems render itemLabel start with
    | .ok batches => Covers itemCount maxItems render start batches
    | .error _ => ∃ i < itemCount, maxSqlStatementBytes < len (render i (i + 1)) := by
  fun_induction batchesFrom itemCount maxItems render itemLabel start with
  | case1 start more first tooLong => exact ⟨start, more, tooLong⟩
  | case2 start more first fits batch ih =>
    have ahead : start + 1 ≤ batch.1 := le_extend itemCount maxItems render start (start + 1) first
    obtain ⟨inside, maximal⟩ : batch.1 ≤ itemCount ∧
        Maximal itemCount maxItems render start batch.1 batch.2 :=
      extend_spec (by omega) (by omega) (by omega) rfl (by omega)
    have shown : trim batch.2 ≠ [] := by
      rw [maximal.rendered]
      exact nonBlank start batch.1 ahead inside
    have later := ih inside
    rcases rest : batchesFrom itemCount maxItems render itemLabel batch.1 with error | batches
    · rw [rest] at later
      exact later
    · rw [rest] at later
      have upTo : start + (batch.1 - start) = batch.1 := by omega
      simp only [Except.map, List.isEmpty_iff, if_neg shown, Covers, upTo]
      exact ⟨by omega, inside, maximal, later⟩
  | case3 start done =>
    show start = itemCount
    omega

/-- The batches are maximal ranges that cover the items one after another, and the call fails
only if the text of a single item is too long. -/
theorem batches_partition (itemCount limit : Nat) (itemLabel : Str) (render : Nat → Nat → Str)
    (nonBlank : ∀ start stop, start < stop → stop ≤ itemCount → trim (render start stop) ≠ []) :
    (∀ batches, buildSqlBatches itemCount limit itemLabel render = .ok batches →
      Covers itemCount (max limit 1) render 0 batches) ∧
    ∀ error, buildSqlBatches itemCount limit itemLabel render = .error error →
      ∃ i < itemCount, maxSqlStatementBytes < len (render i (i + 1)) := by
  have covers := @batchesFrom_covers itemCount (max limit 1) render itemLabel 0 (by omega) nonBlank
    (Nat.zero_le _)
  constructor
  · intro batches ok
    rwa [← buildSqlBatches, ok] at covers
  · intro error failed
    rwa [← buildSqlBatches, failed] at covers

/-- Two of three items go into the first batch. -/
theorem batches_partition_two_and_one :
    Covers 3 2 (fun _ _ => ['x']) 0 [⟨['x'], 2⟩, ⟨['x'], 1⟩] := by
  refine (batches_partition 3 2 [] (fun _ _ => ['x']) fun _ _ _ _ => by decide).1 _ ?_
  have blank : trim ['x'] = ['x'] := by decide
  have bytes : len ['x'] = 1 := by decide
  simp [buildSqlBatches, batchesFrom, extend, blank, bytes, maxSqlStatementBytes, Except.map]

end Dbx.Guarantees.SqlBatches
