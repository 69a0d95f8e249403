import Mathlib.Data.Finset.Card
import Dbx.Guarantees.SortAliases
import Dbx.Source.TableImport

/-!
# Names for the columns of an import

Every header gets a name of its own: the header, or the header with a number behind it. The
retry loop ends because the numbered names do not run out.
-/
namespace Dbx.Guarantees.ImportHeaders

open Dbx.Lib.Text Dbx.Source.TableImport List

/-- Lower-casing keeps an underscore and the digits behind it. -/
def KeepsNumbers (lower : Str → Str) : Prop :=
  ∀ header (k : Nat), ∃ front,
    lower (header ++ '_' :: (toString k).toList) = front ++ '_' :: (toString k).toList

variable {lower : Str → Str} {seen : List Str} {header : Str} {fuel suffix k : Nat}

/-- One of the next candidates is free. -/
theorem exists_free (keeps : KeepsNumbers lower) (seen : List Str) (header : Str) (suffix : Nat) :
    ∃ k, suffix ≤ k ∧ k < suffix + (seen.length + 2) ∧ lower (candidate header k) ∉ seen := by
  let name (n : Nat) : Str := lower (candidate header (suffix + n + 1))
  have inj : Function.Injective name := by
    intro n n' same
    obtain ⟨front, number⟩ := keeps header (suffix + n + 1)
    obtain ⟨front', number'⟩ := keeps header (suffix + n' + 1)
    have equal := SortAliases.numbered_inj (number.symm.trans (Eq.trans same number'))
    omega
  have more : seen.toFinset.card < ((Finset.range (seen.length + 1)).image name).card := by
    rw [Finset.card_image_of_injective _ inj, Finset.card_range]
    exact Nat.lt_succ_of_le seen.toFinset_card_le
  obtain ⟨_, member, free⟩ := Finset.exists_mem_notMem_of_card_lt_card more
  obtain ⟨n, small, rfl⟩ := Finset.mem_image.mp member
  rw [Finset.mem_range] at small
  exact ⟨suffix + n + 1, by omega, by omega, by simpa using free⟩

theorem freeName_some (least : suffix ≤ k) (reached : k < suffix + fuel)
    (free : lower (candidate header k) ∉ seen) :
    ∃ n, freeName lower seen header fuel suffix = some (candidate header n, n + 1) ∧
      lower (candidate header n) ∉ seen ∧
      (lower (candidate header suffix) ∉ seen → n = suffix) := by
  induction fuel generalizing suffix with
  | zero => omega
  | succ fuel ih =>
    simp only [freeName, contains_iff_mem]
    split
    · rename_i taken
      have other : suffix ≠ k := by
        rintro rfl
        exact free taken
      obtain ⟨n, found, new, -⟩ := ih (show suffix + 1 ≤ k by omega) (by omega)
      exact ⟨n, found, new, absurd taken⟩
    · rename_i new
      exact ⟨suffix, rfl, new, fun _ => rfl⟩

/-- The name is the header or a numbered one, and the header itself if that is free. -/
def Named (lower : Str → Str) (seen : List Str) (header name : Str) : Prop :=
  (name = header ∨ ∃ k, 1 ≤ k ∧ name = header ++ '_' :: (toString k).toList) ∧
    (lower header ∉ seen → name = header)

/-- A suffix was counted only for a header whose lower case is taken. -/
theorem uniqueFrom_spec (keeps : KeepsNumbers lower) (next : Str → Nat) (headers : List Str)
    (counted : ∀ key, 0 < next key → key ∈ seen) (enough : seen.length + headers.length < fuel) :
    ∃ names, uniqueFrom lower fuel seen next headers = some names ∧
      names.length = headers.length ∧ (names.map lower).Nodup ∧
      (∀ name ∈ names, lower name ∉ seen) ∧ ∀ i header name, headers[i]? = some header →
        names[i]? = some name → Named lower ((names.take i).map lower ++ seen) header name := by
  induction headers generalizing seen next with
  | nil => exact ⟨[], rfl, rfl, nodup_nil, by simp, by simp⟩
  | cons header headers ih =>
    rw [length_cons] at enough
    obtain ⟨k, least, reached, free⟩ := exists_free keeps seen header (next (lower header))
    obtain ⟨n, found, new, first⟩ := freeName_some least
      (show k < next (lower header) + fuel by omega) free
    -- A header whose lower case is free has suffix 0.
    have own : lower header ∉ seen → n = 0 := by
      intro free
      have none : next (lower header) = 0 := Nat.eq_zero_of_not_pos (mt (counted _) free)
      rw [none] at first
      exact first free
    have counted' : ∀ key, 0 < Function.update next (lower header) (n + 1) key →
        key ∈ lower (candidate header n) :: seen := by
      intro key positive
      by_cases same : key = lower header
      · by_cases taken : lower header ∈ seen
        · exact mem_cons_of_mem _ (same ▸ taken)
        · rw [own taken, same]
          exact mem_cons_self
      · rw [Function.update_of_ne same] at positive
        exact mem_cons_of_mem _ (counted key positive)
    obtain ⟨names, later, length, distinct, apart, each⟩ := ih _ counted' (by simp; omega)
    refine ⟨candidate header n :: names, by simp [uniqueFrom, found, later], by simp [length],
      ?_, ?_, ?_⟩
    · rw [map_cons, List.nodup_cons, List.mem_map]
      refine ⟨?_, distinct⟩
      rintro ⟨name, member, same⟩
      exact apart name member (same ▸ mem_cons_self)
    · rw [forall_mem_cons]
      exact ⟨new, fun name member => mt (mem_cons_of_mem _) (apart name member)⟩
    · intro i other name atHeader atName
      cases i with
      | zero =>
        cases atHeader
        cases atName
        refine ⟨?_, fun free => by rw [own (by simpa using free)]; rfl⟩
        cases n with
        | zero => exact .inl rfl
        | succ n => exact .inr ⟨n + 1, by omega, rfl⟩
      | succ i =>
        obtain ⟨shape, kept⟩ := each i other name atHeader atName
        refine ⟨shape, fun free => kept ?_⟩
        simpa [or_left_comm] using free

/-- The loop ends, no column is lost, and the names differ in more than case. -/
theorem import_headers_unique (lower : Str → Str) (keeps : KeepsNumbers lower)
    (headers : List Str) (fuel : Nat) (enough : headers.length < fuel) :
    ∃ names, uniqueImportHeaders lower fuel headers = some names ∧
      names.length = headers.length ∧ (names.map lower).Nodup ∧
      ∀ i header name, headers[i]? = some header → names[i]? = some name →
        Named lower ((names.take i).map lower) header name := by
  obtain ⟨names, found, length, distinct, -, each⟩ := uniqueFrom_spec keeps (fun _ => 0) headers
    (by simp) (show ([] : List Str).length + headers.length < fuel by simpa using enough)
  exact ⟨names, found, length, distinct, by simpa using each⟩

/-- A generated name that is also a header. -/
theorem import_headers_numbered :
    uniqueImportHeaders id 4 ["a".toList, "a_1".toList, "a".toList] =
        some ["a".toList, "a_1".toList, "a_2".toList] ∧
      ["a".toList, "a_1".toList, "a_2".toList].Nodup := by
  obtain ⟨names, found, -, distinct, -⟩ := import_headers_unique id (fun header k => ⟨header, rfl⟩)
    ["a".toList, "a_1".toList, "a".toList] 4 (by decide)
  have run : uniqueImportHeaders id 4 ["a".toList, "a_1".toList, "a".toList] =
      some ["a".toList, "a_1".toList, "a_2".toList] := by
    decide +kernel
  rw [run] at found
  cases found
  exact ⟨run, by simpa using distinct⟩

end Dbx.Guarantees.ImportHeaders
