import Mathlib.Data.List.Sort
import Mathlib.Order.Defs.LinearOrder

/-! Looking a value up in a sorted list by its greatest lower bound.

A sort is known only to order a list by a key; which of two entries with one key
comes first is open. A lookup takes the last entry whose key is at most a value,
so it can find any of the entries with the greatest such key.
-/

set_option autoImplicit false

namespace Cpptrace.Library

variable {α K : Type} [LinearOrder K]

/-- What `std::sort` makes of a list: a permutation that is ordered by a key. -/
structure Sorting (key : α → K) (entries : List α) where
  sorted : List α
  perm : sorted.Perm entries
  ordered : sorted.Pairwise fun entry later => key entry ≤ key later

/-- The entry before `std::upper_bound` of a value. -/
def firstLessThanOrEqual (key : α → K) (value : K) (sorted : List α) : Option α :=
  (sorted.takeWhile fun entry => key entry ≤ value).getLast?

structure Greatest (key : α → K) (value : K) (entries : List α) (entry : α) : Prop where
  member : entry ∈ entries
  le : key entry ≤ value
  greatest : ∀ other ∈ entries, key other ≤ value → key other ≤ key entry

theorem takeWhile_eq_filter (key : α → K) (value : K) (sorted : List α)
    (ordered : sorted.Pairwise fun entry later => key entry ≤ key later) :
    (sorted.takeWhile fun entry => key entry ≤ value) = sorted.filter fun entry => key entry ≤ value := by
  induction sorted with
  | nil => rfl
  | cons entry rest ih =>
    obtain ⟨below, ordered⟩ := List.pairwise_cons.mp ordered
    by_cases le : key entry ≤ value
    · simp [le, ih ordered]
    · have above : ∀ other ∈ rest, ¬ key other ≤ value := fun other member le' =>
        le (le_trans (below other member) le')
      simpa [le] using fun other member => not_le.mp (above other member)

theorem getLast?_greatest (key : α → K) (entries : List α) (entry : α)
    (ordered : entries.Pairwise fun entry later => key entry ≤ key later)
    (last : entries.getLast? = some entry) : ∀ other ∈ entries, key other ≤ key entry := by
  obtain ⟨front, rfl⟩ := List.getLast?_eq_some_iff.mp last
  intro other member
  rcases List.mem_append.mp member with before | same
  · exact (List.pairwise_append.mp ordered).2.2 other before entry (List.mem_singleton_self _)
  · rw [List.mem_singleton.mp same]

/-- Insertion of an entry at `std::upper_bound` of it. -/
def insertUpper (key : α → K) (sorted : List α) (entry : α) : List α :=
  sorted.takeWhile (fun other => key other ≤ key entry) ++
    entry :: sorted.dropWhile (fun other => key other ≤ key entry)

theorem insertUpper_perm (key : α → K) (sorted : List α) (entry : α) :
    (insertUpper key sorted entry).Perm (sorted ++ [entry]) := by
  have whole := List.takeWhile_append_dropWhile (p := fun other => key other ≤ key entry) (l := sorted)
  refine List.perm_middle.trans ?_
  rw [whole]
  exact (List.perm_append_singleton entry sorted).symm

theorem insertUpper_cons (key : α → K) (other : α) (rest : List α) (entry : α) :
    insertUpper key (other :: rest) entry =
      if key other ≤ key entry then other :: insertUpper key rest entry else entry :: other :: rest := by
  unfold insertUpper
  split <;> rename_i le <;> simp [le]

theorem insertUpper_ordered (key : α → K) (sorted : List α) (entry : α)
    (ordered : sorted.Pairwise fun entry later => key entry ≤ key later) :
    (insertUpper key sorted entry).Pairwise fun entry later => key entry ≤ key later := by
  induction sorted with
  | nil => exact List.pairwise_singleton _ _
  | cons other rest ih =>
    have below := List.pairwise_cons.mp ordered
    rw [insertUpper_cons]
    split <;> rename_i le
    · refine List.pairwise_cons.mpr ⟨fun later member => ?_, ih below.2⟩
      rw [(insertUpper_perm key rest entry).mem_iff] at member
      rcases List.mem_append.mp member with within | same
      · exact below.1 later within
      · rw [List.mem_singleton.mp same]
        exact le
    · refine List.pairwise_cons.mpr ⟨fun later member => ?_, ordered⟩
      have above := le_of_not_ge le
      rcases List.mem_cons.mp member with rfl | within
      · exact above
      · exact le_trans above (below.1 later within)

theorem foldl_insertUpper_perm (key : α → K) (entries sorted : List α) :
    (entries.foldl (insertUpper key) sorted).Perm (sorted ++ entries) := by
  induction entries generalizing sorted with
  | nil => rw [List.foldl_nil, List.append_nil]
  | cons entry rest ih =>
    have inserted := (insertUpper_perm key sorted entry).append_right rest
    rw [List.append_assoc] at inserted
    exact (ih _).trans inserted

theorem foldl_insertUpper_ordered (key : α → K) (entries sorted : List α)
    (ordered : sorted.Pairwise fun entry later => key entry ≤ key later) :
    (entries.foldl (insertUpper key) sorted).Pairwise fun entry later => key entry ≤ key later := by
  induction entries generalizing sorted with
  | nil => exact ordered
  | cons entry rest ih => exact ih _ (insertUpper_ordered key sorted entry ordered)

namespace Sorting

def inserted (key : α → K) (entries : List α) : Sorting key entries where
  sorted := entries.insertionSort fun entry later => key entry ≤ key later
  perm := List.perm_insertionSort _ _
  ordered := by
    have : Std.Total fun entry later : α => key entry ≤ key later := ⟨fun _ _ => le_total _ _⟩
    have : IsTrans α fun entry later : α => key entry ≤ key later := ⟨fun _ _ _ => le_trans⟩
    exact List.pairwise_insertionSort _ entries

variable {key : α → K} {entries : List α}

theorem found_greatest (sorting : Sorting key entries) (value : K) (entry : α)
    (found : firstLessThanOrEqual key value sorting.sorted = some entry) : Greatest key value entries entry := by
  rw [firstLessThanOrEqual, takeWhile_eq_filter key value _ sorting.ordered] at found
  have member := List.mem_filter.mp (List.mem_of_getLast? found)
  refine ⟨sorting.perm.mem_iff.mp member.1, by simpa using member.2, fun other within le => ?_⟩
  refine getLast?_greatest key _ entry (sorting.ordered.filter _) found other ?_
  exact List.mem_filter.mpr ⟨sorting.perm.mem_iff.mpr within, by simpa using le⟩

theorem found_none_iff (sorting : Sorting key entries) (value : K) :
    firstLessThanOrEqual key value sorting.sorted = none ↔ ∀ entry ∈ entries, ¬ key entry ≤ value := by
  rw [firstLessThanOrEqual, takeWhile_eq_filter key value _ sorting.ordered, List.getLast?_eq_none_iff,
    List.filter_eq_nil_iff]
  simp [sorting.perm.mem_iff]

theorem exists_found (value : K) (entry : α) (isGreatest : Greatest key value entries entry) :
    ∃ sorting : Sorting key entries, firstLessThanOrEqual key value sorting.sorted = some entry := by
  obtain ⟨before, after, rfl⟩ := List.append_of_mem isGreatest.member
  let rest := (inserted key (before ++ after)).sorted
  have ordered := (inserted key (before ++ after)).ordered
  let low := rest.filter fun other => key other ≤ key entry
  let high := rest.filter fun other => !decide (key other ≤ key entry)
  -- the entry goes behind all keys up to its own and before the greater ones
  have permuted : (low ++ entry :: high).Perm (before ++ entry :: after) := by
    have split : (low ++ high).Perm rest := List.filter_append_perm _ rest
    have sorted := split.trans (inserted key (before ++ after)).perm
    exact List.perm_middle.trans ((sorted.cons entry).trans List.perm_middle.symm)
  have lows : ∀ other ∈ low, key other ≤ key entry := fun other member => by
    simpa using (List.mem_filter.mp member).2
  have highs : ∀ other ∈ high, key entry < key other := fun other member => by
    simpa using (List.mem_filter.mp member).2
  have pairwise : (low ++ entry :: high).Pairwise fun entry later => key entry ≤ key later := by
    refine List.pairwise_append.mpr ⟨ordered.filter _, List.pairwise_cons.mpr
      ⟨fun other member => le_of_lt (highs other member), ordered.filter _⟩, fun other member later within => ?_⟩
    rcases List.mem_cons.mp within with rfl | within
    · exact lows other member
    · exact le_of_lt (lt_of_le_of_lt (lows other member) (highs later within))
  refine ⟨⟨low ++ entry :: high, permuted, pairwise⟩, ?_⟩
  have beyond : ∀ other ∈ high, ¬ key other ≤ value := fun other member le =>
    absurd (isGreatest.greatest other (permuted.mem_iff.mp (by simp [member])) le)
      (not_le.mpr (highs other member))
  have within : ∀ other ∈ low, key other ≤ value := fun other member => le_trans (lows other member) isGreatest.le
  have highNone : high.filter (fun other => key other ≤ value) = [] := by
    simpa using fun other member => not_le.mp (beyond other member)
  have lowAll : low.filter (fun other => key other ≤ value) = low := by simpa using within
  rw [firstLessThanOrEqual, takeWhile_eq_filter key value _ pairwise, List.filter_append, List.filter_cons,
    if_pos (by simpa using isGreatest.le), highNone, lowAll, List.getLast?_concat]

end Sorting

end Cpptrace.Library
