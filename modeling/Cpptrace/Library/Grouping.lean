import Mathlib.Data.List.AList

/-! Grouping the cells of a list by a key, and updating a group in turn.

Positions of a list of inputs are grouped by a key of the input, in input order
within a group; a grouping lists the groups in any order. An update runs over
the cells of one group and stops at its first failure, keeping what was written
up to there.
-/

set_option autoImplicit false

namespace Cpptrace.Library

section Grouping

variable {Key Input : Type} [DecidableEq Key]

/-- The cells of each key, in the order they were added. -/
abbrev Groups (Key Input : Type) := AList fun _ : Key => List (Input × Nat)

def addEntry (keyOf : Input → Key) (groups : Groups Key Input) (entry : Input × Nat) : Groups Key Input :=
  groups.insert (keyOf entry.1) ((groups.lookup (keyOf entry.1)).getD [] ++ [entry])

def groupBy (keyOf : Input → Key) (inputs : List Input) : Groups Key Input :=
  inputs.zipIdx.foldl (addEntry keyOf) ∅

structure Grouping (keyOf : Input → Key) (inputs : List Input) where
  groups : List (Sigma fun _ : Key => List (Input × Nat))
  perm : groups.Perm (groupBy keyOf inputs).entries

def entriesOf (keyOf : Input → Key) (inputs : List Input) (key : Key) : List (Input × Nat) :=
  inputs.zipIdx.filter fun entry => keyOf entry.1 = key

theorem mem_entriesOf (keyOf : Input → Key) (inputs : List Input) (key : Key) (input : Input) (position : Nat) :
    (input, position) ∈ entriesOf keyOf inputs key ↔ inputs[position]? = some input ∧ keyOf input = key := by
  simp [entriesOf, List.mk_mem_zipIdx_iff_getElem?]

theorem entriesOf_sorted (keyOf : Input → Key) (inputs : List Input) (key : Key) :
    (entriesOf keyOf inputs key).Pairwise fun entry later => entry.2 < later.2 := by
  have positions : (inputs.zipIdx.map Prod.snd).Pairwise (· < ·) := by
    rw [List.zipIdx_map_snd]
    exact List.pairwise_lt_range'
  exact (List.pairwise_map.mp positions).filter _

theorem lookup_foldl_addEntry (keyOf : Input → Key) (key : Key) (entries : List (Input × Nat))
    (groups : Groups Key Input) :
    ((entries.foldl (addEntry keyOf) groups).lookup key).getD [] =
      (groups.lookup key).getD [] ++ entries.filter fun entry => keyOf entry.1 = key := by
  induction entries generalizing groups with
  | nil => simp
  | cons entry entries ih =>
    rw [List.foldl_cons, ih]
    by_cases same : keyOf entry.1 = key
    · subst same
      simp [addEntry, AList.lookup_insert]
    · have differ : key ≠ keyOf entry.1 := fun eq => same eq.symm
      simp [addEntry, AList.lookup_insert_ne differ, same]

theorem mem_foldl_addEntry (keyOf : Input → Key) (key : Key) (entries : List (Input × Nat))
    (groups : Groups Key Input) :
    key ∈ entries.foldl (addEntry keyOf) groups ↔ key ∈ groups ∨ ∃ entry ∈ entries, keyOf entry.1 = key := by
  induction entries generalizing groups with
  | nil => simp
  | cons entry entries ih =>
    rw [List.foldl_cons, ih, addEntry, AList.mem_insert]
    simp only [List.mem_cons, exists_eq_or_imp, eq_comm (a := key)]
    tauto

namespace Grouping

variable {keyOf : Input → Key} {inputs : List Input}

theorem entries_eq (grouping : Grouping keyOf inputs) {key : Key} {entries : List (Input × Nat)}
    (member : ⟨key, entries⟩ ∈ grouping.groups) : entries = entriesOf keyOf inputs key := by
  have found := AList.mem_lookup_iff.mpr (grouping.perm.mem_iff.mp member)
  have looked := lookup_foldl_addEntry keyOf key inputs.zipIdx ∅
  rw [← groupBy, Option.mem_def.mp found] at looked
  simpa [entriesOf] using looked

theorem exists_group (grouping : Grouping keyOf inputs) {input : Input} (member : input ∈ inputs) :
    ⟨keyOf input, entriesOf keyOf inputs (keyOf input)⟩ ∈ grouping.groups := by
  obtain ⟨position, bound, rfl⟩ := List.mem_iff_getElem.mp member
  have keyed : keyOf inputs[position] ∈ groupBy keyOf inputs :=
    (mem_foldl_addEntry ..).mpr (.inr ⟨(inputs[position], position), by
      simp [List.mk_mem_zipIdx_iff_getElem?], rfl⟩)
  obtain ⟨entries, found⟩ := Option.isSome_iff_exists.mp (AList.lookup_isSome.mpr keyed)
  have listed := grouping.perm.mem_iff.mpr (AList.mem_lookup_iff.mp found)
  exact grouping.entries_eq listed ▸ listed

theorem keys_distinct (grouping : Grouping keyOf inputs) :
    grouping.groups.Pairwise fun group later => group.1 ≠ later.1 :=
  List.nodupKeys_iff_pairwise.mp
    ((List.perm_nodupKeys grouping.perm).mpr (groupBy keyOf inputs).nodupKeys)

theorem key_of_mem (grouping : Grouping keyOf inputs) {group : Sigma fun _ : Key => List (Input × Nat)}
    (member : group ∈ grouping.groups) : ∃ input ∈ inputs, keyOf input = group.1 := by
  have keyed : group.1 ∈ groupBy keyOf inputs :=
    AList.mem_keys.mpr (List.mem_map_of_mem (grouping.perm.mem_iff.mp member))
  rcases (mem_foldl_addEntry ..).mp keyed with absent | ⟨entry, listed, same⟩
  · exact absurd absent (AList.notMem_empty _)
  · exact ⟨entry.1, (List.mem_zipIdx' listed).2 ▸ List.getElem_mem _, same⟩

theorem groups_of_nil {keyOf : Input → Key} (grouping : Grouping keyOf []) : grouping.groups = [] :=
  List.perm_nil.mp grouping.perm

theorem groups_of_same_key (grouping : Grouping keyOf inputs) {key : Key}
    (same : ∀ input ∈ inputs, keyOf input = key) (nonempty : inputs ≠ []) :
    grouping.groups = [⟨key, inputs.zipIdx⟩] := by
  have alike : ∀ group ∈ grouping.groups, group = ⟨key, inputs.zipIdx⟩ := fun group member => by
    obtain ⟨input, listed, keyed⟩ := grouping.key_of_mem member
    obtain ⟨other, entries⟩ := group
    obtain rfl : key = other := (same input listed).symm.trans keyed
    have all : entriesOf keyOf inputs key = inputs.zipIdx := List.filter_eq_self.mpr fun entry within =>
      decide_eq_true (same _ ((List.mem_zipIdx' within).2 ▸ List.getElem_mem _))
    rw [grouping.entries_eq member, all]
  obtain ⟨input, listed⟩ := List.exists_mem_of_ne_nil inputs nonempty
  have member := grouping.exists_group listed
  have distinct := grouping.keys_distinct
  match groups : grouping.groups with
  | [] => simp [groups] at member
  | [group] => rw [alike group (groups ▸ List.mem_cons_self)]
  | group :: other :: rest =>
    rw [groups] at distinct alike
    have first := alike group List.mem_cons_self
    have second := alike other (List.mem_cons_of_mem _ List.mem_cons_self)
    refine absurd ?_ ((List.pairwise_cons.mp distinct).1 other List.mem_cons_self)
    rw [first, second]

end Grouping

end Grouping

section Updates

variable {Input State Failure : Type}

def updateAll (update : Nat → Input → State → State × Option Failure) :
    List (Input × Nat) → List State → List State × Option Failure
  | [], states => (states, none)
  | (input, position) :: rest, states =>
      match states[position]? with
      | none => updateAll update rest states
      | some state =>
          match update position input state with
          | (next, none) => updateAll update rest (states.set position next)
          | (next, some failure) => (states.set position next, some failure)

def Reaches (update : Nat → Input → State → State × Option Failure) (initial : State)
    (entries : List (Input × Nat)) (position : Nat) : Prop :=
  ∀ entry ∈ entries, entry.2 < position → (update entry.2 entry.1 initial).2 = none

variable (update : Nat → Input → State → State × Option Failure)

theorem updateAll_other (entries : List (Input × Nat)) (states : List State) (position : Nat)
    (absent : ∀ entry ∈ entries, entry.2 ≠ position) :
    (updateAll update entries states).1[position]? = states[position]? := by
  induction entries generalizing states with
  | nil => rfl
  | cons entry rest ih =>
    obtain ⟨input, cell⟩ := entry
    have differ : cell ≠ position := absent _ List.mem_cons_self
    have later := fun states => ih states fun entry member => absent entry (List.mem_cons_of_mem _ member)
    simp only [updateAll]
    split
    · exact later states
    · split
      · rw [later, List.getElem?_set_ne differ]
      · exact List.getElem?_set_ne differ

theorem updateAll_cons_none (input : Input) (cell : Nat) (rest : List (Input × Nat)) (states : List State)
    (state : State) (found : states[cell]? = some state) (succeeds : (update cell input state).2 = none) :
    updateAll update ((input, cell) :: rest) states =
      updateAll update rest (states.set cell (update cell input state).1) := by
  simp only [updateAll, found]
  generalize update cell input state = result at succeeds
  obtain ⟨next, failure⟩ := result
  subst succeeds
  rfl

theorem updateAll_cons_some (input : Input) (cell : Nat) (rest : List (Input × Nat)) (states : List State)
    (state : State) (found : states[cell]? = some state) (fails : (update cell input state).2 ≠ none) :
    (updateAll update ((input, cell) :: rest) states).1 = states.set cell (update cell input state).1 := by
  simp only [updateAll, found]
  generalize update cell input state = result at fails
  obtain ⟨next, failure⟩ := result
  cases failure with
  | none => exact absurd rfl fails
  | some failure => rfl

/-- A cell of the group is updated once, when the cells before it did not fail. -/
theorem updateAll_entry (initial : State) (entries : List (Input × Nat)) (states : List State)
    (sorted : entries.Pairwise fun entry later => entry.2 < later.2)
    (fresh : ∀ entry ∈ entries, states[entry.2]? = some initial)
    (input : Input) (position : Nat) (member : (input, position) ∈ entries) :
    (Reaches update initial entries position →
      (updateAll update entries states).1[position]? = some (update position input initial).1) ∧
    (¬ Reaches update initial entries position →
      (updateAll update entries states).1[position]? = some initial) := by
  induction entries generalizing states with
  | nil => cases member
  | cons entry rest ih =>
    obtain ⟨head, cell⟩ := entry
    have beyond := (List.pairwise_cons.mp sorted).1
    have found : states[cell]? = some initial := fresh _ List.mem_cons_self
    have bound : cell < states.length := (List.getElem?_eq_some_iff.mp found).1
    have untouched : ∀ value, ∀ entry ∈ rest, (states.set cell value)[entry.2]? = some initial :=
      fun value entry within => by
        rw [List.getElem?_set_ne (Nat.ne_of_lt (beyond entry within))]
        exact fresh entry (List.mem_cons_of_mem _ within)
    rcases List.mem_cons.mp member with same | within
    · obtain ⟨rfl, rfl⟩ := Prod.mk.inj same
      have reached : Reaches update initial ((input, position) :: rest) position := fun entry among before => by
        rcases List.mem_cons.mp among with rfl | among
        · exact absurd before (Nat.lt_irrefl _)
        · exact absurd before (Nat.lt_asymm (beyond entry among))
      -- the cells after this one do not touch it, whether or not it fails
      refine ⟨fun _ => ?_, fun unreached => absurd reached unreached⟩
      by_cases succeeds : (update position input initial).2 = none
      · rw [updateAll_cons_none update _ _ _ _ _ found succeeds,
          updateAll_other update _ _ _ fun entry among => Nat.ne_of_gt (beyond entry among),
          List.getElem?_set_self bound]
      · rw [updateAll_cons_some update _ _ _ _ _ found succeeds, List.getElem?_set_self bound]
    -- a failure before the cell leaves it as it was
    · have before : cell < position := beyond _ within
      by_cases succeeds : (update cell head initial).2 = none
      · have same : Reaches update initial ((head, cell) :: rest) position ↔ Reaches update initial rest position := by
          simp only [Reaches, List.forall_mem_cons]
          exact and_iff_right fun _ => succeeds
        rw [updateAll_cons_none update _ _ _ _ _ found succeeds, same]
        exact ih _ (List.pairwise_cons.mp sorted).2 (untouched _) within
      · have unreached : ¬ Reaches update initial ((head, cell) :: rest) position :=
          fun reached => succeeds (reached _ List.mem_cons_self before)
        refine ⟨fun reached => absurd reached unreached, fun _ => ?_⟩
        rw [updateAll_cons_some update _ _ _ _ _ found succeeds]
        exact untouched _ _ within

end Updates

end Cpptrace.Library
