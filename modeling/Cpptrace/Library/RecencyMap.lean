import Mathlib.Data.List.Nodup
import Mathlib.Data.PNat.Defs

/-! The map that forgets what was used least recently.

All keys ever used are kept in the order of their last use. What is cached is a
front part of them, so that the keys that are forgotten are those that were used
least recently.
-/

set_option autoImplicit false

namespace Cpptrace.Library

theorem take_erase_of_notMem {α : Type} [DecidableEq α] (value : α) (list : List α) (count : Nat)
    (absent : value ∉ list.take count) : (list.erase value).take count = list.take count := by
  induction list generalizing count with
  | nil => rfl
  | cons head rest ih =>
    cases count with
    | zero => rfl
    | succ count =>
      rw [List.take_succ_cons, List.mem_cons, not_or] at absent
      rw [List.erase_cons_tail (by simpa using Ne.symm absent.1), List.take_succ_cons, List.take_succ_cons,
        ih count absent.2]

theorem take_erase_of_mem {α : Type} [DecidableEq α] (value : α) (list : List α) (count : Nat)
    (member : value ∈ list.take (count + 1)) :
    (list.erase value).take count = (list.take (count + 1)).erase value := by
  induction list generalizing count with
  | nil => cases member
  | cons head rest ih =>
    by_cases same : head = value
    · subst same
      simp
    · have differs : (head == value) = false := by simpa using same
      rw [List.take_succ_cons] at member ⊢
      rw [List.erase_cons_tail (by simpa using same), List.erase_cons_tail (by simpa using same)]
      have later : value ∈ rest.take count := (List.mem_cons.mp member).resolve_left (Ne.symm same)
      cases count with
      | zero => cases later
      | succ count => rw [List.take_succ_cons, ih count later]

def clamp (bound : Option ℕ+) (count : Nat) : Nat :=
  match bound with
  | none => count
  | some limit => min count limit

theorem clamp_le (bound : Option ℕ+) (count : Nat) : clamp bound count ≤ count := by
  cases bound with
  | none => exact Nat.le_refl _
  | some limit => exact Nat.min_le_left _ _

theorem clamp_succ_pos (bound : Option ℕ+) (count : Nat) : 0 < clamp bound (count + 1) := by
  cases bound with
  | none => exact Nat.succ_pos _
  | some limit => exact Nat.lt_min.mpr ⟨Nat.succ_pos _, limit.pos⟩

theorem clamp_le_limit (limit : ℕ+) (count : Nat) : clamp (some limit) count ≤ limit :=
  Nat.min_le_right _ _

theorem clamp_lt_iff (limit : ℕ+) (count : Nat) : clamp (some limit) count < count ↔ limit < count := by
  simp only [clamp]
  omega

theorem clamp_of_lt (bound : Option ℕ+) (count : Nat) (exceeds : clamp bound (count + 1) < count + 1) :
    clamp bound count = clamp bound (count + 1) := by
  cases bound with
  | none => exact absurd exceeds (Nat.lt_irrefl _)
  | some limit =>
    simp only [clamp] at exceeds ⊢
    omega

/-- Keys by their last use, most recent first, and how many of them are cached. -/
structure RecencyMap (K V : Type) where
  used : List K
  stored : K → Option V
  held : Nat
  bound : Option ℕ+
  nodup : used.Nodup
  within : held ≤ used.length
  bounded : ∀ limit, bound = some limit → held ≤ limit

namespace RecencyMap

section Basics

variable {K V : Type}

def empty (bound : Option ℕ+) : RecencyMap K V :=
  ⟨[], fun _ => none, 0, bound, List.nodup_nil, Nat.le_refl _, fun _ _ => Nat.zero_le _⟩

def cached (map : RecencyMap K V) : List K := map.used.take map.held

theorem cached_length (map : RecencyMap K V) : map.cached.length = map.held := by
  rw [cached, List.length_take, Nat.min_eq_left map.within]

def setBound (map : RecencyMap K V) (bound : Option ℕ+) : RecencyMap K V :=
  { map with
    held := clamp bound map.held
    bound := bound
    within := Nat.le_trans (clamp_le _ _) map.within
    bounded := fun limit found => by rw [found]; exact clamp_le_limit limit _ }

theorem cached_setBound (map : RecencyMap K V) (bound : Option ℕ+) :
    (map.setBound bound).cached = map.cached.take (clamp bound map.held) := by
  rw [cached, cached, List.take_take, Nat.min_eq_left (clamp_le _ _)]
  rfl

end Basics

section Uses

variable {K V : Type} [DecidableEq K]

theorem nodup_use (map : RecencyMap K V) (key : K) : (key :: map.used.erase key).Nodup :=
  List.nodup_cons.mpr ⟨map.nodup.not_mem_erase, map.nodup.erase key⟩

theorem length_use (map : RecencyMap K V) (key : K) :
    map.used.length ≤ (key :: map.used.erase key).length := by
  have shorter : map.used.length - 1 ≤ (map.used.erase key).length := List.le_length_erase
  rw [List.length_cons]
  omega

def use (map : RecencyMap K V) (key : K) : RecencyMap K V :=
  { map with
    used := key :: map.used.erase key
    nodup := map.nodup_use key
    within := Nat.le_trans map.within (map.length_use key) }

def heldWith (map : RecencyMap K V) (key : K) : Nat :=
  if key ∈ map.cached then map.held else map.held + 1

theorem heldWith_le (map : RecencyMap K V) (key : K) : map.heldWith key ≤ (map.use key).used.length := by
  have within := map.within
  rw [heldWith]
  split
  · exact (map.use key).within
  next absent =>
    by_cases known : key ∈ map.used
    · have positive := List.length_pos_of_mem known
      have fewer : map.held ≠ map.used.length := fun all => by
        rw [cached, all, List.take_length] at absent
        exact absent known
      simp only [use, List.length_cons, List.length_erase_of_mem known]
      omega
    · simp only [use, List.length_cons, List.erase_of_not_mem known]
      omega

def store (map : RecencyMap K V) (key : K) (value : V) : RecencyMap K V where
  used := (map.use key).used
  stored := Function.update map.stored key (some value)
  held := clamp map.bound (map.heldWith key)
  bound := map.bound
  nodup := (map.use key).nodup
  within := Nat.le_trans (clamp_le _ _) (map.heldWith_le key)
  bounded limit found := by rw [found]; exact clamp_le_limit limit _

theorem cached_use (map : RecencyMap K V) (key : K) (member : key ∈ map.cached) :
    (map.use key).cached = key :: map.cached.erase key := by
  cases held : map.held with
  | zero => simp [cached, held] at member
  | succ held' =>
    simp only [cached, use, held, List.take_succ_cons] at member ⊢
    rw [take_erase_of_mem key map.used held' member]

theorem cached_store_mem (map : RecencyMap K V) (key : K) (value : V) (member : key ∈ map.cached) :
    (map.store key value).cached = key :: map.cached.erase key := by
  have room : clamp map.bound map.held = map.held := by
    cases limit : map.bound with
    | none => rfl
    | some limit' => exact Nat.min_eq_left (map.bounded limit' limit)
  have same : map.heldWith key = map.held := if_pos member
  rw [← map.cached_use key member]
  show (map.use key).used.take (clamp map.bound (map.heldWith key)) = (map.use key).cached
  rw [same, room]
  rfl

/-- A new key is put in front, and what is over the bound is forgotten. -/
theorem cached_store_notMem (map : RecencyMap K V) (key : K) (value : V) (absent : key ∉ map.cached) :
    (map.store key value).cached = (key :: map.cached).take (clamp map.bound (map.held + 1)) := by
  have front : (map.use key).used.take (map.held + 1) = key :: map.cached := by
    rw [use, List.take_succ_cons, take_erase_of_notMem key map.used map.held absent]
    rfl
  have least := clamp_le map.bound (map.held + 1)
  have one_more : map.heldWith key = map.held + 1 := if_neg absent
  rw [← front, List.take_take, Nat.min_eq_left least, ← one_more]
  rfl

end Uses

section Relating

variable {K V W : Type} {related : K → V → W → Prop} {map : RecencyMap K V} {other : RecencyMap K W} {key : K}

structure Related (related : K → V → W → Prop) (map : RecencyMap K V) (other : RecencyMap K W) : Prop where
  used : map.used = other.used
  held : map.held = other.held
  bound : map.bound = other.bound
  stored : ∀ key, Option.Rel (related key) (map.stored key) (other.stored key)

theorem related_empty (bound : Option ℕ+) : Related related (empty bound) (empty bound) :=
  ⟨rfl, rfl, rfl, fun _ => .none⟩

theorem Related.cached (alike : Related related map other) : map.cached = other.cached := by
  rw [RecencyMap.cached, RecencyMap.cached, alike.used, alike.held]

theorem Related.of_stored (alike : Related related map other) {value : V} (known : map.stored key = some value) :
    ∃ value', other.stored key = some value' ∧ related key value value' := by
  have counterpart := alike.stored key
  rw [known] at counterpart
  cases found : other.stored key with
  | none =>
    rw [found] at counterpart
    cases counterpart
  | some value' =>
    rw [found] at counterpart
    cases counterpart with
    | some holds => exact ⟨value', rfl, holds⟩

section Updates

variable [DecidableEq K]

theorem Related.use (alike : Related related map other) (key : K) : Related related (map.use key) (other.use key) := by
  refine ⟨?_, alike.held, alike.bound, alike.stored⟩
  simp only [RecencyMap.use, alike.used]

theorem Related.heldWith (alike : Related related map other) (key : K) : map.heldWith key = other.heldWith key := by
  rw [RecencyMap.heldWith, RecencyMap.heldWith, alike.cached, alike.held]

theorem Related.store (alike : Related related map other) {value : V} {value' : W} (holds : related key value value') :
    Related related (map.store key value) (other.store key value') := by
  refine ⟨?_, ?_, alike.bound, fun asked => ?_⟩
  · simp only [RecencyMap.store, RecencyMap.use, alike.used]
  · simp only [RecencyMap.store, alike.heldWith, alike.bound]
  · simp only [RecencyMap.store]
    by_cases same : asked = key
    · subst same
      rw [Function.update_self, Function.update_self]
      exact .some holds
    · rw [Function.update_of_ne same, Function.update_of_ne same]
      exact alike.stored asked

theorem Related.store_front (alike : Related related map other) {rest : List K} (front : map.cached = key :: rest)
    {value : V} {value' : W} (known : other.stored key = some value') (holds : related key value value') :
    Related related (map.store key value) other := by
  have member : key ∈ map.cached := front ▸ List.mem_cons_self
  -- what is at the front of the cache was used last
  have first : ∃ later, map.used = key :: later := by
    cases used : map.used with
    | nil => simp [RecencyMap.cached, used] at front
    | cons head later =>
      rw [RecencyMap.cached, used] at front
      cases held : map.held with
      | zero => simp [held] at front
      | succ held =>
        rw [held, List.take_succ_cons] at front
        exact ⟨later, by rw [(List.cons.inj front).1]⟩
  obtain ⟨later, used⟩ := first
  refine ⟨?_, ?_, alike.bound, fun asked => ?_⟩
  · rw [← alike.used]
    simp only [RecencyMap.store, RecencyMap.use, used, List.erase_cons_head]
  · rw [← alike.held]
    show clamp map.bound (map.heldWith key) = map.held
    rw [RecencyMap.heldWith, if_pos member]
    cases limit : map.bound with
    | none => rfl
    | some limit' => exact Nat.min_eq_left (map.bounded limit' limit)
  · simp only [RecencyMap.store]
    by_cases same : asked = key
    · subst same
      rw [Function.update_self, known]
      exact .some holds
    · rw [Function.update_of_ne same]
      exact alike.stored asked

end Updates

end Relating

end RecencyMap

end Cpptrace.Library
