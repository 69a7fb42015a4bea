import Cpptrace.Library.Lifetimes

/-! Memory on a heap: blocks that are allocated, read and freed.

A pointer is never given twice, so that what is read or freed after it was freed is
misuse. Assertions are about parts of a memory. A command that is right about the part
it needs leaves every other part as it is.
-/

set_option autoImplicit false

namespace Cpptrace.Library

variable {Block α β : Type}

abbrev Heap (Block : Type) := Nat → Option Block

namespace Heap

def empty : Heap Block := fun _ => none

def Disjoint (left right : Heap Block) : Prop := ∀ pointer, left pointer = none ∨ right pointer = none

def union (left right : Heap Block) : Heap Block := fun pointer => (left pointer).or (right pointer)

def single (pointer : Nat) (block : Block) : Heap Block := Function.update empty pointer (some block)

theorem Disjoint.symm {left right : Heap Block} (apart : Disjoint left right) : Disjoint right left :=
  fun pointer => (apart pointer).symm

theorem union_comm {left right : Heap Block} (apart : Disjoint left right) : union left right = union right left := by
  funext pointer
  rcases apart pointer with none | none <;> simp [union, none]

theorem union_assoc (first second third : Heap Block) :
    union (union first second) third = union first (union second third) := by
  funext pointer
  simp [union, Option.or_assoc]

theorem empty_union (heap : Heap Block) : union empty heap = heap := by
  funext pointer
  simp [union, empty]

theorem union_empty (heap : Heap Block) : union heap empty = heap := by
  funext pointer
  simp [union, empty]

theorem disjoint_empty (heap : Heap Block) : Disjoint heap empty := fun _ => .inr rfl

theorem disjoint_union {first second third : Heap Block} :
    Disjoint (union first second) third ↔ Disjoint first third ∧ Disjoint second third := by
  constructor
  · intro apart
    refine ⟨fun pointer => ?_, fun pointer => ?_⟩ <;>
      rcases apart pointer with none | none <;> simp_all [union]
  · rintro ⟨one, two⟩ pointer
    rcases one pointer with none | none
    · rcases two pointer with none' | none'
      · exact .inl (by simp [union, none, none'])
      · exact .inr none'
    · exact .inr none

end Heap

structure Memory (Block : Type) where
  heap : Heap Block
  next : Nat
  fresh : ∀ pointer, next ≤ pointer → heap pointer = none

namespace Memory

def empty : Memory Block := ⟨Heap.empty, 0, fun _ _ => rfl⟩

def store (memory : Memory Block) (block : Block) : Memory Block where
  heap := Function.update memory.heap memory.next (some block)
  next := memory.next + 1
  fresh pointer later := by
    rw [Function.update_of_ne (by omega)]
    exact memory.fresh pointer (by omega)

def overwrite (memory : Memory Block) (pointer : Nat) (block : Block) (lives : memory.heap pointer ≠ none) :
    Memory Block where
  heap := Function.update memory.heap pointer (some block)
  next := memory.next
  fresh other later := by
    have apart : other ≠ pointer := by
      rintro rfl
      exact lives (memory.fresh other later)
    rw [Function.update_of_ne apart]
    exact memory.fresh other later

def erase (memory : Memory Block) (pointer : Nat) : Memory Block where
  heap := Function.update memory.heap pointer none
  next := memory.next
  fresh other later := by
    by_cases same : other = pointer
    · rw [same, Function.update_self]
    · rw [Function.update_of_ne same]
      exact memory.fresh other later

abbrev Using (Block : Type) := Command Ending (Memory Block)

def allocate (block : Block) : Using Block Nat := fun memory => (.ok memory.next, memory.store block)

def read (pointer : Nat) : Using Block Block := fun memory =>
  match memory.heap pointer with
  | none => (.error (.misuse .usesDead), memory)
  | some block => (.ok block, memory)

def write (pointer : Nat) (block : Block) : Using Block Unit := fun memory =>
  match stored : memory.heap pointer with
  | none => (.error (.misuse .usesDead), memory)
  | some _ => (.ok (), memory.overwrite pointer block (by rw [stored]; nofun))

def free (pointer : Nat) : Using Block Unit := fun memory =>
  match memory.heap pointer with
  | none => (.error (.misuse .destroysDead), memory)
  | some _ => (.ok (), memory.erase pointer)

end Memory

abbrev Assertion (Block : Type) := Heap Block → Prop

namespace Assertion

def nothing : Assertion Block := fun heap => heap = Heap.empty

def block (pointer : Nat) (content : Block) : Assertion Block := fun heap => heap = Heap.single pointer content

/-- The two hold of parts that have no pointer in common. -/
def star (left right : Assertion Block) : Assertion Block := fun heap =>
  ∃ one two, Heap.Disjoint one two ∧ heap = Heap.union one two ∧ left one ∧ right two

def all : List (Assertion Block) → Assertion Block
  | [] => nothing
  | first :: rest => star first (all rest)

variable {P Q R : Assertion Block}

theorem star_comm (P Q : Assertion Block) : star P Q = star Q P := by
  have swapped : ∀ P Q : Assertion Block, ∀ heap, star P Q heap → star Q P heap := by
    rintro P Q _ ⟨one, two, apart, rfl, first, second⟩
    exact ⟨two, one, apart.symm, Heap.union_comm apart, second, first⟩
  funext heap
  exact propext ⟨swapped P Q heap, swapped Q P heap⟩

theorem star_assoc (P Q R : Assertion Block) : star (star P Q) R = star P (star Q R) := by
  funext heap
  refine propext ⟨?_, ?_⟩
  · rintro ⟨_, three, apart, rfl, ⟨one, two, apart', rfl, first, second⟩, third⟩
    obtain ⟨oneThree, twoThree⟩ := Heap.disjoint_union.mp apart
    exact ⟨one, Heap.union two three, (Heap.disjoint_union.mpr ⟨apart'.symm, oneThree.symm⟩).symm, Heap.union_assoc ..,
      first, two, three, twoThree, rfl, second, third⟩
  · rintro ⟨one, _, apart, rfl, first, two, three, apart', rfl, second, third⟩
    obtain ⟨twoOne, threeOne⟩ := Heap.disjoint_union.mp apart.symm
    exact ⟨Heap.union one two, three, Heap.disjoint_union.mpr ⟨threeOne.symm, apart'⟩, (Heap.union_assoc ..).symm,
      ⟨one, two, twoOne.symm, rfl, first, second⟩, third⟩

theorem nothing_star (P : Assertion Block) : star nothing P = P := by
  funext heap
  refine propext ⟨?_, fun holds => ?_⟩
  · rintro ⟨_, two, -, rfl, rfl, holds⟩
    rwa [Heap.empty_union]
  · exact ⟨Heap.empty, heap, (Heap.disjoint_empty heap).symm, (Heap.empty_union heap).symm, rfl, holds⟩

theorem star_nothing (P : Assertion Block) : star P nothing = P := by rw [star_comm, nothing_star]

theorem star_left_comm (P Q R : Assertion Block) : star P (star Q R) = star Q (star P R) := by
  rw [← star_assoc, star_comm P Q, star_assoc]

theorem star_mono {P' Q' : Assertion Block} (first : ∀ heap, P heap → P' heap) (second : ∀ heap, Q heap → Q' heap)
    (heap : Heap Block) (holds : star P Q heap) : star P' Q' heap := by
  obtain ⟨one, two, apart, rfl, left, right⟩ := holds
  exact ⟨one, two, apart, rfl, first one left, second two right⟩

theorem all_nothing {assertions : List (Assertion Block)}
    (each : ∀ assertion ∈ assertions, ∀ heap, assertion heap → nothing heap) (heap : Heap Block)
    (holds : all assertions heap) : nothing heap := by
  induction assertions generalizing heap with
  | nil => exact holds
  | cons assertion rest ih =>
    rw [← nothing_star nothing]
    exact star_mono (each assertion List.mem_cons_self)
      (ih fun other member => each other (List.mem_cons_of_mem _ member)) heap holds

theorem all_empty {assertions : List (Assertion Block)} (each : ∀ assertion ∈ assertions, assertion Heap.empty) :
    all assertions Heap.empty := by
  induction assertions with
  | nil => rfl
  | cons assertion rest ih =>
    exact ⟨Heap.empty, Heap.empty, Heap.disjoint_empty _, (Heap.empty_union _).symm, each assertion List.mem_cons_self,
      ih fun other member => each other (List.mem_cons_of_mem _ member)⟩

theorem all_perm {first second : List (Assertion Block)} (perm : first.Perm second) : all first = all second := by
  induction perm with
  | nil => rfl
  | cons assertion _ ih => rw [all, all, ih]
  | swap first second rest => rw [all, all, all, all, star_left_comm]
  | trans _ _ ih ih' => rw [ih, ih']

variable {Name : Type} [DecidableEq Name]

/-- What is said of the names but one. -/
def others (names : List Name) (name : Name) (about : Name → Assertion Block) : Assertion Block :=
  all ((names.erase name).map about)

theorem all_extract {names : List Name} {name : Name} (member : name ∈ names) (about : Name → Assertion Block) :
    all (names.map about) = star (about name) (others names name about) := by
  rw [all_perm ((List.perm_cons_erase member).map about)]
  rfl

/-- Changing what is said of one name leaves what is said of the others. -/
theorem all_update {names : List Name} {name : Name} (distinct : names.Nodup) (member : name ∈ names)
    (about : Name → Assertion Block) (next : Assertion Block) :
    all (names.map (Function.update about name next)) = star next (others names name about) := by
  rw [all_extract member, Function.update_self, others, others]
  congr 2
  refine List.map_congr_left fun other otherMember => Function.update_of_ne ?_ ..
  rintro rfl
  exact (distinct.not_mem_erase) otherMember

end Assertion

open Assertion in
/-- From a memory with a part of which `P` holds, the command gives a value, and `Q` holds of what became of the
part. The rest of the memory stays. -/
def Triple (P : Assertion Block) (command : Memory.Using Block α) (Q : α → Assertion Block) : Prop :=
  ∀ memory R, star P R memory.heap →
    ∃ value, (command memory).1 = .ok value ∧ star (Q value) R (command memory).2.heap

def Reads (P : Assertion Block) (command : Memory.Using Block α) (value : α) : Prop :=
  Triple P command fun found heap => found = value ∧ P heap

namespace Triple

open Assertion

variable {P P' R : Assertion Block} {command : Memory.Using Block α} {Q Q' : α → Assertion Block}

theorem pure (value : α) (P : Assertion Block) :
    Triple P (Pure.pure value) fun result heap => result = value ∧ P heap := by
  intro memory R holds
  exact ⟨value, rfl, star_mono (fun _ part => ⟨rfl, part⟩) (fun _ rest => rest) _ holds⟩

theorem bind {next : α → Memory.Using Block β} {S : β → Assertion Block} (first : Triple P command Q)
    (second : ∀ value, Triple (Q value) (next value) S) : Triple P (command >>= next) S := by
  intro memory R holds
  obtain ⟨value, returned, holds⟩ := first memory R holds
  rw [Command.bind_apply, returned]
  exact second value _ R holds

theorem weaken (valid : Triple P command Q) (implied : ∀ heap, P' heap → P heap)
    (implies : ∀ value heap, Q value heap → Q' value heap) : Triple P' command Q' := by
  intro memory R holds
  obtain ⟨value, returned, holds⟩ := valid memory R (star_mono implied (fun _ rest => rest) _ holds)
  exact ⟨value, returned, star_mono (implies value) (fun _ rest => rest) _ holds⟩

theorem frame (valid : Triple P command Q) (R : Assertion Block) :
    Triple (star P R) command fun value => star (Q value) R := by
  intro memory S holds
  rw [star_assoc] at holds
  obtain ⟨value, returned, holds⟩ := valid memory (star R S) holds
  refine ⟨value, returned, ?_⟩
  rw [star_assoc]
  exact holds

theorem ret {value : α} (implies : ∀ heap, P heap → Q value heap) : Triple P (Pure.pure value) Q :=
  (pure value P).weaken (fun _ holds => holds) fun _ heap ⟨same, holds⟩ => same ▸ implies heap holds

theorem of_implied {fact : Prop} (implied : ∀ heap, P heap → fact) (given : fact → Triple P command Q) :
    Triple P command Q := by
  rintro memory R ⟨one, two, apart, whole, part, rest⟩
  exact given (implied one part) memory R ⟨one, two, apart, whole, part, rest⟩

theorem of_absurd : Triple (fun _ => False) command Q := by
  rintro _ _ ⟨_, _, _, _, impossible, _⟩
  exact impossible.elim

theorem frame_left (valid : Triple P command Q) (R : Assertion Block) :
    Triple (star R P) command fun value => star R (Q value) := by
  simp only [star_comm R]
  exact valid.frame R

theorem of_exists {γ : Type} {P : γ → Assertion Block} (each : ∀ choice, Triple (P choice) command Q) :
    Triple (fun heap => ∃ choice, P choice heap) command Q := by
  rintro memory R ⟨one, two, apart, whole, ⟨choice, first⟩, second⟩
  exact each choice memory R ⟨one, two, apart, whole, first, second⟩

theorem of_fact {fact : Prop} (given : fact → Triple P command Q) : Triple (fun heap => fact ∧ P heap) command Q := by
  rintro memory R ⟨one, two, apart, whole, ⟨known, first⟩, second⟩
  exact given known memory R ⟨one, two, apart, whole, first, second⟩

theorem allocate (content : Block) :
    Triple nothing (Memory.allocate content) fun pointer => Assertion.block pointer content := by
  intro memory R holds
  rw [nothing_star] at holds
  have absent : memory.heap memory.next = none := memory.fresh _ le_rfl
  refine ⟨memory.next, rfl, Heap.single memory.next content, memory.heap, fun pointer => ?_, ?_, rfl, holds⟩
  · by_cases same : pointer = memory.next
    · exact .inr (same ▸ absent)
    · exact .inl (by rw [Heap.single, Function.update_of_ne same]; rfl)
  · funext pointer
    by_cases same : pointer = memory.next
    · simp [Memory.allocate, Memory.store, Heap.union, Heap.single, same]
    · simp [Memory.allocate, Memory.store, Heap.union, Heap.single, same, Heap.empty]

theorem read (pointer : Nat) (content : Block) :
    Reads (Assertion.block pointer content) (Memory.read pointer) content := by
  rintro memory R ⟨_, two, apart, whole, rfl, rest⟩
  have there : memory.heap pointer = some content := by rw [whole]; simp [Heap.union, Heap.single]
  refine ⟨content, by simp [Memory.read, there], Heap.single pointer content, two, apart, ?_, ⟨rfl, rfl⟩, rest⟩
  simp [Memory.read, there, whole]

theorem write (pointer : Nat) (content next : Block) :
    Triple (Assertion.block pointer content) (Memory.write pointer next) fun _ => Assertion.block pointer next := by
  rintro memory R ⟨_, two, apart, whole, rfl, rest⟩
  have there : memory.heap pointer = some content := by rw [whole]; simp [Heap.union, Heap.single]
  have ran : Memory.write pointer next memory =
      (.ok (), memory.overwrite pointer next (by rw [there]; exact Option.some_ne_none content)) := by
    unfold Memory.write
    split
    next absent => exact absurd (there.symm.trans absent) (Option.some_ne_none content)
    next => rfl
  refine ⟨(), by rw [ran], Heap.single pointer next, two, fun other => ?_, ?_, rfl, rest⟩
  · by_cases same : other = pointer
    · exact .inr (same ▸ (apart pointer).resolve_left (by simp [Heap.single]))
    · exact .inl (by simp [Heap.single, same, Heap.empty])
  · rw [ran]
    funext other
    by_cases same : other = pointer
    · simp [Memory.overwrite, same, Heap.union, Heap.single]
    · simp [Memory.overwrite, same, whole, Heap.union, Heap.single, Heap.empty]

theorem free (pointer : Nat) (content : Block) :
    Triple (Assertion.block pointer content) (Memory.free pointer) fun _ => nothing := by
  rintro memory R ⟨_, two, apart, whole, rfl, rest⟩
  have there : memory.heap pointer = some content := by rw [whole]; simp [Heap.union, Heap.single]
  have gone : two pointer = none := (apart pointer).resolve_left (by simp [Heap.single])
  refine ⟨(), by simp [Memory.free, there], ?_⟩
  rw [nothing_star]
  have left : (Memory.free pointer memory).2.heap = two := by
    funext other
    by_cases same : other = pointer
    · simp [Memory.free, there, Memory.erase, same, gone]
    · simp [Memory.free, there, Memory.erase, same, whole, Heap.union, Heap.single, Heap.empty]
  rw [left]
  exact rest

end Triple

namespace Reads

open Assertion

variable {P : Assertion Block} {command : Memory.Using Block α} {value : α}

theorem ret (P : Assertion Block) (value : α) : Reads P (pure value : Memory.Using Block α) value :=
  Triple.ret fun _ part => ⟨rfl, part⟩

theorem frame (reads : Reads P command value) (R : Assertion Block) : Reads (star P R) command value :=
  (Triple.frame reads R).weaken (fun _ part => part) fun _ _ ⟨one, two, apart, whole, ⟨same, part⟩, rest⟩ =>
    ⟨same, one, two, apart, whole, part, rest⟩

theorem frame_left (reads : Reads P command value) (R : Assertion Block) : Reads (star R P) command value := by
  rw [star_comm]
  exact reads.frame R

theorem next {next : α → Memory.Using Block β} {Q : β → Assertion Block} (reads : Reads P command value)
    (second : Triple P (next value) Q) : Triple P (command >>= next) Q :=
  reads.bind fun _ => Triple.of_fact fun same => same ▸ second

end Reads

end Cpptrace.Library
