import Cpptrace.Basic
import Cpptrace.Library.Command
import Cpptrace.Library.Machine
import Cpptrace.Library.RecencyMap
import Mathlib.Data.List.AList

/-! `lru_cache`: a list of entries and a hash map of iterators into it.

A list node has an address, which stays its own when the list is spliced; an
iterator is such an address, or the end of the list. To follow an iterator that
points at no node is undefined.
-/

set_option autoImplicit false

namespace Cpptrace.Utils

open Library

inductive ListIterator where
  | node (address : Nat)
  | pastEnd
  deriving DecidableEq, Repr

structure Kvp (K V : Type) where
  address : Nat
  key : K
  value : V
  deriving DecidableEq, Repr

/-- `nextAddress` is where the next list node will be. -/
structure LruCache (K V : Type) where
  lru : List (Kvp K V)
  map : AList fun _ : K => ListIterator
  maxSize : Option Nat
  nextAddress : Nat

inductive CacheFailure where
  | exception (thrown : Exception)
  | undefined
  deriving DecidableEq, Repr

namespace LruCache

variable {K V : Type} [DecidableEq K]

def emptyBound : CacheFailure :=
  .exception (.internalError .verify "!size || size.unwrap() > 0" none)

def verifyBound (size : Option Nat) : Except CacheFailure Unit :=
  if size = some 0 then throw emptyBound else pure ()

def follow (iterator : ListIterator) (cache : LruCache K V) : Except CacheFailure (Kvp K V) :=
  match iterator with
  | .pastEnd => throw .undefined
  | .node address =>
      match cache.lru.find? (·.address = address) with
      | none => throw .undefined
      | some node => pure node

/-- `lru.splice(lru.begin(), lru, list_it)`. -/
def splice (node : Kvp K V) (cache : LruCache K V) : LruCache K V :=
  { cache with lru := node :: cache.lru.filter (·.address ≠ node.address) }

def writeValue (address : Nat) (value : V) (cache : LruCache K V) : LruCache K V :=
  { cache with lru := cache.lru.map fun node => if node.address = address then { node with value } else node }

/-- `lru.begin()`. -/
def begin (cache : LruCache K V) : ListIterator :=
  match cache.lru.head? with
  | none => .pastEnd
  | some node => .node node.address

def overBound (cache : LruCache K V) : Bool :=
  match cache.maxSize with
  | none => false
  | some limit => limit < cache.lru.length

/-- The loop of `maybe_trim`, with the number of nodes as its bound. -/
def trimLoop : Nat → LruCache K V → LruCache K V
  | 0, cache => cache
  | rounds + 1, cache =>
      match cache.lru.getLast? with
      | none => cache
      | some toRemove =>
          if cache.overBound then
            trimLoop rounds { cache with map := cache.map.erase toRemove.key, lru := cache.lru.dropLast }
          else cache

def maybeTrim (cache : LruCache K V) : LruCache K V := trimLoop cache.lru.length cache

end LruCache

abbrev Cache (K V : Type) := Command CacheFailure (LruCache K V)

namespace LruCache

variable {K V : Type} [DecidableEq K]

def touch (iterator : ListIterator) : Cache K V Unit := do
  let node ← MonadExcept.ofExcept (follow iterator (← get))
  modify (splice node)

def setMaxSize (size : Option Nat) : Cache K V Unit := do
  MonadExcept.ofExcept (verifyBound size)
  modify fun cache => { cache with maxSize := size }
  modify maybeTrim

def maybeTouch (key : K) : Cache K V Unit := do
  match (← get).map.lookup key with
  | none => return ()
  | some iterator => touch iterator

/-- Both overloads of `maybe_get`: the list is mutable in a constant cache too. -/
def maybeGet (key : K) : Cache K V (Option V) := do
  match (← get).map.lookup key with
  | none => return none
  | some iterator =>
    touch iterator
    let node ← MonadExcept.ofExcept (follow iterator (← get))
    return some node.value

/-- The value is that at the front of the list, whatever was pushed out. -/
def insert (key : K) (value : V) : Cache K V (Option V) := do
  if key ∈ (← get).map then return none
  modify fun cache => { cache with map := cache.map.insert key .pastEnd }
  modify fun cache => { cache with
    lru := ⟨cache.nextAddress, key, value⟩ :: cache.lru
    nextAddress := cache.nextAddress + 1 }
  modify fun cache => { cache with map := cache.map.insert key cache.begin }
  modify maybeTrim
  match (← get).lru.head? with
  | none => throw .undefined
  | some front => return some front.value

def set (key : K) (value : V) : Cache K V Unit := do
  match (← get).map.lookup key with
  | none => discard <| insert key value
  | some iterator =>
    touch iterator
    let node ← MonadExcept.ofExcept (follow iterator (← get))
    modify (writeValue node.address value)

def size (cache : LruCache K V) : Nat := cache.lru.length

/-- A cache with a bound; the default constructor gives one without. -/
def create (maxSize : Option Nat) : Except CacheFailure (LruCache K V) := do
  verifyBound maxSize
  return ⟨[], ∅, maxSize, 0⟩

/-- The map and the list hold the same keys, each once, and an entry of the map points
at the node of its key. -/
structure Coherent (cache : LruCache K V) : Prop where
  keys : (cache.lru.map Kvp.key).Nodup
  addresses : (cache.lru.map Kvp.address).Nodup
  fresh : ∀ node ∈ cache.lru, node.address < cache.nextAddress
  points : ∀ key iterator, cache.map.lookup key = some iterator ↔
    ∃ node ∈ cache.lru, node.key = key ∧ iterator = .node node.address

section Coherence

variable {cache : LruCache K V} {node : Kvp K V}

theorem Coherent.perm (coherent : Coherent cache) {lru : List (Kvp K V)} (perm : lru.Perm cache.lru) :
    Coherent { cache with lru := lru } where
  keys := (perm.map Kvp.key).nodup_iff.mpr coherent.keys
  addresses := (perm.map Kvp.address).nodup_iff.mpr coherent.addresses
  fresh other member := coherent.fresh other (perm.mem_iff.mp member)
  points key iterator := by
    rw [coherent.points]
    simp only [perm.mem_iff]

theorem Coherent.split (coherent : Coherent cache) (member : node ∈ cache.lru) :
    ∃ before after, cache.lru = before ++ node :: after ∧
      ∀ other ∈ before ++ after, other.address ≠ node.address ∧ other.key ≠ node.key := by
  obtain ⟨before, after, split⟩ := List.append_of_mem member
  refine ⟨before, after, split, fun other within => ?_⟩
  have keys := coherent.keys
  have addresses := coherent.addresses
  rw [split, List.map_append, List.map_cons, List.nodup_middle, List.nodup_cons, ← List.map_append] at keys addresses
  exact ⟨fun same => addresses.1 (List.mem_map.mpr ⟨other, within, same⟩),
    fun same => keys.1 (List.mem_map.mpr ⟨other, within, same⟩)⟩

theorem Coherent.lookup (coherent : Coherent cache) (member : node ∈ cache.lru) :
    cache.map.lookup node.key = some (.node node.address) :=
  (coherent.points ..).mpr ⟨node, member, rfl, rfl⟩

theorem Coherent.lookup_none_iff (coherent : Coherent cache) (key : K) :
    cache.map.lookup key = none ↔ key ∉ cache.lru.map Kvp.key := by
  rw [Option.eq_none_iff_forall_not_mem]
  constructor
  · intro missing within
    obtain ⟨node, member, rfl⟩ := List.mem_map.mp within
    exact missing _ (coherent.lookup member)
  · intro absent iterator found
    obtain ⟨node, member, rfl, -⟩ := (coherent.points ..).mp found
    exact absent (List.mem_map_of_mem member)

theorem Coherent.follow (coherent : Coherent cache) (member : node ∈ cache.lru) :
    follow (.node node.address) cache = .ok node := by
  obtain ⟨before, after, split, others⟩ := coherent.split member
  have passed : before.find? (·.address = node.address) = none :=
    List.find?_eq_none.mpr fun other within => by
      simpa using (others other (List.mem_append_left _ within)).1
  simp only [LruCache.follow, split, List.find?_append, passed, Option.none_or, List.find?_cons_of_pos,
    decide_true]
  rfl

omit [DecidableEq K] in
theorem splice_lru {before after : List (Kvp K V)} (split : cache.lru = before ++ node :: after)
    (others : ∀ other ∈ before ++ after, other.address ≠ node.address ∧ other.key ≠ node.key) :
    (splice node cache).lru = node :: (before ++ after) := by
  have kept : (before ++ after).filter (·.address ≠ node.address) = before ++ after :=
    List.filter_eq_self.mpr fun other within => by simpa using (others other within).1
  rw [LruCache.splice, split, List.filter_append, List.filter_cons_of_neg (by simp), ← List.filter_append, kept]

theorem Coherent.splice (coherent : Coherent cache) (member : node ∈ cache.lru) :
    Coherent (splice node cache) := by
  obtain ⟨before, after, split, others⟩ := coherent.split member
  have moved := splice_lru split others
  have perm : (LruCache.splice node cache).lru.Perm cache.lru := by
    rw [moved, split]
    exact List.perm_middle.symm
  exact coherent.perm perm

theorem Coherent.splice_keys (coherent : Coherent cache) (member : node ∈ cache.lru) :
    (LruCache.splice node cache).lru.map Kvp.key = node.key :: (cache.lru.map Kvp.key).erase node.key := by
  obtain ⟨before, after, split, others⟩ := coherent.split member
  have absent : node.key ∉ before.map Kvp.key := fun within => by
    obtain ⟨other, within, same⟩ := List.mem_map.mp within
    exact (others other (List.mem_append_left _ within)).2 same
  rw [splice_lru split others, split, List.map_append, List.erase_append_right _ absent]
  simp

theorem Coherent.writeValue (coherent : Coherent cache) (address : Nat) (value : V) :
    Coherent (writeValue address value cache) where
  keys := by
    have same : Kvp.key ∘ (fun node : Kvp K V => if node.address = address then { node with value } else node) =
        Kvp.key := by funext node; dsimp only [Function.comp]; split <;> rfl
    rw [LruCache.writeValue, List.map_map, same]
    exact coherent.keys
  addresses := by
    have same : Kvp.address ∘ (fun node : Kvp K V => if node.address = address then { node with value } else node) =
        Kvp.address := by funext node; dsimp only [Function.comp]; split <;> rfl
    rw [LruCache.writeValue, List.map_map, same]
    exact coherent.addresses
  fresh written member := by
    obtain ⟨node, within, rfl⟩ := List.mem_map.mp member
    split <;> exact coherent.fresh node within
  points key iterator := by
    rw [LruCache.writeValue, coherent.points]
    constructor
    · rintro ⟨node, within, rfl, rfl⟩
      exact ⟨_, List.mem_map_of_mem within, by split <;> rfl, by split <;> rfl⟩
    · rintro ⟨written, member, rfl, rfl⟩
      obtain ⟨node, within, rfl⟩ := List.mem_map.mp member
      exact ⟨node, within, by split <;> rfl, by split <;> rfl⟩

theorem Coherent.evict (coherent : Coherent cache) {front : List (Kvp K V)} (split : cache.lru = front ++ [node]) :
    Coherent { cache with map := cache.map.erase node.key, lru := front } where
  keys := by
    have keys := coherent.keys
    rw [split, List.map_append] at keys
    exact keys.of_append_left
  addresses := by
    have addresses := coherent.addresses
    rw [split, List.map_append] at addresses
    exact addresses.of_append_left
  fresh other member := coherent.fresh other (by simp [split, member])
  points key iterator := by
    have apart : ∀ other ∈ front, other.key ≠ node.key := fun other member same => by
      have keys := coherent.keys
      rw [split, List.map_append, List.nodup_append] at keys
      exact keys.2.2 other.key (List.mem_map_of_mem member) node.key (by simp) same
    by_cases same : key = node.key
    · subst same
      simp only [AList.lookup_erase, reduceCtorEq, false_iff, not_exists, not_and]
      exact fun other member sameKey => absurd sameKey (apart other member)
    · rw [AList.lookup_erase_ne same, coherent.points, split]
      simp only [List.mem_append, List.mem_singleton, or_and_right, exists_or, exists_eq_left]
      exact or_iff_left fun last => same last.1.symm

end Coherence

omit [DecidableEq K] in
theorem overBound_eq {cache : LruCache K V} {bound : Option ℕ+} (bounded : cache.maxSize = bound.map (↑)) :
    cache.overBound = decide (clamp bound cache.lru.length < cache.lru.length) := by
  cases bound with
  | none => simp [overBound, bounded, clamp]
  | some limit => simp only [overBound, bounded, Option.map_some, clamp_lt_iff]

theorem trimLoop_spec {bound : Option ℕ+} (rounds : Nat) (cache : LruCache K V) (coherent : Coherent cache)
    (bounded : cache.maxSize = bound.map (↑)) (enough : cache.lru.length ≤ rounds) :
    Coherent (trimLoop rounds cache) ∧ (trimLoop rounds cache).maxSize = bound.map (↑) ∧
      (trimLoop rounds cache).lru = cache.lru.take (clamp bound cache.lru.length) := by
  -- one entry is evicted in a round, from the back
  induction rounds generalizing cache with
  | zero =>
    have empty : cache.lru = [] := List.length_eq_zero_iff.mp (Nat.le_zero.mp enough)
    exact ⟨coherent, bounded, by simp [trimLoop, empty]⟩
  | succ rounds ih =>
    cases last : cache.lru.getLast? with
    | none =>
      have empty : cache.lru = [] := List.getLast?_eq_none_iff.mp last
      simp only [trimLoop, last]
      exact ⟨coherent, bounded, by simp [empty]⟩
    | some toRemove =>
      obtain ⟨front, split⟩ := List.getLast?_eq_some_iff.mp last
      simp only [trimLoop, last, overBound_eq bounded, decide_eq_true_eq]
      split
      next exceeds =>
        have evicted := coherent.evict split
        have size : cache.lru.length = front.length + 1 := by rw [split, List.length_append]; rfl
        rw [size] at exceeds enough
        obtain ⟨coherent', bounded', kept⟩ := ih _ evicted bounded (Nat.le_of_succ_le_succ enough)
        have dropped : cache.lru.dropLast = front := by rw [split, List.dropLast_concat]
        rw [dropped]
        refine ⟨coherent', bounded', ?_⟩
        have within := Nat.le_of_lt_succ exceeds
        rw [kept, size, split, List.take_append_of_le_length within, clamp_of_lt bound _ exceeds]
      next held =>
        have all : clamp bound cache.lru.length = cache.lru.length :=
          Nat.le_antisymm (clamp_le _ _) (Nat.not_lt.mp held)
        exact ⟨coherent, bounded, by rw [all, List.take_length]⟩

inductive Operation (K V : Type) where
  | insert (key : K) (value : V)
  | set (key : K) (value : V)
  | maybeGet (key : K)
  | maybeTouch (key : K)
  | setMaxSize (size : Option Nat)

def perform : Operation K V → Cache K V (Option V)
  | .insert key value => insert key value
  | .set key value => do
    set key value
    return none
  | .maybeGet key => maybeGet key
  | .maybeTouch key => do
    maybeTouch key
    return none
  | .setMaxSize size => do
    setMaxSize size
    return none

def step (operation : Operation K V) (cache : LruCache K V) : Except CacheFailure (Option V) × LruCache K V :=
  perform operation cache

def acceptedBound : Option Nat → Option (Option ℕ+)
  | none => some none
  | some 0 => none
  | some (limit + 1) => some (some limit.succPNat)

/-- What each operation should do to the keys and what it should answer. -/
def specStep : Operation K V → RecencyMap K V → Except CacheFailure (Option V) × RecencyMap K V
  | .insert key value, map => if key ∈ map.cached then (.ok none, map) else (.ok (some value), map.store key value)
  | .set key value, map => (.ok none, map.store key value)
  | .maybeGet key, map => if key ∈ map.cached then (.ok (map.stored key), map.use key) else (.ok none, map)
  | .maybeTouch key, map => (.ok none, if key ∈ map.cached then map.use key else map)
  | .setMaxSize size, map =>
      match acceptedBound size with
      | none => (.error emptyBound, map)
      | some bound => (.ok none, map.setBound bound)

/-- A cache that holds the cached keys of a recency map, in its order and with its values. -/
structure Represents (cache : LruCache K V) (map : RecencyMap K V) : Prop where
  coherent : Coherent cache
  keys : cache.lru.map Kvp.key = map.cached
  values : ∀ node ∈ cache.lru, map.stored node.key = some node.value
  bound : cache.maxSize = map.bound.map (↑)

section Simulation

variable {cache : LruCache K V} {map : RecencyMap K V} {key : K}

theorem Represents.lookup_notMem (represents : Represents cache map) (absent : key ∉ map.cached) :
    cache.map.lookup key = none :=
  (represents.coherent.lookup_none_iff key).mpr (represents.keys ▸ absent)

theorem Represents.exists_node (represents : Represents cache map) (member : key ∈ map.cached) :
    ∃ node ∈ cache.lru, node.key = key ∧ cache.map.lookup key = some (.node node.address) := by
  rw [← represents.keys] at member
  obtain ⟨node, within, rfl⟩ := List.mem_map.mp member
  exact ⟨node, within, rfl, represents.coherent.lookup within⟩

theorem touch_eq (coherent : Coherent cache) {node : Kvp K V} (member : node ∈ cache.lru) :
    touch (.node node.address) cache = (.ok (), splice node cache) := by
  simp [touch, coherent.follow member]

omit [DecidableEq K] in
theorem mem_splice {node other : Kvp K V} (member : node ∈ cache.lru) (within : other ∈ (splice node cache).lru) :
    other ∈ cache.lru := by
  rcases List.mem_cons.mp within with rfl | kept
  · exact member
  · exact (List.mem_filter.mp kept).1

theorem Represents.splice (represents : Represents cache map) {node : Kvp K V} (member : node ∈ cache.lru) :
    Represents (splice node cache) (map.use node.key) where
  coherent := represents.coherent.splice member
  keys := by
    have cached : node.key ∈ map.cached := represents.keys ▸ List.mem_map_of_mem member
    rw [represents.coherent.splice_keys member, represents.keys, map.cached_use node.key cached]
  values other within := represents.values other (mem_splice member within)
  bound := represents.bound

/-- A value written at the node of a key is stored under the key. -/
theorem Represents.writeValue (represents : Represents cache map) {node : Kvp K V} (member : node ∈ cache.lru)
    (value : V) :
    Represents (writeValue node.address value (LruCache.splice node cache)) (map.store node.key value) where
  coherent := (represents.coherent.splice member).writeValue node.address value
  keys := by
    have cached : node.key ∈ map.cached := represents.keys ▸ List.mem_map_of_mem member
    have same : Kvp.key ∘
        (fun other : Kvp K V => if other.address = node.address then { other with value } else other) =
        Kvp.key := by funext other; dsimp only [Function.comp]; split <;> rfl
    rw [LruCache.writeValue, List.map_map, same, represents.coherent.splice_keys member, represents.keys,
      map.cached_store_mem node.key value cached]
  values written within := by
    obtain ⟨other, member', rfl⟩ := List.mem_map.mp within
    have inside := mem_splice member member'
    by_cases same : other.address = node.address
    · have self : other = node := by
        have followed := represents.coherent.follow inside
        rw [same, represents.coherent.follow member] at followed
        exact (Except.ok.inj followed).symm
      subst self
      simp [RecencyMap.store]
    · have differs : other.key ≠ node.key := fun sameKey => by
        have found := represents.coherent.lookup inside
        rw [sameKey, represents.coherent.lookup member, Option.some.injEq, ListIterator.node.injEq] at found
        exact same found.symm
      simp [RecencyMap.store, same, Function.update_of_ne differs, represents.values other inside]
  bound := represents.bound

theorem Represents.splice_front (represents : Represents cache map) {node : Kvp K V} {rest : List (Kvp K V)}
    (front : cache.lru = node :: rest) : LruCache.splice node cache = cache := by
  have elsewhere : ∀ other ∈ rest, other.address ≠ node.address := by
    have addresses := represents.coherent.addresses
    rw [front, List.map_cons, List.nodup_cons] at addresses
    exact fun other member same => addresses.1 (same ▸ List.mem_map_of_mem member)
  have kept : cache.lru.filter (·.address ≠ node.address) = rest := by
    rw [front, List.filter_cons_of_neg (by simp), List.filter_eq_self]
    exact fun other member => decide_eq_true (elsewhere other member)
  rw [LruCache.splice, kept, ← front]

/-- What `insert` does with a new key before the cache is trimmed. -/
def pushFront (key : K) (value : V) (cache : LruCache K V) : LruCache K V :=
  ⟨⟨cache.nextAddress, key, value⟩ :: cache.lru, cache.map.insert key (.node cache.nextAddress), cache.maxSize,
    cache.nextAddress + 1⟩

theorem Coherent.pushFront (coherent : Coherent cache) (absent : key ∉ cache.lru.map Kvp.key) (value : V) :
    Coherent (pushFront key value cache) where
  keys := List.nodup_cons.mpr ⟨absent, coherent.keys⟩
  addresses := by
    refine List.nodup_cons.mpr ⟨fun taken => ?_, coherent.addresses⟩
    obtain ⟨node, member, same⟩ := List.mem_map.mp taken
    exact Nat.ne_of_lt (coherent.fresh node member) same
  fresh node member := by
    rcases List.mem_cons.mp member with rfl | within
    · exact Nat.lt_succ_self _
    · exact Nat.lt_succ_of_lt (coherent.fresh node within)
  points other iterator := by
    simp only [LruCache.pushFront, List.mem_cons, or_and_right, exists_or, exists_eq_left]
    by_cases same : other = key
    · subst same
      have elsewhere : ¬ ∃ node ∈ cache.lru, node.key = other ∧ iterator = .node node.address := by
        rintro ⟨node, member, rfl, -⟩
        exact absent (List.mem_map_of_mem member)
      simp only [AList.lookup_insert, elsewhere, or_false, Option.some.injEq, true_and]
      exact eq_comm
    · rw [AList.lookup_insert_ne same, coherent.points]
      exact (or_iff_right fun new => same new.1.symm).symm

theorem maybeTrim_spec {bound : Option ℕ+} (coherent : Coherent cache) (bounded : cache.maxSize = bound.map (↑)) :
    Coherent (maybeTrim cache) ∧ (maybeTrim cache).maxSize = bound.map (↑) ∧
      (maybeTrim cache).lru = cache.lru.take (clamp bound cache.lru.length) :=
  trimLoop_spec cache.lru.length cache coherent bounded (Nat.le_refl _)

theorem Represents.insert (represents : Represents cache map) (absent : key ∉ map.cached) (value : V) :
    Represents (maybeTrim (LruCache.pushFront key value cache)) (map.store key value) ∧
      ((maybeTrim (LruCache.pushFront key value cache)).lru.head?.map Kvp.value) = some value := by
  have size : cache.lru.length = map.held := by
    rw [← map.cached_length, ← represents.keys, List.length_map]
  obtain ⟨coherent, bounded, trimmed⟩ := maybeTrim_spec
    (represents.coherent.pushFront (represents.keys ▸ absent) value) represents.bound
  have kept : (maybeTrim (LruCache.pushFront key value cache)).lru =
      (⟨cache.nextAddress, key, value⟩ :: cache.lru).take (clamp map.bound (map.held + 1)) := by
    rw [trimmed, LruCache.pushFront, List.length_cons, size]
  constructor
  · refine ⟨coherent, ?_, ?_, bounded⟩
    · rw [kept, List.map_take, List.map_cons, represents.keys, map.cached_store_notMem key value absent]
    · intro node member
      rw [kept] at member
      rcases List.mem_cons.mp (List.mem_of_mem_take member) with rfl | within
      · simp [RecencyMap.store]
      · have differs : node.key ≠ key := fun same =>
          absent (represents.keys ▸ same ▸ List.mem_map_of_mem within)
        simp [RecencyMap.store, Function.update_of_ne differs, represents.values node within]
  · obtain ⟨room, positive⟩ := Nat.exists_eq_add_one_of_ne_zero (Nat.ne_of_gt (clamp_succ_pos map.bound map.held))
    rw [kept, positive]
    rfl

theorem Represents.insert_cached (represents : Represents cache map) (member : key ∈ map.cached) (value : V) :
    LruCache.insert key value cache = (.ok none, cache) := by
  obtain ⟨node, -, -, found⟩ := represents.exists_node member
  have known : key ∈ cache.map := AList.lookup_isSome.mp (by rw [found]; rfl)
  simp [LruCache.insert, known]

theorem Represents.insert_new (represents : Represents cache map) (absent : key ∉ map.cached) (value : V) :
    LruCache.insert key value cache = (.ok (some value), maybeTrim (LruCache.pushFront key value cache)) := by
  have unknown : key ∉ cache.map := fun known => by
    have found := AList.lookup_isSome.mpr known
    rw [represents.lookup_notMem absent] at found
    cases found
  have front := (represents.insert absent value).2
  have pushed : (⟨⟨cache.nextAddress, key, value⟩ :: cache.lru,
      (cache.map.insert key .pastEnd).insert key (.node cache.nextAddress), cache.maxSize,
      cache.nextAddress + 1⟩ : LruCache K V) = LruCache.pushFront key value cache := by
    rw [AList.insert_insert]
    rfl
  simp only [LruCache.insert, Command.bind_apply, Command.get_apply, Command.ite_apply, if_neg unknown,
    Command.modify_apply, Command.pure_apply, begin, List.head?_cons, pushed]
  cases head : (maybeTrim (LruCache.pushFront key value cache)).lru.head? with
  | none => simp [head] at front
  | some node =>
    rw [head, Option.map_some, Option.some.injEq] at front
    rw [← front]
    rfl

theorem Represents.perform_insert (represents : Represents cache map) (key : K) (value : V) :
    (step (.insert key value) cache).1 = (specStep (.insert key value) map).1 ∧
      Represents (step (.insert key value) cache).2 (specStep (.insert key value) map).2 := by
  by_cases member : key ∈ map.cached
  · simp only [step, perform, represents.insert_cached member value, specStep, if_pos member]
    exact ⟨trivial, represents⟩
  · simp only [step, perform, represents.insert_new member value, specStep, if_neg member]
    exact ⟨trivial, (represents.insert member value).1⟩

theorem Represents.perform_set (represents : Represents cache map) (key : K) (value : V) :
    (step (.set key value) cache).1 = (specStep (.set key value) map).1 ∧
      Represents (step (.set key value) cache).2 (specStep (.set key value) map).2 := by
  by_cases member : key ∈ map.cached
  · obtain ⟨node, within, rfl, found⟩ := represents.exists_node member
    have spliced := represents.coherent.splice within
    have followed := spliced.follow (List.mem_cons_self : node ∈ (LruCache.splice node cache).lru)
    simp only [step, perform, LruCache.set, Command.bind_apply, Command.get_apply, found,
      touch_eq represents.coherent within, Command.ofExcept_apply, followed, Command.modify_apply,
      Command.pure_apply, specStep]
    exact ⟨trivial, represents.writeValue within value⟩
  · have missing := represents.lookup_notMem member
    simp only [step, perform, LruCache.set, Command.bind_apply, Command.get_apply, missing,
      Command.discard_apply, represents.insert_new member value, Command.pure_apply, specStep]
    exact ⟨trivial, (represents.insert member value).1⟩

theorem Represents.perform_maybeGet (represents : Represents cache map) (key : K) :
    (step (.maybeGet key) cache).1 = (specStep (.maybeGet key) map).1 ∧
      Represents (step (.maybeGet key) cache).2 (specStep (.maybeGet key) map).2 := by
  by_cases member : key ∈ map.cached
  · obtain ⟨node, within, rfl, found⟩ := represents.exists_node member
    have spliced := represents.coherent.splice within
    have followed := spliced.follow (List.mem_cons_self : node ∈ (LruCache.splice node cache).lru)
    simp only [step, perform, LruCache.maybeGet, Command.bind_apply, Command.get_apply, found,
      touch_eq represents.coherent within, Command.ofExcept_apply, followed, Command.pure_apply, specStep,
      if_pos member, represents.values node within]
    exact ⟨trivial, represents.splice within⟩
  · have missing := represents.lookup_notMem member
    simp only [step, perform, LruCache.maybeGet, Command.bind_apply, Command.get_apply, missing,
      Command.pure_apply, specStep, if_neg member]
    exact ⟨trivial, represents⟩

theorem Represents.perform_maybeTouch (represents : Represents cache map) (key : K) :
    (step (.maybeTouch key) cache).1 = (specStep (.maybeTouch key) map).1 ∧
      Represents (step (.maybeTouch key) cache).2 (specStep (.maybeTouch key) map).2 := by
  by_cases member : key ∈ map.cached
  · obtain ⟨node, within, rfl, found⟩ := represents.exists_node member
    simp only [step, perform, LruCache.maybeTouch, Command.bind_apply, Command.get_apply, found,
      touch_eq represents.coherent within, Command.pure_apply, specStep, if_pos member]
    exact ⟨trivial, represents.splice within⟩
  · have missing := represents.lookup_notMem member
    simp only [step, perform, LruCache.maybeTouch, Command.bind_apply, Command.get_apply, missing,
      Command.pure_apply, specStep, if_neg member]
    exact ⟨trivial, represents⟩

theorem Represents.setBound (represents : Represents cache map) (bound : Option ℕ+) :
    Represents (maybeTrim { cache with maxSize := bound.map (↑) }) (map.setBound bound) := by
  have size : cache.lru.length = map.held := by
    rw [← map.cached_length, ← represents.keys, List.length_map]
  have kept : Coherent { cache with maxSize := bound.map (↑) } :=
    ⟨represents.coherent.keys, represents.coherent.addresses, represents.coherent.fresh, represents.coherent.points⟩
  obtain ⟨coherent, bounded, trimmed⟩ := maybeTrim_spec kept rfl
  refine ⟨coherent, ?_, fun node member => ?_, bounded⟩
  · rw [trimmed, List.map_take, represents.keys, map.cached_setBound, size]
  · rw [trimmed] at member
    exact represents.values node (List.mem_of_mem_take member)

theorem Represents.perform_setMaxSize (represents : Represents cache map) (size : Option Nat) :
    (step (.setMaxSize size) cache).1 = (specStep (.setMaxSize size) map).1 ∧
      Represents (step (.setMaxSize size) cache).2 (specStep (.setMaxSize size) map).2 := by
  match size with
  | none => exact ⟨rfl, represents.setBound none⟩
  | some 0 => exact ⟨rfl, represents⟩
  | some (limit + 1) => exact ⟨rfl, represents.setBound (some limit.succPNat)⟩

theorem step_simulates (operation : Operation K V) (cache : LruCache K V) (map : RecencyMap K V)
    (represents : Represents cache map) :
    (step operation cache).1 = (specStep operation map).1 ∧
      Represents (step operation cache).2 (specStep operation map).2 := by
  cases operation with
  | insert key value => exact represents.perform_insert key value
  | set key value => exact represents.perform_set key value
  | maybeGet key => exact represents.perform_maybeGet key
  | maybeTouch key => exact represents.perform_maybeTouch key
  | setMaxSize size => exact represents.perform_setMaxSize size

theorem Represents.size_le (represents : Represents cache map) (limit : Nat) (bounded : cache.maxSize = some limit) :
    cache.size ≤ limit := by
  have size : cache.size = map.held := by
    rw [← map.cached_length, ← represents.keys, List.length_map, LruCache.size]
  rw [represents.bound, Option.map_eq_some_iff] at bounded
  obtain ⟨bound, found, rfl⟩ := bounded
  rw [size]
  exact map.bounded bound found

end Simulation

/-- Every run of a cache answers as the map of the most recently used keys does, and
holds its keys, in its order, with its values, within the bound. -/
theorem run_refines_recencyMap (bound : Option ℕ+) (operations : List (Operation K V)) :
    ∃ cache, create (bound.map (↑)) = .ok cache ∧
      (run step operations cache).1 = (run specStep operations (RecencyMap.empty bound)).1 ∧
      Represents (run step operations cache).2 (run specStep operations (RecencyMap.empty bound)).2 ∧
      ∀ limit, (run step operations cache).2.maxSize = some limit → (run step operations cache).2.size ≤ limit := by
  have created : create (bound.map (↑)) = .ok (⟨[], ∅, bound.map (↑), 0⟩ : LruCache K V) := by
    cases bound with
    | none => rfl
    | some limit => simp [create, verifyBound, limit.ne_zero, pure, Except.pure, bind, Except.bind]
  have start : Represents (⟨[], ∅, bound.map (↑), 0⟩ : LruCache K V) (RecencyMap.empty bound) :=
    ⟨⟨List.nodup_nil, List.nodup_nil, by simp, by simp⟩, rfl, by simp, rfl⟩
  obtain ⟨answers, represents⟩ := run_refines step_simulates operations _ _ start
  exact ⟨_, created, answers, represents, fun limit bounded => represents.size_le limit bounded⟩

end LruCache

end Cpptrace.Utils
