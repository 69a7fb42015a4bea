import Cpptrace.Binary.MachO
import Mathlib.Data.List.AList

/-! The debug map of a Mach-O, from the symbolic entries of its symbol table.

An entry names an object file, begins a function or ends one. The reader keeps
one function, and hands it out at every end, whether or not a begin stands right
before it.
-/

set_option autoImplicit false

namespace Cpptrace.Binary.MachO

open Library Utils

section Layout

def lcSymtab : UInt32 := 2

def nStab : UInt8 := 0xe0
def nOso : UInt8 := 0x66
def nFun : UInt8 := 0x24

structure SymtabCommand where
  cmd : UInt32
  cmdsize : UInt32
  symoff : UInt32
  nsyms : UInt32
  stroff : UInt32
  strsize : UInt32
  deriving DecidableEq, Repr

def symtabCommandSize : Nat := 24

/-- `nlist_64`, in which the entries of both kinds are given. -/
structure Nlist where
  nStrx : UInt32
  nType : UInt8
  nSect : UInt8
  nDesc : UInt16
  nValue : UInt64
  deriving DecidableEq, Repr

def nlistSize (is64 : Bool) : Nat := if is64 then 16 else 12

structure SymtabInfoData where
  symtab : SymtabCommand
  stringtab : Option Bytes
  deriving DecidableEq, Repr

structure SymtabCache where
  triedToLoadSymtab : Bool
  symtabInfo : Option SymtabInfoData
  deriving DecidableEq, Repr

structure DebugMapEntry where
  sourceAddress : UInt64
  size : UInt64
  name : Text
  deriving DecidableEq, Repr

abbrev DebugMap := AList fun _ : Text => List DebugMapEntry

end Layout

/-- What ends `get_debug_map` without a map: an error, a failed `ASSERT`, or `unwrap` of an optional
that holds nothing. -/
inductive MapFailure where
  | error (failure : Failure)
  | asserted (exception : Exception)
  | unwrapsAbsent
  deriving DecidableEq, Repr

section Loading

variable (system : System) (swapSymtabCommand : SymtabCommand → SymtabCommand) (swapNlist : Bool → Nlist → Nlist)
  (object : Object)

def loadSymbolTableCommand (offset : UInt32) : Except MapFailure SymtabCommand := do
  let struct ← (object.file.read symtabCommandSize offset.toUInt64).mapError .error
  let field := word system struct
  let symtab : SymtabCommand := ⟨field 0, field 1, field 2, field 3, field 4, field 5⟩
  (assertImpl (symtab.cmd = lcSymtab) .assert "symtab.cmd == LC_SYMTAB" none).mapError .asserted
  return if shouldSwapBytes object.magic then swapSymtabCommand symtab else symtab

/-- The room for the terminator is added as a `std::uint32_t`, which can wrap. -/
def loadStringTable (offset byteCount : UInt32) : Except MapFailure Bytes :=
  (object.file.readBytes (byteCount + 1).toNat byteCount.toNat (object.loadBase + offset.toUInt64)).mapError .error

/-- The entry with that index; the offset is computed as a `std::uint32_t`. -/
def loadSymtabEntry (symbolBase : UInt32) (index : Nat) : Except Failure Nlist := do
  let is64 := decide (object.bits ≠ 32)
  let offset := (object.loadBase + symbolBase.toUInt64 + (index * nlistSize is64).toUInt64).toUInt32
  let struct ← object.file.read (nlistSize is64) offset.toUInt64
  let field (start size : Nat) := valueOf system.isLittleEndian ((struct.drop start).take size)
  let entry : Nlist := {
    nStrx := (field 0 4).toUInt32
    nType := (field 4 1).toUInt8
    nSect := (field 5 1).toUInt8
    nDesc := (field 6 2).toUInt16
    nValue := (field 8 (if is64 then 8 else 4)).toUInt64 }
  return if shouldSwapBytes object.magic then swapNlist is64 entry else entry

def getSymtabInfo : Command MapFailure SymtabCache (Option SymtabInfoData) := do
  let cache ← get
  if cache.symtabInfo = none ∧ cache.triedToLoadSymtab = false then
    modify fun cache => { cache with triedToLoadSymtab := true }
    match object.loadCommands.find? fun command => command.cmd = lcSymtab with
    | none => return none
    | some command =>
        let symtab ← MonadExcept.ofExcept (loadSymbolTableCommand system swapSymtabCommand object command.fileOffset)
        let string ← MonadExcept.ofExcept (loadStringTable object symtab.stroff symtab.strsize)
        modify fun cache => { cache with symtabInfo := some ⟨symtab, some string⟩ }
        return some ⟨symtab, some string⟩
  else return cache.symtabInfo

end Loading

section Stabs

def SymtabInfoData.getString (info : SymtabInfoData) (index : Nat) : Except Failure Text :=
  match info.stringtab with
  | some table =>
      if index < info.symtab.strsize.toNat then
        pure (((table.drop index).takeWhile (· ≠ 0)).map fun byte => Char.ofNat byte.toNat)
      else throw (internalError "can't retrieve symbol from symtab")
  | none => throw (internalError "can't retrieve symbol from symtab")

inductive Stab where
  | module (name : Text)
  | funBegin (name : Text) (address : UInt64)
  | funEnd (size : UInt64)
  | other
  deriving DecidableEq, Repr

def readStab (info : SymtabInfoData) (entry : Nlist) : Except Failure Stab :=
  if entry.nType &&& nStab = 0 then pure .other
  else if entry.nType = nOso then do
    let str ← info.getString entry.nStrx.toNat
    return .module str
  else if entry.nType = nFun then do
    let str ← info.getString entry.nStrx.toNat
    return if str = [] then .funEnd entry.nValue else .funBegin str entry.nValue
  -- `N_SO`, `N_BNSYM` and `N_ENSYM` are passed over like what is not known
  else pure .other

structure MapState where
  debugMap : DebugMap
  currentModule : Text
  currentFunction : Option DebugMapEntry

def MapState.initial : MapState := ⟨∅, [], none⟩

def pushEntry (debugMap : DebugMap) (module_ : Text) (entry : DebugMapEntry) : DebugMap :=
  debugMap.insert module_ ((debugMap.lookup module_).getD [] ++ [entry])

/-- What `std::move` leaves of a string. -/
abbrev MovedFrom := Text → Text

/-- The case of an entry. The function is moved out of its optional, which goes on to hold one. -/
def handleStab (movedFrom : MovedFrom) (state : MapState) : Stab → Except MapFailure MapState
  | .module name => pure { state with currentModule := name }
  | .funBegin name address => pure { state with currentFunction := some ⟨address, 0, name⟩ }
  | .funEnd size =>
      match state.currentFunction with
      | none => throw .unwrapsAbsent
      | some function =>
          pure { state with
            debugMap := pushEntry state.debugMap state.currentModule { function with size := size }
            currentFunction := some { function with size := size, name := movedFrom function.name } }
  | .other => pure state

def handleStabs (movedFrom : MovedFrom) : MapState → List (Except Failure Stab) → Except MapFailure MapState
  | state, [] => pure state
  | state, result :: rest => do
      let stab ← result.mapError .error
      let state ← handleStab movedFrom state stab
      handleStabs movedFrom state rest

variable (system : System) (swapSymtabCommand : SymtabCommand → SymtabCommand) (swapNlist : Bool → Nlist → Nlist)
  (object : Object)

def stabsOf (info : SymtabInfoData) : List (Except Failure Stab) :=
  (List.range info.symtab.nsyms.toNat).map fun j => do
    let entry ← loadSymtabEntry system swapNlist object info.symtab.symoff j
    readStab info entry

def getDebugMap (movedFrom : MovedFrom) : Command MapFailure SymtabCache DebugMap := do
  match ← getSymtabInfo system swapSymtabCommand object with
  | none => throw (.error (internalError "No symtab info"))
  | some info =>
      let state ← MonadExcept.ofExcept (handleStabs movedFrom .initial (stabsOf system swapNlist object info))
      return state.debugMap

end Stabs

section Specification

/-- The functions that end right behind their begin, each with the object file that is named then. A
begin is spent by its end. -/
def closedFunctions : (opened : Option (Text × UInt64)) → (module_ : Text) → List Stab → List (Text × DebugMapEntry)
  | _, _, [] => []
  | opened, _, .module name :: rest => closedFunctions opened name rest
  | _, module_, .funBegin name address :: rest => closedFunctions (some (name, address)) module_ rest
  | some (name, address), module_, .funEnd size :: rest =>
      (module_, ⟨address, size, name⟩) :: closedFunctions none module_ rest
  | none, module_, .funEnd _ :: rest => closedFunctions none module_ rest
  | opened, module_, .other :: rest => closedFunctions opened module_ rest

def entriesIn (module_ : Text) (pairs : List (Text × DebugMapEntry)) : List DebugMapEntry :=
  (pairs.filter fun pair => pair.1 = module_).map Prod.snd

/-- The entries up to the first that does not load. -/
def loadedStabs : List (Except Failure Stab) → List Stab
  | .ok stab :: rest => stab :: loadedStabs rest
  | _ => []

def AllLoad (results : List (Except Failure Stab)) : Prop := ∀ result ∈ results, result.isOk = true

/-- The reader returns, and a map has the closed functions by their object files. -/
structure MapCorrect (results : List (Except Failure Stab)) (outcome : Except MapFailure DebugMap) : Prop where
  returns : (∃ failure, outcome = .error (.error failure)) ∨ ∃ debugMap, outcome = .ok debugMap
  closed : ∀ debugMap, outcome = .ok debugMap → ∀ module_,
    (debugMap.lookup module_).getD [] = entriesIn module_ (closedFunctions none [] (loadedStabs results))
  named : ∀ debugMap, outcome = .ok debugMap → ∀ module_, ∀ entry ∈ (debugMap.lookup module_).getD [], entry.name ≠ []

/-- Every end has a begin somewhere before it; `begun` says whether there was one already. -/
def EndsBegun : (begun : Bool) → List Stab → Prop
  | _, [] => True
  | _, .funBegin _ _ :: rest => EndsBegun true rest
  | begun, .funEnd _ :: rest => begun = true ∧ EndsBegun begun rest
  | begun, .module _ :: rest => EndsBegun begun rest
  | begun, .other :: rest => EndsBegun begun rest

/-- Every end comes right behind a begin, apart from entries that are not about functions. -/
def EndsClose : (opened : Bool) → List Stab → Prop
  | _, [] => True
  | _, .funBegin _ _ :: rest => EndsClose true rest
  | opened, .funEnd _ :: rest => opened = true ∧ EndsClose false rest
  | opened, .module _ :: rest => EndsClose opened rest
  | opened, .other :: rest => EndsClose opened rest

end Specification

section Loop

variable (movedFrom : MovedFrom)

def pushedFunctions : (current : Option DebugMapEntry) → (module_ : Text) → List Stab → List (Text × DebugMapEntry)
  | _, _, [] => []
  | current, _, .module name :: rest => pushedFunctions current name rest
  | _, module_, .funBegin name address :: rest => pushedFunctions (some ⟨address, 0, name⟩) module_ rest
  | some function, module_, .funEnd size :: rest =>
      (module_, { function with size := size }) ::
        pushedFunctions (some { function with size := size, name := movedFrom function.name }) module_ rest
  | none, module_, .funEnd _ :: rest => pushedFunctions none module_ rest
  | current, module_, .other :: rest => pushedFunctions current module_ rest

theorem lookup_pushEntry (debugMap : DebugMap) (module_ other : Text) (entry : DebugMapEntry) :
    ((pushEntry debugMap module_ entry).lookup other).getD [] =
      (debugMap.lookup other).getD [] ++ if module_ = other then [entry] else [] := by
  unfold pushEntry
  by_cases same : other = module_
  · subst same
    simp
  · rw [AList.lookup_insert_ne same, if_neg (Ne.symm same), List.append_nil]

theorem entriesIn_cons (module_ : Text) (pair : Text × DebugMapEntry) (rest : List (Text × DebugMapEntry)) :
    entriesIn module_ (pair :: rest) = (if pair.1 = module_ then [pair.2] else []) ++ entriesIn module_ rest := by
  unfold entriesIn
  rw [List.filter_cons]
  by_cases same : pair.1 = module_ <;> simp [same]

theorem allLoad_ok (stab : Stab) (rest : List (Except Failure Stab)) : AllLoad (.ok stab :: rest) ↔ AllLoad rest := by
  simp [AllLoad, Except.isOk, Except.toBool]

structure LoopOutcome (state : MapState) (results : List (Except Failure Stab)) : Prop where
  absent : ¬ EndsBegun state.currentFunction.isSome (loadedStabs results) →
    handleStabs movedFrom state results = .error .unwrapsAbsent
  failed : EndsBegun state.currentFunction.isSome (loadedStabs results) → ¬ AllLoad results →
    ∃ failure, handleStabs movedFrom state results = .error (.error failure)
  done : EndsBegun state.currentFunction.isSome (loadedStabs results) → AllLoad results →
    ∃ final, handleStabs movedFrom state results = .ok final ∧ ∀ module_,
      (final.debugMap.lookup module_).getD [] = (state.debugMap.lookup module_).getD [] ++
        entriesIn module_ (pushedFunctions movedFrom state.currentFunction state.currentModule (loadedStabs results))

theorem handleStabs_outcome (results : List (Except Failure Stab)) (state : MapState) :
    LoopOutcome movedFrom state results := by
  induction results generalizing state with
  | nil =>
    refine ⟨fun unbegun => absurd trivial unbegun, fun _ fails => absurd nofun fails, fun _ _ => ⟨state, rfl, ?_⟩⟩
    intro module_
    simp [loadedStabs, pushedFunctions, entriesIn]
  | cons result rest ih =>
    cases result with
    | error failure =>
      refine ⟨fun unbegun => absurd trivial unbegun, fun _ _ => ⟨failure, rfl⟩, fun _ loads => ?_⟩
      cases loads (.error failure) List.mem_cons_self
    | ok stab =>
      cases stab with
      | module name =>
        have later := ih { state with currentModule := name }
        exact ⟨later.absent, fun begun fails => later.failed begun (mt (allLoad_ok _ rest).mpr fails),
          fun begun loads => later.done begun ((allLoad_ok _ rest).mp loads)⟩
      | funBegin name address =>
        have later := ih { state with currentFunction := some ⟨address, 0, name⟩ }
        exact ⟨later.absent, fun begun fails => later.failed begun (mt (allLoad_ok _ rest).mpr fails),
          fun begun loads => later.done begun ((allLoad_ok _ rest).mp loads)⟩
      | other =>
        have later := ih state
        exact ⟨later.absent, fun begun fails => later.failed begun (mt (allLoad_ok _ rest).mpr fails),
          fun begun loads => later.done begun ((allLoad_ok _ rest).mp loads)⟩
      | funEnd size =>
        obtain ⟨debugMap, currentModule, currentFunction⟩ := state
        cases currentFunction with
        -- without a begin the absent function is unwrapped, whatever comes behind
        | none =>
          exact ⟨fun _ => rfl, fun begun => (Bool.false_ne_true begun.1).elim,
            fun begun => (Bool.false_ne_true begun.1).elim⟩
        | some function =>
          have later := ih ⟨pushEntry debugMap currentModule { function with size := size }, currentModule,
            some { function with size := size, name := movedFrom function.name }⟩
          refine ⟨fun unbegun => later.absent fun begun => unbegun ⟨rfl, begun⟩,
            fun begun fails => later.failed begun.2 (mt (allLoad_ok _ rest).mpr fails), fun begun loads => ?_⟩
          obtain ⟨final, ran, pushed⟩ := later.done begun.2 ((allLoad_ok _ rest).mp loads)
          refine ⟨final, ran, fun module_ => ?_⟩
          rw [pushed module_, lookup_pushEntry, loadedStabs, pushedFunctions, entriesIn_cons, List.append_assoc]

def Keeps (opened : Option (Text × UInt64)) (current : Option DebugMapEntry) : Prop :=
  ∀ name address, opened = some (name, address) → ∃ size, current = some ⟨address, size, name⟩

/-- Where each end comes right behind a begin, the loop pushes just the closed functions. -/
theorem pushedFunctions_eq_closed (stabs : List Stab) (opened : Option (Text × UInt64)) (current : Option DebugMapEntry)
    (module_ : Text) (keeps : Keeps opened current) (close : EndsClose opened.isSome stabs) :
    pushedFunctions movedFrom current module_ stabs = closedFunctions opened module_ stabs := by
  induction stabs generalizing opened current module_ with
  | nil => rfl
  | cons stab rest ih =>
    cases stab with
    | module name => exact ih opened current name keeps close
    | other => exact ih opened current module_ keeps close
    | funBegin name address =>
      refine ih (some (name, address)) (some ⟨address, 0, name⟩) module_ ?_ close
      rintro _ _ ⟨⟩
      exact ⟨0, rfl⟩
    | funEnd size =>
      cases opened with
      | none => exact nomatch close.1
      | some begun =>
        obtain ⟨name, address⟩ := begun
        obtain ⟨old, rfl⟩ := keeps name address rfl
        exact congrArg _ (ih none _ module_ nofun close.2)

theorem length_closed_le (stabs : List Stab) (opened : Option (Text × UInt64)) (current : Option DebugMapEntry)
    (start module_ : Text) (begun : EndsBegun current.isSome stabs) :
    (entriesIn module_ (closedFunctions opened start stabs)).length ≤
      (entriesIn module_ (pushedFunctions movedFrom current start stabs)).length := by
  induction stabs generalizing opened current start with
  | nil => exact Nat.le_refl _
  | cons stab rest ih =>
    cases stab with
    | module name => exact ih opened current name begun
    | other => exact ih opened current start begun
    | funBegin name address => exact ih (some (name, address)) (some ⟨address, 0, name⟩) start begun
    | funEnd size =>
      cases current with
      | none => exact nomatch begun.1
      | some function =>
        have later := ih none (some { function with size := size, name := movedFrom function.name }) start begun.2
        -- the end pushes in any case, and closes only what is opened
        cases opened with
        | none =>
          rw [closedFunctions, pushedFunctions, entriesIn_cons, List.length_append]
          omega
        | some begun =>
          obtain ⟨name, address⟩ := begun
          rw [closedFunctions, pushedFunctions, entriesIn_cons, entriesIn_cons, List.length_append, List.length_append]
          dsimp only
          split <;> simpa using later

/-- An end that closes nothing leaves one entry too many under some object file. -/
theorem exists_length_closed_lt (stabs : List Stab) (opened : Option (Text × UInt64)) (current : Option DebugMapEntry)
    (start : Text) (begun : EndsBegun current.isSome stabs) (stray : ¬ EndsClose opened.isSome stabs) :
    ∃ module_, (entriesIn module_ (closedFunctions opened start stabs)).length <
      (entriesIn module_ (pushedFunctions movedFrom current start stabs)).length := by
  -- `opened` is what the pairing knows to be open, `current` what the code holds
  induction stabs generalizing opened current start with
  | nil => exact absurd trivial stray
  | cons stab rest ih =>
    cases stab with
    | module name => exact ih opened current name begun stray
    | other => exact ih opened current start begun stray
    | funBegin name address => exact ih (some (name, address)) (some ⟨address, 0, name⟩) start begun stray
    | funEnd size =>
      cases current with
      | none => exact nomatch begun.1
      | some function =>
        cases opened with
        | none =>
          refine ⟨start, ?_⟩
          have later := length_closed_le movedFrom rest none
            (some { function with size := size, name := movedFrom function.name }) start start begun.2
          rw [closedFunctions, pushedFunctions, entriesIn_cons, if_pos rfl, List.singleton_append, List.length_cons]
          omega
        | some opening =>
          obtain ⟨name, address⟩ := opening
          obtain ⟨module_, fewer⟩ :=
              ih none (some { function with size := size, name := movedFrom function.name }) start
            begun.2 fun close => stray ⟨rfl, close⟩
          refine ⟨module_, ?_⟩
          rw [closedFunctions, pushedFunctions, entriesIn_cons, entriesIn_cons, List.length_append, List.length_append]
          dsimp only
          split <;> simpa using fewer

theorem mem_entriesIn (module_ : Text) (entry : DebugMapEntry) (pairs : List (Text × DebugMapEntry)) :
    entry ∈ entriesIn module_ pairs ↔ (module_, entry) ∈ pairs := by
  simp [entriesIn]

theorem closedFunctions_named (stabs : List Stab) (opened : Option (Text × UInt64)) (module_ : Text)
    (named : ∀ name address, opened = some (name, address) → name ≠ [])
    (begins : ∀ name address, .funBegin name address ∈ stabs → name ≠ []) :
    ∀ pair ∈ closedFunctions opened module_ stabs, pair.2.name ≠ [] := by
  induction stabs generalizing opened module_ with
  | nil => nofun
  | cons stab rest ih =>
    have later := fun name address member => begins name address (List.mem_cons_of_mem stab member)
    cases stab with
    | module name => exact ih opened name named later
    | other => exact ih opened module_ named later
    | funBegin name address =>
      refine ih (some (name, address)) module_ ?_ later
      rintro _ _ ⟨⟩
      exact begins name address List.mem_cons_self
    | funEnd size =>
      cases opened with
      | none => exact ih none module_ nofun later
      | some opening =>
        obtain ⟨name, address⟩ := opening
        exact List.forall_mem_cons.mpr ⟨named name address rfl, ih none module_ nofun later⟩

theorem mem_loadedStabs {results : List (Except Failure Stab)} {stab : Stab} (member : stab ∈ loadedStabs results) :
    .ok stab ∈ results := by
  induction results with
  | nil => cases member
  | cons result rest ih =>
    cases result with
    | error failure => cases member
    | ok head =>
      rcases List.mem_cons.mp member with rfl | later
      · exact List.mem_cons_self
      · exact List.mem_cons_of_mem _ (ih later)

theorem mapCorrect_iff (results : List (Except Failure Stab))
    (begins : ∀ name address, .ok (.funBegin name address) ∈ results → name ≠ []) :
    MapCorrect results ((handleStabs movedFrom .initial results).map MapState.debugMap) ↔
      EndsBegun false (loadedStabs results) ∧ (AllLoad results → EndsClose false (loadedStabs results)) := by
  have outcome := handleStabs_outcome movedFrom results .initial
  by_cases begun : EndsBegun false (loadedStabs results)
  · by_cases loads : AllLoad results
    · obtain ⟨final, ran, pushed⟩ := outcome.done begun loads
      have initial : ∀ module_ : Text, ((MapState.initial.debugMap).lookup module_).getD [] = [] := fun _ => rfl
      simp only [initial, List.nil_append] at pushed
      rw [ran]
      simp only [begun, loads, true_and, forall_const]
      constructor
      · intro correct
        by_contra stray
        -- the entries of some object file are too many to be the closed functions
        obtain ⟨module_, fewer⟩ := exists_length_closed_lt movedFrom (loadedStabs results) none none [] begun stray
        have same := congrArg List.length (correct.closed final.debugMap rfl module_)
        rw [pushed module_] at same
        exact absurd same (Nat.ne_of_gt fewer)
      · intro close
        have equal := pushedFunctions_eq_closed movedFrom (loadedStabs results) none none [] nofun close
        have entries : ∀ module_ : Text, (final.debugMap.lookup module_).getD [] =
            entriesIn module_ (closedFunctions none [] (loadedStabs results)) := fun module_ => by
          rw [pushed module_, ← equal]
          rfl
        refine ⟨.inr ⟨_, rfl⟩, ?_, ?_⟩
        · rintro _ ⟨⟩ module_
          exact entries module_
        · rintro _ ⟨⟩ module_ entry member
          rw [entries module_, mem_entriesIn] at member
          exact closedFunctions_named (loadedStabs results) none [] nofun
            (fun name address listed => begins name address (mem_loadedStabs listed)) _ member
    · obtain ⟨failure, ran⟩ := outcome.failed begun loads
      rw [ran]
      simp only [begun, loads, true_and, false_implies, iff_true]
      exact ⟨.inl ⟨failure, rfl⟩, nofun, nofun⟩
  · rw [outcome.absent begun]
    simp only [begun, false_and, iff_false]
    intro correct
    rcases correct.returns with ⟨failure, same⟩ | ⟨debugMap, same⟩
    · cases same
    · cases same

end Loop

section DebugMaps

variable (system : System) (swapSymtabCommand : SymtabCommand → SymtabCommand) (swapNlist : Bool → Nlist → Nlist)
  (object : Object)

theorem readStab_begin {info : SymtabInfoData} {entry : Nlist} {name : Text} {address : UInt64}
    (read : readStab info entry = .ok (.funBegin name address)) : name ≠ [] := by
  unfold readStab at read
  split at read
  · cases read
  · split at read
    · obtain ⟨str, -, same⟩ := (Outcome.bind_eq_ok_iff ..).mp read
      cases same
    · split at read
      · obtain ⟨str, -, same⟩ := (Outcome.bind_eq_ok_iff ..).mp read
        by_cases empty : str = []
        · rw [if_pos empty] at same
          cases same
        · rw [if_neg empty] at same
          cases same
          exact empty
      · cases read

theorem stabsOf_begins (info : SymtabInfoData) (name : Text) (address : UInt64)
    (member : .ok (.funBegin name address) ∈ stabsOf system swapNlist object info) : name ≠ [] := by
  obtain ⟨j, -, read⟩ := List.mem_map.mp member
  obtain ⟨entry, -, stab⟩ := (Outcome.bind_eq_ok_iff ..).mp read
  exact readStab_begin stab

theorem getDebugMap_apply (movedFrom : MovedFrom) (cache : SymtabCache) (info : SymtabInfoData)
    (loaded : (getSymtabInfo system swapSymtabCommand object cache).1 = .ok (some info)) :
    (getDebugMap system swapSymtabCommand swapNlist object movedFrom cache).1 =
      (handleStabs movedFrom .initial (stabsOf system swapNlist object info)).map MapState.debugMap := by
  simp only [getDebugMap, Command.bind_apply, loaded, Command.ofExcept_apply]
  cases handleStabs movedFrom .initial (stabsOf system swapNlist object info) with
  | ok state => rfl
  | error failure => rfl

/-- For a symbol table that is loaded, the debug map is returned and has the functions that are
closed if and only if no end is stray. -/
theorem getDebugMap_correct_iff (movedFrom : MovedFrom) (cache : SymtabCache) (info : SymtabInfoData)
    (loaded : (getSymtabInfo system swapSymtabCommand object cache).1 = .ok (some info)) :
    MapCorrect (stabsOf system swapNlist object info)
        (getDebugMap system swapSymtabCommand swapNlist object movedFrom cache).1 ↔
      EndsBegun false (loadedStabs (stabsOf system swapNlist object info)) ∧
        (AllLoad (stabsOf system swapNlist object info) →
          EndsClose false (loadedStabs (stabsOf system swapNlist object info))) := by
  rw [getDebugMap_apply system swapSymtabCommand swapNlist object movedFrom cache info loaded]
  exact mapCorrect_iff movedFrom _ (stabsOf_begins system swapNlist object info)

end DebugMaps

section Examples

def little (size value : Nat) : Bytes := (List.range size).map fun index => (digit value index).toUInt8

/-- A symbol table of functions at offset 0: the entries, given by string index and value, and the
strings behind them. -/
def symtabBytes (entries : List (Nat × Nat)) (strings : Bytes) : Bytes :=
  [2, 24, 24, entries.length, 24 + 16 * entries.length, strings.length].flatMap (little 4) ++
    entries.flatMap (fun entry => little 4 entry.1 ++ [nFun, 0, 0, 0] ++ little 8 entry.2) ++ strings

def exampleSystem : System where
  isLittleEndian := true
  cputype := 0
  cpusubtype := 0
  swapMachHeader _ header := header
  swapLoadCommand command := command
  swapFatHeader header := header
  swapFatArch arch := arch
  findBestFatArch _ _ _ := none
  memory := 0

def exampleObject (data : Bytes) (small : data.length < 0x8000000000000000) : Object where
  file := ⟨.memory, "", data, small⟩
  magic := mhMagic64
  members := none
  bits := 64
  loadBase := 0
  fatIndex := 0
  loadCommands := [⟨0, lcSymtab, 24⟩]

/-- The first function ends twice; its name is the string at 1. -/
def doubledObject : Object := exampleObject (symtabBytes [(1, 0x100), (0, 0x10), (0, 0x10)] [0, 102, 0]) (by decide)

def strayObject : Object := exampleObject (symtabBytes [(0, 0x10)] [0, 102, 0]) (by decide)

def doubledInfo : SymtabInfoData := ⟨⟨lcSymtab, 24, 24, 3, 72, 3⟩, some [0, 102, 0]⟩

theorem getSymtabInfo_doubled :
    (getSymtabInfo exampleSystem id doubledObject ⟨false, none⟩).1 = .ok (some doubledInfo) := by
  decide +kernel

theorem getDebugMap_correct_iff_at_doubled :
    MapCorrect (stabsOf exampleSystem (fun _ entry => entry) doubledObject doubledInfo)
        (getDebugMap exampleSystem id (fun _ entry => entry) doubledObject (fun _ => []) ⟨false, none⟩).1 ↔
      EndsBegun false (loadedStabs (stabsOf exampleSystem (fun _ entry => entry) doubledObject doubledInfo)) ∧
        (AllLoad (stabsOf exampleSystem (fun _ entry => entry) doubledObject doubledInfo) →
          EndsClose false (loadedStabs (stabsOf exampleSystem (fun _ entry => entry) doubledObject doubledInfo))) :=
  getDebugMap_correct_iff exampleSystem id (fun _ entry => entry) doubledObject (fun _ => []) ⟨false, none⟩ doubledInfo
    getSymtabInfo_doubled

def strayInfo : SymtabInfoData := ⟨⟨lcSymtab, 24, 24, 1, 40, 3⟩, some [0, 102, 0]⟩

theorem handleStabs_stray :
    (getSymtabInfo exampleSystem id strayObject ⟨false, none⟩).1 = .ok (some strayInfo) ∧
      ¬ EndsBegun false (loadedStabs (stabsOf exampleSystem (fun _ entry => entry) strayObject strayInfo)) := by
  have stabs : loadedStabs (stabsOf exampleSystem (fun _ entry => entry) strayObject strayInfo) = [.funEnd 0x10] := by
    decide +kernel
  refine ⟨by decide +kernel, ?_⟩
  rw [stabs]
  exact fun begun => Bool.false_ne_true begun.1

/-- A stray end unwraps an optional that holds nothing, and a doubled one gives a function that was
given before, without its name. -/
theorem getDebugMap_strays :
    ¬ MapCorrect (stabsOf exampleSystem (fun _ entry => entry) strayObject strayInfo)
        (getDebugMap exampleSystem id (fun _ entry => entry) strayObject (fun _ => []) ⟨false, none⟩).1 ∧
      (getDebugMap exampleSystem id (fun _ entry => entry) doubledObject (fun _ => []) ⟨false, none⟩).1.map
        (·.lookup []) =
        .ok (some [⟨0x100, 0x10, ['f']⟩, ⟨0x100, 0x10, []⟩]) := by
  refine ⟨fun correct => ?_, by decide +kernel⟩
  obtain ⟨loaded, unbegun⟩ := handleStabs_stray
  rw [getDebugMap_apply _ _ _ _ _ _ _ loaded] at correct
  exact unbegun ((mapCorrect_iff _ _ (stabsOf_begins _ _ _ _)).mp correct).1

end Examples

end Cpptrace.Binary.MachO
