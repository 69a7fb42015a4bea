import Cpptrace.Dwarf.Ranges

/-! Debugging information entries, with the addresses they cover.

An entry holds what libdwarf reads of it: the attributes that give its ranges
and its children. Errors of libdwarf, which end a lookup with an exception, are
left out.
-/

set_option autoImplicit false

namespace Cpptrace.Dwarf

inductive Tag where
  | compileUnit
  | skeletonUnit
  | subprogram
  | inlinedSubroutine
  | lexicalBlock
  | nameSpace
  | structureType
  | classType
  | module
  | importedModule
  | other (code : Nat)
  deriving DecidableEq, Repr

/-- The class of a `DW_AT_high_pc`: an address, or an offset from the low pc. -/
inductive FormClass where
  | address
  | constant
  deriving DecidableEq, Repr

structure HighPc where
  value : FramePtr
  formClass : FormClass
  deriving DecidableEq, Repr

/-- The kinds of a `.debug_rnglists` entry. -/
inductive RangeListEntryKind where
  | endOfList
  | baseAddressx
  | startxEndx
  | startxLength
  | offsetPair
  | baseAddress
  | startEnd
  | startLength
  deriving DecidableEq, Repr

/-- A `.debug_rnglists` entry, with its addresses as libdwarf cooks them. -/
structure RangeListEntry where
  kind : RangeListEntryKind
  unavailable : Bool
  cooked1 : FramePtr
  cooked2 : FramePtr
  deriving DecidableEq, Repr

inductive RangesEntryType where
  | entry
  | addressSelection
  | end
  deriving DecidableEq, Repr

structure RangesEntry where
  type : RangesEntryType
  addr1 : FramePtr
  addr2 : FramePtr
  deriving DecidableEq, Repr

/-- What a `DW_AT_ranges` refers to in each of the two sections. An entry that libdwarf
does not have is `none`. -/
structure RangeList where
  rnglists : List (Option RangeListEntry)
  ranges : List RangesEntry
  deriving DecidableEq, Repr

structure RangeAttributes where
  lowPc : Option FramePtr
  highPc : Option HighPc
  ranges : Option RangeList
  deriving DecidableEq, Repr

inductive Die where
  | node (offset : Nat) (tag : Tag) (attributes : RangeAttributes) (children : List Die)
  deriving Repr

namespace Die

def tag : Die → Tag
  | node _ tag _ _ => tag

def attributes : Die → RangeAttributes
  | node _ _ attributes _ => attributes

def children : Die → List Die
  | node _ _ _ children => children

end Die

structure CompileUnit where
  die : Die
  version : Nat
  deriving Repr

/-- The addresses of an entry of `.debug_rnglists`, when it has any. -/
def RangeListEntry.range (entry : RangeListEntry) : Option Range :=
  if entry.unavailable then none
  else
    match entry.kind with
    | .endOfList | .baseAddress | .baseAddressx => none
    | .offsetPair | .startxEndx | .startEnd | .startxLength | .startLength =>
        some ⟨entry.cooked1, entry.cooked2⟩

def dwarf5Ranges (attributes : RangeAttributes) : List Range :=
  match attributes.ranges with
  | none => []
  | some list => list.rnglists.filterMap fun entry => entry.bind RangeListEntry.range

/-- The entries of `.debug_ranges` under a base address, which they can change. -/
def dwarf4Entries (baseOriginal : FramePtr) : FramePtr → List RangesEntry → List Range
  | _, [] => []
  | base, entry :: rest =>
      match entry.type with
      | .entry => ⟨base + entry.addr1, base + entry.addr2⟩ :: dwarf4Entries baseOriginal base rest
      | .addressSelection => dwarf4Entries baseOriginal entry.addr2 rest
      | .end => dwarf4Entries baseOriginal baseOriginal rest

def dwarf4Ranges (base : FramePtr) (attributes : RangeAttributes) : List Range :=
  match attributes.ranges with
  | none => []
  | some list => dwarf4Entries base base list.ranges

/-- The low pc of the DIE if it has a range list, else that of the unit, else 0. -/
def getRangesBaseAddress (cu : CompileUnit) (attributes : RangeAttributes) : FramePtr :=
  match attributes.ranges, attributes.lowPc with
  | some _, some lowPc => lowPc
  | _, _ => cu.die.attributes.lowPc.getD 0

def pcRange (attributes : RangeAttributes) : List Range :=
  match attributes.lowPc, attributes.highPc with
  | some lowPc, some highPc =>
      [⟨lowPc, if highPc.formClass = .constant then highPc.value + lowPc else highPc.value⟩]
  | _, _ => []

/-- The ranges that `dwarf_ranges` hands to its callback, in order. -/
def dwarfRanges (cu : CompileUnit) (die : Die) : List Range :=
  pcRange die.attributes ++
    if cu.version ≥ 5 then dwarf5Ranges die.attributes
    else dwarf4Ranges (getRangesBaseAddress cu die.attributes) die.attributes

def getRangelistEntries (cu : CompileUnit) (die : Die) : List Range :=
  coalesce (dwarfRanges cu die)

def pcInDie (cu : CompileUnit) (die : Die) (pc : FramePtr) : Bool :=
  (dwarfRanges cu die).any fun range => range.contains pc

theorem pcInDie_iff (cu : CompileUnit) (die : Die) (pc : FramePtr) :
    pcInDie cu die pc = true ↔ ∃ range ∈ dwarfRanges cu die, range.contains pc = true := by
  simp [pcInDie]

section Walks

variable {Entry State : Type}

/-- The loop of `walk_die_list` over the siblings of the first DIE. -/
def walkSiblings (fn : Entry → State → Except Exception (Bool × State)) :
    List Entry → State → Except Exception (Bool × State)
  | [], state => pure (true, state)
  | entry :: rest, state => do
      let (goOn, state) ← fn entry state
      if goOn then walkSiblings fn rest state else pure (false, state)

/-- `walk_die_list`: the answer for the first DIE decides whether its siblings are
visited, and is not passed on. -/
def walkDieList (fn : Entry → State → Except Exception (Bool × State)) (first : Entry)
    (siblings : List Entry) (state : State) : Except Exception (Bool × State) := do
  let (goOn, state) ← fn first state
  if goOn then walkSiblings fn siblings state else pure (true, state)

def walkCompilationUnits (fn : Entry → State → Except Exception (Bool × State)) :
    List Entry → State → Except Exception State
  | [], state => pure state
  | cu :: rest, state => do
      let (goOn, state) ← walkDieList fn cu [] state
      if goOn then walkCompilationUnits fn rest state else pure state

theorem walkCompilationUnits_cons (fn : Entry → State → Except Exception (Bool × State)) (cu : Entry)
    (rest : List Entry) (state : State) :
    walkCompilationUnits fn (cu :: rest) state =
      fn cu state >>= fun answer => walkCompilationUnits fn rest answer.2 := by
  simp only [walkCompilationUnits, walkDieList, walkSiblings]
  cases fn cu state with
  | error exception => rfl
  | ok answer =>
    obtain ⟨goOn, next⟩ := answer
    cases goOn <;> rfl

end Walks

end Cpptrace.Dwarf
