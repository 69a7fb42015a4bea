import Cpptrace.Library.Command
import Cpptrace.Library.SortedLookup
import Cpptrace.Utils.BaseFile
import Cpptrace.Utils.Byteswap

/-! `elf`: the headers, string tables and symbol tables of an object, each loaded once.

The members of an object that never change are an `Object`; what has been loaded
so far is an `Elf`. A method is a command over the part of an `Elf` that it can
change. An error `Result` of a method is a failure of its command, and `attempt`
is a test of one.
-/

set_option autoImplicit false

namespace Cpptrace.Binary

open Library Utils

section Layout

/-- A member of a structure of `elf.h`: where it lies and how many bytes it has. -/
structure Member where
  offset : Nat
  size : Nat
  deriving DecidableEq, Repr

def Member.bytes (struct : Bytes) (member : Member) : Bytes := (struct.drop member.offset).take member.size

def Member.value (littleEndian : Bool) (struct : Bytes) (member : Member) : Nat :=
  valueOf littleEndian (member.bytes struct)

namespace Ehdr

def sizeOf (is64 : Bool) : Nat := if is64 then 64 else 52

def ePhoff (is64 : Bool) : Member := if is64 then ⟨32, 8⟩ else ⟨28, 4⟩
def eShoff (is64 : Bool) : Member := if is64 then ⟨40, 8⟩ else ⟨32, 4⟩
def eEhsize (is64 : Bool) : Member := if is64 then ⟨52, 2⟩ else ⟨40, 2⟩
def ePhentsize (is64 : Bool) : Member := if is64 then ⟨54, 2⟩ else ⟨42, 2⟩
def ePhnum (is64 : Bool) : Member := if is64 then ⟨56, 2⟩ else ⟨44, 2⟩
def eShentsize (is64 : Bool) : Member := if is64 then ⟨58, 2⟩ else ⟨46, 2⟩
def eShnum (is64 : Bool) : Member := if is64 then ⟨60, 2⟩ else ⟨48, 2⟩
def eShstrndx (is64 : Bool) : Member := if is64 then ⟨62, 2⟩ else ⟨50, 2⟩

end Ehdr

namespace Phdr

def sizeOf (is64 : Bool) : Nat := if is64 then 56 else 32

def pType : Member := ⟨0, 4⟩
def pOffset (is64 : Bool) : Member := if is64 then ⟨8, 8⟩ else ⟨4, 4⟩
def pVaddr (is64 : Bool) : Member := if is64 then ⟨16, 8⟩ else ⟨8, 4⟩

end Phdr

namespace Shdr

def sizeOf (is64 : Bool) : Nat := if is64 then 64 else 40

def shName : Member := ⟨0, 4⟩
def shType : Member := ⟨4, 4⟩
def shAddr (is64 : Bool) : Member := if is64 then ⟨16, 8⟩ else ⟨12, 4⟩
def shOffset (is64 : Bool) : Member := if is64 then ⟨24, 8⟩ else ⟨16, 4⟩
def shSize (is64 : Bool) : Member := if is64 then ⟨32, 8⟩ else ⟨20, 4⟩
def shLink (is64 : Bool) : Member := if is64 then ⟨40, 4⟩ else ⟨24, 4⟩
def shEntsize (is64 : Bool) : Member := if is64 then ⟨56, 8⟩ else ⟨36, 4⟩

end Shdr

namespace Sym

def sizeOf (is64 : Bool) : Nat := if is64 then 24 else 16

def stName : Member := ⟨0, 4⟩
def stInfo (is64 : Bool) : Member := if is64 then ⟨4, 1⟩ else ⟨12, 1⟩
def stOther (is64 : Bool) : Member := if is64 then ⟨5, 1⟩ else ⟨13, 1⟩
def stShndx (is64 : Bool) : Member := if is64 then ⟨6, 2⟩ else ⟨14, 2⟩
def stValue (is64 : Bool) : Member := if is64 then ⟨8, 8⟩ else ⟨4, 4⟩
def stSize (is64 : Bool) : Member := if is64 then ⟨16, 8⟩ else ⟨8, 4⟩

end Sym

end Layout

section Data

structure HeaderInfo where
  ePhoff : UInt64
  ePhnum : UInt32
  ePhentsize : UInt32
  eShoff : UInt64
  eShnum : UInt32
  eShentsize : UInt32
  eShstrndx : UInt16
  deriving DecidableEq, Repr

structure SectionInfo where
  shName : UInt32
  shType : UInt32
  shAddr : UInt64
  shOffset : UInt64
  shSize : UInt64
  shEntsize : UInt64
  shLink : UInt32
  deriving DecidableEq, Repr

structure StrtabEntry where
  triedToLoadStrtab : Bool
  didLoadStrtab : Bool
  data : Bytes
  deriving DecidableEq, Repr

structure SymtabEntry where
  stName : UInt32
  stInfo : UInt8
  stOther : UInt8
  stShndx : UInt16
  stValue : UInt64
  stSize : UInt64
  deriving DecidableEq, Repr

structure SymtabInfo where
  entries : List SymtabEntry
  strtabLink : Nat
  deriving DecidableEq, Repr

structure SymtabState where
  triedToLoad : Bool
  didLoad : Bool
  symtab : Option SymtabInfo
  deriving DecidableEq, Repr

structure PcRange where
  low : FramePtr
  high : FramePtr
  deriving DecidableEq, Repr

structure SymbolEntry where
  stName : Text
  stShndx : UInt16
  stValue : UInt64
  stSize : UInt64
  deriving DecidableEq, Repr

def ptPhdr : UInt32 := 6
def shtSymtab : UInt32 := 2
def shtStrtab : UInt32 := 3
def shtDynsym : UInt32 := 11
def shnUndef : Nat := 0

/-- `sizeof(symtab_entry)`, which does not depend on the class of the object. -/
def symtabEntrySize : Nat := 24

end Data

/-- What the code runs on: the byte order, the most bytes that an allocation gets, and a `std::sort`. -/
structure Platform where
  isLittleEndian : Bool
  memory : Nat
  bounded : memory < 0x8000000000000000
  sort : ∀ entries, Sorting SymtabEntry.stValue entries

structure Object where
  file : BaseFile
  isLittleEndian : Bool
  is64 : Bool

def rejectIf (condition : Bool) (message : String) : Except Failure Unit :=
  if condition then throw (internalError message) else pure ()

namespace Object

def openFile (file : BaseFile) : Except Failure Object := do
  let magic ← file.read 4 0
  rejectIf (magic ≠ [0x7f, 0x45, 0x4c, 0x46]) s!"File is not ELF {file.path}"
  let eiClass ← file.read 1 4
  let eiData ← file.read 1 5
  let eiVersion ← file.read 1 6
  rejectIf (eiVersion ≠ [1]) s!"Unexpected ELF version {file.path}"
  return ⟨file, eiData = [1], eiClass = [2]⟩

end Object

section Reading

variable (platform : Platform) (object : Object)

def byteswapIfNeeded (size value : Nat) : Nat :=
  if platform.isLittleEndian = object.isLittleEndian then value else byteswap size value

/-- A member of a structure that was read into memory, after `byteswap_if_needed`. -/
def field (struct : Bytes) (member : Member) : Nat :=
  byteswapIfNeeded platform object member.size (member.value platform.isLittleEndian struct)

section Infos

variable (is64 : Bool) (value : Member → Nat)

/-- The members that a getter keeps, from their values after `byteswap_if_needed`. -/
def headerInfo : HeaderInfo where
  ePhoff := (value (Ehdr.ePhoff is64)).toUInt64
  ePhnum := (value (Ehdr.ePhnum is64)).toUInt32
  ePhentsize := (value (Ehdr.ePhentsize is64)).toUInt32
  eShoff := (value (Ehdr.eShoff is64)).toUInt64
  eShnum := (value (Ehdr.eShnum is64)).toUInt32
  eShentsize := (value (Ehdr.eShentsize is64)).toUInt32
  eShstrndx := (value (Ehdr.eShstrndx is64)).toUInt16

def sectionInfo : SectionInfo where
  shName := (value Shdr.shName).toUInt32
  shType := (value Shdr.shType).toUInt32
  shAddr := (value (Shdr.shAddr is64)).toUInt64
  shOffset := (value (Shdr.shOffset is64)).toUInt64
  shSize := (value (Shdr.shSize is64)).toUInt64
  shEntsize := (value (Shdr.shEntsize is64)).toUInt64
  shLink := (value (Shdr.shLink is64)).toUInt32

def symtabEntry : SymtabEntry where
  stName := (value Sym.stName).toUInt32
  stInfo := (value (Sym.stInfo is64)).toUInt8
  stOther := (value (Sym.stOther is64)).toUInt8
  stShndx := (value (Sym.stShndx is64)).toUInt16
  stValue := (value (Sym.stValue is64)).toUInt64
  stSize := (value (Sym.stSize is64)).toUInt64

end Infos

/-- `get_header_info_impl`, up to where the header is kept. -/
def readHeader : Except Failure HeaderInfo := do
  let is64 := object.is64
  let fileHeader ← object.file.read (Ehdr.sizeOf is64) 0
  -- the one member that is compared as it was read
  rejectIf ((Ehdr.eEhsize is64).value platform.isLittleEndian fileHeader ≠ Ehdr.sizeOf is64)
    s!"ELF file header size mismatch {object.file.path}"
  return headerInfo is64 (field platform object fileHeader)

/-- One turn of the loop of `get_sections_impl`. -/
def readSection (header : HeaderInfo) (i : Nat) : Except Failure SectionInfo := do
  let is64 := object.is64
  let sectionHeader ← object.file.read (Shdr.sizeOf is64)
    (header.eShoff + (header.eShentsize * i.toUInt32).toUInt64)
  return sectionInfo is64 (field platform object sectionHeader)

def allocate (size : Nat) : Except Failure Unit :=
  if size ≤ platform.memory then pure () else throw .allocation

/-- The data of the string table with that section index, behind the flags of `get_strtab`. -/
def readStrtab (sections : List SectionInfo) (index : Nat) : Except Failure Bytes :=
  match sections[index]? with
  | none => throw (internalError "requested strtab section index out of range")
  | some info => do
    let path := object.file.path
    rejectIf (info.shType ≠ shtStrtab) s!"requested strtab section not a strtab (requested {index} of {path})"
    -- one more, for a terminating null
    let size := (info.shSize + 1).toNat
    allocate platform size
    let data ← object.file.readBytes size info.shSize.toNat info.shOffset
    return data ++ [0]

def isSymtab (dynamic : Bool) (info : SectionInfo) : Bool :=
  info.shType = if dynamic then shtDynsym else shtSymtab

def elements (size count : Nat) (buffer : Bytes) : List Bytes :=
  (List.range count).map fun i => (buffer.drop (i * size)).take size

/-- `get_symtab_impl` for the sections. Symbols without a size are left out. -/
def readSymtab (sections : List SectionInfo) (dynamic : Bool) : Except Failure (Option SymtabInfo) :=
  match sections.find? (isSymtab dynamic) with
  | none => return none
  | some info => do
    let path := object.file.path
    let entsize := Sym.sizeOf object.is64
    let size := info.shSize.toNat
    rejectIf (info.shEntsize.toNat ≠ entsize) s!"elf seems corrupted, sym entry mismatch {path}"
    rejectIf (size % entsize ≠ 0) s!"elf seems corrupted, sym entry vs section size mismatch {path}"
    allocate platform size
    let buffer ← object.file.read size info.shOffset
    allocate platform (size / entsize * symtabEntrySize)
    let entries := (elements entsize (size / entsize) buffer).map fun entry =>
      symtabEntry object.is64 (field platform object entry)
    return some ⟨(platform.sort (entries.filter fun entry => entry.stSize ≠ 0)).sorted, info.shLink.toNat⟩

/-- `p_vaddr - p_offset`, which has the width of the class. -/
def baseOf (is64 : Bool) (value : Member → Nat) : UInt64 :=
  let pVaddr := value (Phdr.pVaddr is64)
  let pOffset := value (Phdr.pOffset is64)
  if is64 then pVaddr.toUInt64 - pOffset.toUInt64 else (pVaddr.toUInt32 - pOffset.toUInt32).toUInt64

/-- `get_module_image_base_impl` from a program header on. -/
def imageBaseFrom (header : HeaderInfo) : List Nat → Except Failure UInt64
  | [] => return 0
  | i :: rest => do
    let is64 := object.is64
    let programHeader ← object.file.read (Phdr.sizeOf is64)
      (header.ePhoff + (header.ePhentsize * i.toUInt32).toUInt64)
    let value := field platform object programHeader
    if (value Phdr.pType).toUInt32 = ptPhdr then return baseOf is64 value
    else imageBaseFrom header rest

/-- The `std::string` from an index of a table on, which has to lie in the table. -/
def stringAt (strtab : Bytes) (index : Nat) : Except Failure Text :=
  if index < strtab.length then
    pure (((strtab.drop index).takeWhile (· ≠ 0)).map fun byte => Char.ofNat byte.toNat)
  else throw .outsideTable

/-- The loop of `get_pc_ranges`. -/
def pcRangesOf (strtab : Bytes) : List SectionInfo → Except Failure (List PcRange)
  | [] => return []
  | info :: rest => do
    let name ← stringAt strtab info.shName.toNat
    let ranges ← pcRangesOf strtab rest
    if name = ".text".toList then
      return ⟨info.shAddr, info.shAddr + info.shSize⟩ :: ranges
    else return ranges

def nameOf (strtab : Option Bytes) (entry : SymtabEntry) : Except Failure Text :=
  match strtab with
  | some strtab => stringAt strtab entry.stName.toNat
  | none => pure "<strtab error>".toList

/-- The loop of `resolve_symtab_entries`. -/
def resolveEntries (strtab : Option Bytes) : List SymtabEntry → Except Failure (List SymbolEntry)
  | [] => return []
  | entry :: rest => do
    let name ← nameOf strtab entry
    let entries ← resolveEntries strtab rest
    return ⟨name, entry.stShndx, entry.stValue, entry.stSize⟩ :: entries

/-- The search of `lookup_symbol`. -/
def findSymbol (pc : FramePtr) (entries : List SymtabEntry) (strtab : Bytes) : Except Failure (Option Text) :=
  match firstLessThanOrEqual SymtabEntry.stValue pc entries with
  | none => return none
  | some entry => do
    if pc ≤ entry.stValue + entry.stSize then
      let name ← stringAt strtab entry.stName.toNat
      return some name
    else return none

end Reading

section State

structure HeaderState where
  triedToLoadHeader : Bool
  header : Option HeaderInfo

structure SectionState extends HeaderState where
  triedToLoadSections : Bool
  didLoadSections : Bool
  sections : List SectionInfo

/-- `symtabs` has the dynamic table under `true`. -/
structure Elf extends SectionState where
  strtabEntries : Nat → Option StrtabEntry
  symtabs : (dynamic : Bool) → SymtabState

def Elf.new : Elf where
  triedToLoadHeader := false
  header := none
  triedToLoadSections := false
  didLoadSections := false
  sections := []
  strtabEntries _ := none
  symtabs _ := ⟨false, false, none⟩

variable {α : Type}

def onHeader (command : Command Failure HeaderState α) : Command Failure SectionState α :=
  onPart SectionState.toHeaderState (fun state part => { state with toHeaderState := part }) command

def onSections (command : Command Failure SectionState α) : Command Failure Elf α :=
  onPart Elf.toSectionState (fun elf part => { elf with toSectionState := part }) command

def setStrtab (index : Nat) (entry : StrtabEntry) : Command Failure Elf Unit :=
  modify fun elf => { elf with strtabEntries := Function.update elf.strtabEntries index (some entry) }

def setSymtab (dynamic : Bool) (table : SymtabState) : Command Failure Elf Unit :=
  modify fun elf => { elf with symtabs := Function.update elf.symtabs dynamic table }

/-- A `Result` that is looked at: an error of it is dropped, an exception is not. -/
def attempt (command : Command Failure Elf α) : Command Failure Elf (Option α) := fun elf =>
  match command elf with
  | (.ok value, elf) => (.ok (some value), elf)
  | (.error (.internalError _), elf) => (.ok none, elf)
  | (.error failure, elf) => (.error failure, elf)

end State

section Loading

variable (platform : Platform) (object : Object)

def getHeaderInfo : Command Failure HeaderState HeaderInfo := do
  let state ← get
  match state.header with
  | some header => return header
  | none =>
    if state.triedToLoadHeader then throw (internalError s!"previous header load failed {object.file.path}")
    else
      modify fun state => { state with triedToLoadHeader := true }
      let info ← MonadExcept.ofExcept (readHeader platform object)
      modify fun state => { state with header := some info }
      return info

/-- The loop of `get_sections_impl`. A failure leaves the sections before it in the vector. -/
def pushSections (header : HeaderInfo) : List Nat → Command Failure SectionState Unit
  | [] => return ()
  | i :: rest => do
    let info ← MonadExcept.ofExcept (readSection platform object header i)
    modify fun state => { state with sections := state.sections ++ [info] }
    pushSections header rest

def getSections : Command Failure SectionState (List SectionInfo) := do
  let state ← get
  if state.didLoadSections then return state.sections
  else if state.triedToLoadSections then throw (internalError s!"previous sections load failed {object.file.path}")
  else
    modify fun state => { state with triedToLoadSections := true }
    let header ← onHeader (getHeaderInfo platform object)
    pushSections platform object header (List.range header.eShnum.toNat)
    modify fun state => { state with didLoadSections := true }
    return (← get).sections

/-- The load of `get_strtab`. What a failed one leaves in `data` is never looked at. -/
def loadStrtab (index : Nat) : Command Failure Elf Bytes := do
  setStrtab index ⟨true, false, []⟩
  let sections ← onSections (getSections platform object)
  let data ← MonadExcept.ofExcept (readStrtab platform object sections index)
  setStrtab index ⟨true, true, data⟩
  return data

def getStrtab (index : Nat) : Command Failure Elf Bytes := do
  match (← get).strtabEntries index with
  | none => loadStrtab platform object index
  | some entry =>
    if entry.didLoadStrtab then return entry.data
    else if entry.triedToLoadStrtab then throw (internalError s!"previous strtab load failed {object.file.path}")
    else loadStrtab platform object index

/-- `get_symtab` and `get_dynamic_symtab`, which differ in the table and in a message. -/
def getSymtabWhere (dynamic : Bool) (kind : String) : Command Failure Elf (Option SymtabInfo) := do
  let table := (← get).symtabs dynamic
  if table.didLoad then return table.symtab
  else if table.triedToLoad then throw (internalError s!"previous {kind} load failed {object.file.path}")
  else
    setSymtab dynamic ⟨true, false, none⟩
    let sections ← onSections (getSections platform object)
    let symtab ← MonadExcept.ofExcept (readSymtab platform object sections dynamic)
    setSymtab dynamic ⟨true, true, symtab⟩
    return symtab

def getSymtab : Command Failure Elf (Option SymtabInfo) := getSymtabWhere platform object false "symtab"

def getDynamicSymtab : Command Failure Elf (Option SymtabInfo) := getSymtabWhere platform object true "dynamic symtab"

end Loading

section Queries

variable (platform : Platform) (object : Object)

def getModuleImageBase : Command Failure Elf UInt64 := do
  let header ← onSections (onHeader (getHeaderInfo platform object))
  MonadExcept.ofExcept (imageBaseFrom platform object header (List.range header.ePhnum.toNat))

def lookupSymbolIn (pc : FramePtr) (maybeSymtab : Option SymtabInfo) : Command Failure Elf (Option Text) := do
  match maybeSymtab with
  | none => return none
  | some symtab =>
    if symtab.strtabLink = shnUndef then return none
    else
      match ← attempt (getStrtab platform object symtab.strtabLink) with
      | none => return none
      | some strtab => MonadExcept.ofExcept (findSymbol pc symtab.entries strtab)

/-- One of the two halves of `lookup_symbol`. -/
def lookupSymbolThrough (symtab : Command Failure Elf (Option SymtabInfo)) (pc : FramePtr) :
    Command Failure Elf (Option Text) := do
  match ← attempt symtab with
  | some symtab => lookupSymbolIn platform object pc symtab
  | none => return none

def lookupSymbol (pc : FramePtr) : Command Failure Elf (Option Text) := do
  match ← lookupSymbolThrough platform object (getSymtab platform object) pc with
  | some symbol => return some symbol
  | none => lookupSymbolThrough platform object (getDynamicSymtab platform object) pc

def getPcRanges : Command Failure Elf (List PcRange) := do
  let header ← onSections (onHeader (getHeaderInfo platform object))
  let strtab ← getStrtab platform object header.eShstrndx.toNat
  let sections ← onSections (getSections platform object)
  MonadExcept.ofExcept (pcRangesOf strtab sections)

def resolveSymtabEntries (symtab : Command Failure Elf (Option SymtabInfo)) :
    Command Failure Elf (Option (List SymbolEntry)) := do
  match ← symtab with
  | none => return none
  | some info =>
    if info.strtabLink = shnUndef then
      let entries ← MonadExcept.ofExcept (resolveEntries none info.entries)
      return some entries
    else
      let strtab ← getStrtab platform object info.strtabLink
      let entries ← MonadExcept.ofExcept (resolveEntries (some strtab) info.entries)
      return some entries

def getSymtabEntries : Command Failure Elf (Option (List SymbolEntry)) :=
  resolveSymtabEntries platform object (getSymtab platform object)

def getDynamicSymtabEntries : Command Failure Elf (Option (List SymbolEntry)) :=
  resolveSymtabEntries platform object (getDynamicSymtab platform object)

inductive Query where
  | getModuleImageBase
  | lookupSymbol (pc : FramePtr)
  | getPcRanges
  | getSymtabEntries
  | getDynamicSymtabEntries
  deriving DecidableEq, Repr

inductive Answer where
  | imageBase (base : UInt64)
  | symbol (name : Option Text)
  | pcRanges (ranges : List PcRange)
  | entries (entries : Option (List SymbolEntry))
  deriving DecidableEq, Repr

def ask : Query → Command Failure Elf Answer
  | .getModuleImageBase => Answer.imageBase <$> getModuleImageBase platform object
  | .lookupSymbol pc => Answer.symbol <$> lookupSymbol platform object pc
  | .getPcRanges => Answer.pcRanges <$> getPcRanges platform object
  | .getSymtabEntries => Answer.entries <$> getSymtabEntries platform object
  | .getDynamicSymtabEntries => Answer.entries <$> getDynamicSymtabEntries platform object

def step (query : Query) (elf : Elf) : Except Failure Answer × Elf := ask platform object query elf

end Queries

section Images

def littleHost : Platform where
  isLittleEndian := true
  memory := 0x7fffffffffffffff
  bounded := by decide
  sort := Sorting.inserted SymtabEntry.stValue

/-- A little endian number of that many bytes, from the low ones that are not zero. -/
def padded (size : Nat) (low : Bytes) : Bytes := low ++ List.replicate (size - low.length) 0

def header64 (eShnum eShstrndx : UInt8) : Bytes :=
  padded 40 [0x7f, 0x45, 0x4c, 0x46, 2, 1, 1] ++ padded 12 [64] ++ padded 2 [64] ++ padded 2 [56] ++ padded 2 [] ++
    padded 2 [64] ++ padded 2 [eShnum] ++ padded 2 [eShstrndx]

def section64 (shName shType : UInt8) (shOffset shSize : Bytes) (shLink shEntsize : UInt8) : Bytes :=
  padded 4 [shName] ++ padded 20 [shType] ++ padded 8 shOffset ++ padded 8 shSize ++ padded 16 [shLink] ++
    padded 8 [shEntsize]

def imageOf (data : Bytes) (small : data.length < 0x8000000000000000) : Object :=
  ⟨⟨.memory, "", data, small⟩, true, true⟩

/-- A table with a symbol at 0, and behind it the table with its name, `f`. -/
def namedData : Bytes :=
  header64 2 0 ++ section64 0 2 [192] [24] 1 24 ++ section64 0 3 [216] [3] 0 0 ++ padded 16 [1] ++ padded 8 [1] ++
    [0, 0x66, 0]

theorem namedData_small : namedData.length < 0x8000000000000000 := by decide +kernel

def symtabSection : SectionInfo where
  shName := 0
  shType := shtSymtab
  shAddr := 0
  shOffset := 192
  shSize := 24
  shEntsize := 24
  shLink := 1

def strtabSection : SectionInfo where
  shName := 0
  shType := shtStrtab
  shAddr := 0
  shOffset := 216
  shSize := 3
  shEntsize := 0
  shLink := 0

end Images

end Cpptrace.Binary
