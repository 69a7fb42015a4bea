import Cpptrace.Library.Command
import Cpptrace.Utils.BaseFile
import Cpptrace.Utils.Byteswap

/-! `mach_o::open`: the header and the load commands of a Mach-O, or of one slice of a fat one.

What comes with the system is a parameter: the functions that swap the bytes of a
structure, and the choice of an architecture. Members that no load has set are not known.
-/

set_option autoImplicit false

namespace Cpptrace.Binary.MachO

open Library Library.Outcome Utils

section Layout

def fatMagic : UInt32 := 0xcafebabe
def fatCigam : UInt32 := 0xbebafeca
def mhMagic : UInt32 := 0xfeedface
def mhCigam : UInt32 := 0xcefaedfe
def mhMagic64 : UInt32 := 0xfeedfacf
def mhCigam64 : UInt32 := 0xcffaedfe

structure MachHeader where
  magic : UInt32
  cputype : UInt32
  cpusubtype : UInt32
  filetype : UInt32
  ncmds : UInt32
  sizeofcmds : UInt32
  flags : UInt32
  deriving DecidableEq, Repr

structure LoadCommand where
  cmd : UInt32
  cmdsize : UInt32
  deriving DecidableEq, Repr

structure FatHeader where
  magic : UInt32
  nfatArch : UInt32
  deriving DecidableEq, Repr

structure FatArch where
  cputype : UInt32
  cpusubtype : UInt32
  offset : UInt32
  size : UInt32
  align : UInt32
  deriving DecidableEq, Repr

def machHeaderSize (is64 : Bool) : Nat := if is64 then 32 else 28

def loadCommandSize : Nat := 8

def fatHeaderSize : Nat := 8

def fatArchSize : Nat := 20

end Layout

/-- The system: its byte order, the types in the header of the running program, and what
`mach-o/swap.h` and `NXFindBestFatArch` do. A chosen architecture is one of the list. -/
structure System where
  isLittleEndian : Bool
  cputype : UInt32
  cpusubtype : UInt32
  swapMachHeader : (is64 : Bool) → MachHeader → MachHeader
  swapLoadCommand : LoadCommand → LoadCommand
  swapFatHeader : FatHeader → FatHeader
  swapFatArch : FatArch → FatArch
  findBestFatArch : (cputype cpusubtype : UInt32) → (archs : List FatArch) → Option (Fin archs.length)
  /-- What a vector can be reserved for. -/
  memory : Nat

structure LoadCommandEntry where
  fileOffset : UInt32
  cmd : UInt32
  cmdsize : UInt32
  deriving DecidableEq, Repr

structure HeaderMembers where
  cputype : UInt32
  cpusubtype : UInt32
  filetype : UInt32
  nLoadCommands : UInt32
  sizeofLoadCommands : UInt32
  flags : UInt32
  deriving DecidableEq, Repr

structure Object where
  file : BaseFile
  magic : UInt32
  members : Option HeaderMembers
  bits : Nat
  loadBase : UInt64
  fatIndex : UInt64
  loadCommands : List LoadCommandEntry

section Magic

def isMachO (magic : UInt32) : Bool :=
  magic = fatMagic || magic = fatCigam || magic = mhMagic || magic = mhCigam || magic = mhMagic64 || magic = mhCigam64

def isFatMagic (magic : UInt32) : Bool := magic = fatMagic || magic = fatCigam

def isMagic64 (magic : UInt32) : Bool := magic = mhMagic64 || magic = mhCigam64

def shouldSwapBytes (magic : UInt32) : Bool := magic = mhCigam || magic = mhCigam64 || magic = fatCigam

end Magic

section Reading

variable (system : System)

def word (struct : Bytes) (index : Nat) : UInt32 :=
  (valueOf system.isLittleEndian ((struct.drop (4 * index)).take 4)).toUInt32

def readMagic (file : BaseFile) (offset : UInt64) : Except Failure UInt32 := do
  let struct ← file.read 4 offset
  return word system struct 0

def readHeader (file : BaseFile) (is64 : Bool) (loadBase : UInt64) : Except Failure (UInt32 × MachHeader) := do
  let struct ← file.read (machHeaderSize is64) loadBase
  let field := word system struct
  let header : MachHeader := ⟨field 0, field 1, field 2, field 3, field 4, field 5, field 6⟩
  return (header.magic, if shouldSwapBytes header.magic then system.swapMachHeader is64 header else header)

def readLoadCommand (file : BaseFile) (swap : Bool) (offset : UInt32) : Except Failure LoadCommand := do
  let struct ← file.read loadCommandSize offset.toUInt64
  let command : LoadCommand := ⟨word system struct 0, word system struct 1⟩
  return if swap then system.swapLoadCommand command else command

def readFatHeader (file : BaseFile) (swap : Bool) : Except Failure FatHeader := do
  let struct ← file.read fatHeaderSize 0
  let header : FatHeader := ⟨word system struct 0, word system struct 1⟩
  return if swap then system.swapFatHeader header else header

def readFatArch (file : BaseFile) (swap : Bool) (offset : UInt64) : Except Failure FatArch := do
  let struct ← file.read fatArchSize offset
  let field := word system struct
  let arch : FatArch := ⟨field 0, field 1, field 2, field 3, field 4⟩
  return if swap then system.swapFatArch arch else arch

/-- The loop of `load_fat_mach` over the table of architectures. -/
def readFatArchs (file : BaseFile) (swap : Bool) : (count : Nat) → (offset : UInt64) → Except Failure (List FatArch)
  | 0, _ => return []
  | count + 1, offset => do
    let arch ← readFatArch system file swap offset
    let archs ← readFatArchs file swap count (offset + fatArchSize.toUInt64)
    return arch :: archs

end Reading

section Loading

variable (system : System)

/-- The loop of `load_mach`. -/
def pushLoadCommands : (count : Nat) → (actualOffset : UInt32) → Command Failure Object Unit
  | 0, _ => return ()
  | count + 1, actualOffset => do
    let object ← get
    let command ← MonadExcept.ofExcept
      (readLoadCommand system object.file (shouldSwapBytes object.magic) actualOffset)
    let entry : LoadCommandEntry := ⟨actualOffset, command.cmd, command.cmdsize⟩
    modify fun object => { object with loadCommands := object.loadCommands ++ [entry] }
    pushLoadCommands count (actualOffset + command.cmdsize)

def loadMach (is64 : Bool) : Command Failure Object Unit := do
  modify fun object => { object with bits := if is64 then 64 else 32 }
  let object ← get
  let (magic, header) ← MonadExcept.ofExcept (readHeader system object.file is64 object.loadBase)
  let members : HeaderMembers :=
    ⟨header.cputype, header.cpusubtype, header.filetype, header.ncmds, header.sizeofcmds, header.flags⟩
  -- the magic of a slice takes the place of that of the fat file
  modify fun object => { object with magic := magic, members := some members }
  pushLoadCommands system header.ncmds.toNat (object.loadBase + (machHeaderSize is64).toUInt64).toUInt32

/-- What `load_fat_mach` finds before it loads: the table of architectures and the chosen one. -/
def chooseArch (object : Object) : Except Failure (FatArch × Nat) := do
  let swap := shouldSwapBytes object.magic
  let header ← readFatHeader system object.file swap
  if system.memory < header.nfatArch.toNat * fatArchSize then throw .allocation
  else
    let archs ← readFatArchs system object.file swap header.nfatArch.toNat fatHeaderSize.toUInt64
    match system.findBestFatArch system.cputype system.cpusubtype archs with
    | none => throw (internalError "Couldn't find appropriate architecture in fat Mach-O")
    | some best => return (archs.get best, best.val)

/-- The result of `load_mach` is dropped here. -/
def loadFatMach : Command Failure Object Unit := do
  let object ← get
  let (best, index) ← MonadExcept.ofExcept (chooseArch system object)
  let machHeaderOffset := best.offset.toUInt64
  let magic ← MonadExcept.ofExcept (readMagic system object.file machHeaderOffset)
  modify fun object => { object with loadBase := machHeaderOffset, fatIndex := index.toUInt64 }
  dropResult (loadMach system (isMagic64 magic))

def load : Command Failure Object Unit := do
  let object ← get
  if isFatMagic object.magic then loadFatMach system
  else
    modify fun object => { object with fatIndex := 0 }
    loadMach system (isMagic64 object.magic)

def Object.new (file : BaseFile) (magic : UInt32) : Object where
  file := file
  magic := magic
  members := none
  bits := 0
  loadBase := 0
  fatIndex := 0xffffffffffffffff
  loadCommands := []

def openFile (file : BaseFile) : Except Failure Object := do
  let magic ← readMagic system file 0
  if isMachO magic then
    match load system (Object.new file magic) with
    | (.ok (), object) => return object
    | (.error failure, _) => throw failure
  else throw (internalError s!"File is not mach-o {file.path}")

end Loading

section Slices

variable (system : System) (file : BaseFile)

/-- What is loaded of a file: all of it, or what one architecture of a fat one has. -/
structure Slice where
  base : UInt64
  is64 : Bool
  deriving DecidableEq, Repr

def selectedSlice : Except Failure Slice := do
  let magic ← readMagic system file 0
  if isFatMagic magic then
    let (best, _) ← chooseArch system (Object.new file magic)
    let sliceMagic ← readMagic system file best.offset.toUInt64
    return ⟨best.offset.toUInt64, isMagic64 sliceMagic⟩
  else return ⟨0, isMagic64 magic⟩

/-- Load commands that can be read from an offset on, each where the size of the one before it says. -/
inductive CommandsAt (swap : Bool) : UInt32 → List LoadCommandEntry → Prop where
  | nil {offset : UInt32} : CommandsAt swap offset []
  | cons {offset : UInt32} {command : LoadCommand} {rest : List LoadCommandEntry} :
      readLoadCommand system file swap offset = .ok command → CommandsAt swap (offset + command.cmdsize) rest →
      CommandsAt swap offset (⟨offset, command.cmd, command.cmdsize⟩ :: rest)

def HeaderMembers.of (header : MachHeader) : HeaderMembers :=
  ⟨header.cputype, header.cpusubtype, header.filetype, header.ncmds, header.sizeofcmds, header.flags⟩

/-- A header that can be read, and as many load commands behind it as it says. -/
structure Contents (slice : Slice) (members : HeaderMembers) (entries : List LoadCommandEntry) : Prop where
  readable : ∃ magic header, readHeader system file slice.is64 slice.base = .ok (magic, header) ∧
    members = .of header ∧ entries.length = header.ncmds.toNat ∧
    CommandsAt system file (shouldSwapBytes magic) (slice.base + (machHeaderSize slice.is64).toUInt64).toUInt32 entries

def FullyLoaded (slice : Slice) (object : Object) : Prop :=
  object.loadBase = slice.base ∧ ∃ members, object.members = some members ∧
    Contents system file slice members object.loadCommands

/-- Nothing but a fully loaded object comes from `open`. -/
def OpensOnlyLoaded : Prop :=
  ∀ object, openFile system file = .ok object → ∃ slice, selectedSlice system file = .ok slice ∧
    FullyLoaded system file slice object

/-- Of a fat file, the header and the load commands of the chosen architecture can be read. -/
def ReadableIfFat : Prop :=
  ∀ magic slice, readMagic system file 0 = .ok magic → isFatMagic magic = true → selectedSlice system file = .ok slice →
    ∃ members entries, Contents system file slice members entries

end Slices

section Loads

variable {system : System} {object object' : Object}

theorem pushLoadCommands_succ (count : Nat) (offset : UInt32) :
    pushLoadCommands system (count + 1) offset object =
      match readLoadCommand system object.file (shouldSwapBytes object.magic) offset with
      | .ok command =>
          pushLoadCommands system count (offset + command.cmdsize)
            { object with loadCommands := object.loadCommands ++ [⟨offset, command.cmd, command.cmdsize⟩] }
      | .error failure => (.error failure, object) := by
  rw [pushLoadCommands]
  simp only [Command.bind_apply, Command.get_apply, Command.ofExcept_apply, Command.modify_apply]
  cases readLoadCommand system object.file (shouldSwapBytes object.magic) offset <;> rfl

/-- The loop ends without an error just where all its load commands can be read. -/
theorem pushLoadCommands_ok_iff (count : Nat) (offset : UInt32) :
    pushLoadCommands system count offset object = (.ok (), object') ↔
      ∃ entries, entries.length = count ∧ CommandsAt system object.file (shouldSwapBytes object.magic) offset entries ∧
        object' = { object with loadCommands := object.loadCommands ++ entries } := by
  -- the object is general, as every turn of the loop adds an entry to it
  induction count generalizing offset object with
  | zero =>
    have same : pushLoadCommands system 0 offset object = (.ok (), object) := rfl
    rw [same]
    constructor
    · intro ended
      obtain rfl := (Prod.mk.inj ended).2
      exact ⟨[], rfl, .nil, by simp⟩
    · rintro ⟨entries, none, -, rfl⟩
      rw [List.length_eq_zero_iff.mp none, List.append_nil]
  | succ count ih =>
    rw [pushLoadCommands_succ]
    constructor
    · intro ended
      cases found : readLoadCommand system object.file (shouldSwapBytes object.magic) offset with
      | error failure =>
        rw [found] at ended
        cases ended
      | ok command =>
        rw [found] at ended
        obtain ⟨entries, length, commands, rfl⟩ := (ih _).mp ended
        exact ⟨_ :: entries, by rw [List.length_cons, length], .cons found commands, by simp⟩
    · rintro ⟨entries, length, commands, rfl⟩
      cases commands with
      | nil => cases length
      | cons found rest =>
        rw [found]
        exact (ih _).mpr ⟨_, Nat.succ.inj length, rest, by simp⟩

theorem loadMach_ok_iff (is64 : Bool) :
    loadMach system is64 object = (.ok (), object') ↔
      ∃ magic header entries, readHeader system object.file is64 object.loadBase = .ok (magic, header) ∧
        entries.length = header.ncmds.toNat ∧
        CommandsAt system object.file (shouldSwapBytes magic)
          (object.loadBase + (machHeaderSize is64).toUInt64).toUInt32 entries ∧
        object' = { object with
          bits := if is64 then 64 else 32
          magic := magic
          members := some (.of header)
          loadCommands := object.loadCommands ++ entries } := by
  cases found : readHeader system object.file is64 object.loadBase with
  | error failure =>
    have stopped : (loadMach system is64 object).1 = .error failure := by
      simp [loadMach, found]
    constructor
    · intro ended
      rw [ended] at stopped
      cases stopped
    · rintro ⟨_, _, _, ⟨⟩, _⟩
  | ok read =>
    obtain ⟨magic, header⟩ := read
    -- behind the header the load is the loop over the commands
    have pushed : loadMach system is64 object =
        pushLoadCommands system header.ncmds.toNat (object.loadBase + (machHeaderSize is64).toUInt64).toUInt32
          { object with bits := if is64 then 64 else 32, magic := magic, members := some (.of header) } := by
      simp [loadMach, found, HeaderMembers.of]
    rw [pushed, pushLoadCommands_ok_iff]
    constructor
    · rintro ⟨entries, length, commands, rfl⟩
      exact ⟨magic, header, entries, rfl, length, commands, rfl⟩
    · rintro ⟨magic, header, entries, same, length, commands, rfl⟩
      obtain ⟨rfl, rfl⟩ := Prod.mk.inj (Except.ok.inj same)
      exact ⟨entries, length, commands, rfl⟩

/-- The contents that `load_mach` finds are all that it adds to an object. -/
theorem loadMach_contents (fresh : object.loadCommands = []) (slice : Slice) (base : object.loadBase = slice.base)
    (ended : loadMach system slice.is64 object = (.ok (), object')) :
    FullyLoaded system object.file slice object' := by
  obtain ⟨magic, header, entries, found, length, commands, rfl⟩ := (loadMach_ok_iff slice.is64).mp ended
  rw [base] at found commands
  refine ⟨base, .of header, rfl, ⟨magic, header, found, rfl, ?_, ?_⟩⟩
  · simpa [fresh] using length
  · simpa [fresh] using commands

theorem loadMach_of_contents (slice : Slice) (base : object.loadBase = slice.base) {members : HeaderMembers}
    {entries : List LoadCommandEntry} (contents : Contents system object.file slice members entries) :
    ∃ object', loadMach system slice.is64 object = (.ok (), object') := by
  obtain ⟨magic, header, found, -, length, commands⟩ := contents.readable
  rw [← base] at found commands
  exact ⟨_, (loadMach_ok_iff slice.is64).mpr ⟨magic, header, entries, found, length, commands, rfl⟩⟩

theorem loadFatMach_eq : loadFatMach system object =
    match chooseArch system object with
    | .error failure => (.error failure, object)
    | .ok (best, index) =>
        match readMagic system object.file best.offset.toUInt64 with
        | .error failure => (.error failure, object)
        | .ok magic =>
            (.ok (), (loadMach system (isMagic64 magic)
              { object with loadBase := best.offset.toUInt64, fatIndex := index.toUInt64 }).2) := by
  cases chosen : chooseArch system object with
  | error failure => simp [loadFatMach, chosen]
  | ok best =>
    obtain ⟨best, index⟩ := best
    cases magic : readMagic system object.file best.offset.toUInt64 with
    | error failure => simp [loadFatMach, chosen, magic]
    | ok magic' => simp [loadFatMach, chosen, magic, dropResult]

end Loads

section Opening

variable {system : System} {file : BaseFile}

theorem openFile_ok_iff {magic : UInt32} (found : readMagic system file 0 = .ok magic) (object : Object) :
    openFile system file = .ok object ↔
      isMachO magic = true ∧ load system (Object.new file magic) = (.ok (), object) := by
  rw [openFile, found, ok_bind]
  by_cases known : isMachO magic = true
  · rw [if_pos known, and_iff_right known]
    generalize load system (Object.new file magic) = loaded
    obtain ⟨outcome, object'⟩ := loaded
    cases outcome with
    | error failure => exact ⟨nofun, nofun⟩
    | ok value => exact ⟨fun same => by cases same; rfl, fun same => by cases same; rfl⟩
  · rw [if_neg known]
    exact ⟨nofun, fun same => absurd same.1 known⟩

theorem isMachO_of_isFatMagic {magic : UInt32} (fat : isFatMagic magic = true) : isMachO magic = true := by
  unfold isMachO
  unfold isFatMagic at fat
  simp only [Bool.or_eq_true] at fat ⊢
  tauto

theorem load_fat {magic : UInt32} (fat : isFatMagic magic = true) :
    load system (Object.new file magic) = loadFatMach system (Object.new file magic) := by
  simp [load, Object.new, fat]

theorem load_thin {magic : UInt32} (thin : ¬ isFatMagic magic = true) :
    load system (Object.new file magic) =
      loadMach system (isMagic64 magic) { Object.new file magic with fatIndex := 0 } := by
  simp [load, Object.new, thin]

theorem selectedSlice_thin {magic : UInt32} (found : readMagic system file 0 = .ok magic)
    (thin : ¬ isFatMagic magic = true) : selectedSlice system file = .ok ⟨0, isMagic64 magic⟩ := by
  rw [selectedSlice, found, ok_bind, if_neg thin]
  rfl

theorem selectedSlice_fat {magic : UInt32} (found : readMagic system file 0 = .ok magic)
    (fat : isFatMagic magic = true) (slice : Slice) :
    selectedSlice system file = .ok slice ↔ ∃ best index sliceMagic,
      chooseArch system (Object.new file magic) = .ok (best, index) ∧
        readMagic system file best.offset.toUInt64 = .ok sliceMagic ∧
        slice = ⟨best.offset.toUInt64, isMagic64 sliceMagic⟩ := by
  rw [selectedSlice, found, ok_bind, if_pos fat]
  cases chosen : chooseArch system (Object.new file magic) with
  | error failure => simp [error_bind]
  | ok best =>
    obtain ⟨best, index⟩ := best
    rw [ok_bind]
    cases sliceMagic : readMagic system file best.offset.toUInt64 with
    | error failure => simp [sliceMagic]
    | ok magic' => simp [ok_bind, sliceMagic, pure, Except.pure, eq_comm]

/-- The object that a fat file opens as, whatever became of the load of the slice. -/
theorem load_fat_iff {magic : UInt32} (fat : isFatMagic magic = true) (object : Object) :
    load system (Object.new file magic) = (.ok (), object) ↔ ∃ best index sliceMagic,
      chooseArch system (Object.new file magic) = .ok (best, index) ∧
        readMagic system file best.offset.toUInt64 = .ok sliceMagic ∧
        object = (loadMach system (isMagic64 sliceMagic)
          { Object.new file magic with loadBase := best.offset.toUInt64, fatIndex := index.toUInt64 }).2 := by
  have same : (Object.new file magic).file = file := rfl
  rw [load_fat fat, loadFatMach_eq, same]
  cases chosen : chooseArch system (Object.new file magic) with
  | error failure =>
    constructor
    · intro ended
      exact nomatch congrArg Prod.fst ended
    · rintro ⟨_, _, _, ⟨⟩, _⟩
  | ok best =>
    obtain ⟨best, index⟩ := best
    dsimp only
    cases read : readMagic system file best.offset.toUInt64 with
    | error failure =>
      constructor
      · intro ended
        exact nomatch congrArg Prod.fst ended
      · rintro ⟨_, _, _, ⟨⟩, read', _⟩
        cases read.symm.trans read'
    | ok sliceMagic =>
      constructor
      · intro ended
        exact ⟨best, index, sliceMagic, rfl, read, (congrArg Prod.snd ended).symm⟩
      · rintro ⟨_, _, _, ⟨⟩, read', rfl⟩
        obtain rfl := Except.ok.inj (read.symm.trans read')
        rfl

theorem opensOnlyLoaded_of_thin {magic : UInt32} (found : readMagic system file 0 = .ok magic)
    (thin : ¬ isFatMagic magic = true) : OpensOnlyLoaded system file := by
  intro object opened
  have loaded := ((openFile_ok_iff found object).mp opened).2
  rw [load_thin thin] at loaded
  exact ⟨_, selectedSlice_thin found thin, loadMach_contents rfl ⟨0, isMagic64 magic⟩ rfl loaded⟩

theorem opensOnlyLoaded_iff_of_fat {magic : UInt32} (found : readMagic system file 0 = .ok magic)
    (fat : isFatMagic magic = true) : OpensOnlyLoaded system file ↔
      ∀ slice, selectedSlice system file = .ok slice → ∃ members entries,
        Contents system file slice members entries := by
  constructor
  · intro only slice selected
    obtain ⟨best, index, sliceMagic, chosen, read, rfl⟩ := (selectedSlice_fat found fat slice).mp selected
    have loaded := (load_fat_iff fat _).mpr ⟨best, index, sliceMagic, chosen, read, rfl⟩
    obtain ⟨slice', selected', -, members, -, contents⟩ :=
      only _ ((openFile_ok_iff found _).mpr ⟨isMachO_of_isFatMagic fat, loaded⟩)
    obtain rfl := Except.ok.inj (selected.symm.trans selected')
    exact ⟨members, _, contents⟩
  · intro readable object opened
    have loaded := ((openFile_ok_iff found object).mp opened).2
    obtain ⟨best, index, sliceMagic, chosen, read, rfl⟩ := (load_fat_iff fat object).mp loaded
    have selected := (selectedSlice_fat found fat _).mpr ⟨best, index, sliceMagic, chosen, read, rfl⟩
    obtain ⟨members, entries, contents⟩ := readable _ selected
    -- the dropped result is a success here, so the object left by `load_mach` is the loaded one
    let start : Object :=
      { Object.new file magic with loadBase := best.offset.toUInt64, fatIndex := index.toUInt64 }
    obtain ⟨object', ended⟩ := loadMach_of_contents _ (show start.loadBase = _ from rfl) contents
    refine ⟨_, selected, ?_⟩
    have loadedFully := loadMach_contents rfl _ rfl ended
    rw [show (loadMach system (isMagic64 sliceMagic) start).2 = object' from congrArg Prod.snd ended]
    exact loadedFully

/-- Only fully loaded objects are opened just where the file is not fat, or the chosen slice can be read. -/
theorem opensOnlyLoaded_iff (system : System) (file : BaseFile) :
    OpensOnlyLoaded system file ↔ ReadableIfFat system file := by
  cases found : readMagic system file 0 with
  | error failure =>
    refine ⟨fun _ magic slice read => ?_, fun _ object opened => ?_⟩
    · rw [found] at read
      cases read
    · rw [openFile, found] at opened
      cases opened
  | ok magic =>
    by_cases fat : isFatMagic magic = true
    · rw [opensOnlyLoaded_iff_of_fat found fat]
      refine ⟨fun readable other slice _ _ => readable slice, fun readable slice => readable magic slice found fat⟩
    · refine ⟨fun _ other slice read isFat => ?_, fun _ => opensOnlyLoaded_of_thin found fat⟩
      obtain rfl := Except.ok.inj (found.symm.trans read)
      exact absurd isFat fat

end Opening

section Truncated

/-- Swaps the bytes of every member, and takes the first architecture there is. -/
def littleSystem : System where
  isLittleEndian := true
  cputype := 0x01000007
  cpusubtype := 3
  swapMachHeader _ header :=
    let swap (member : UInt32) : UInt32 := (byteswap 4 member.toNat).toUInt32
    ⟨swap header.magic, swap header.cputype, swap header.cpusubtype, swap header.filetype, swap header.ncmds,
      swap header.sizeofcmds, swap header.flags⟩
  swapLoadCommand command := ⟨(byteswap 4 command.cmd.toNat).toUInt32, (byteswap 4 command.cmdsize.toNat).toUInt32⟩
  swapFatHeader header := ⟨(byteswap 4 header.magic.toNat).toUInt32, (byteswap 4 header.nfatArch.toNat).toUInt32⟩
  swapFatArch arch :=
    let swap (member : UInt32) : UInt32 := (byteswap 4 member.toNat).toUInt32
    ⟨swap arch.cputype, swap arch.cpusubtype, swap arch.offset, swap arch.size, swap arch.align⟩
  findBestFatArch _ _ archs :=
    match archs with
    | [] => none
    | _ :: _ => some ⟨0, Nat.zero_lt_succ _⟩
  memory := 0x7fffffffffffffff

/-- A fat header for one architecture, which ends behind its magic. -/
def truncated : BaseFile where
  medium := .memory
  objectPath := ""
  data := [0xca, 0xfe, 0xba, 0xbe, 0, 0, 0, 1, 1, 0, 0, 7, 0, 0, 0, 3, 0, 0, 0, 28, 0, 0, 0, 32, 0, 0, 0, 0,
    0xcf, 0xfa, 0xed, 0xfe]
  small := by decide

theorem opensOnlyLoaded_fails : ¬ OpensOnlyLoaded littleSystem truncated := by
  have selected : selectedSlice littleSystem truncated = .ok ⟨28, true⟩ := by decide +kernel
  have opened : (openFile littleSystem truncated).isOk = true := by decide +kernel
  have unreadable : (readHeader littleSystem truncated true 28).isOk = false := by decide +kernel
  intro only
  cases outcome : openFile littleSystem truncated with
  | error failure =>
    rw [outcome] at opened
    cases opened
  | ok object =>
    obtain ⟨slice, selected', -, members, -, contents⟩ := only object outcome
    obtain rfl := Except.ok.inj (selected.symm.trans selected')
    obtain ⟨magic, header, read, -⟩ := contents.readable
    rw [read] at unreadable
    cases unreadable

end Truncated

end Cpptrace.Binary.MachO
