import Cpptrace.Binary.Memoisation
import Cpptrace.Library.Mirrors

/-! One image on the disk and in memory.

The two kinds of `base_file` read alike, but for a read of nothing inside of the
image: `fread` gives no item then, and the view of the memory succeeds. An object
that never reads nothing answers the same from either.
-/

set_option autoImplicit false

namespace Cpptrace.Binary

open Library Library.Outcome Utils

structure Image where
  objectPath : String
  data : Bytes
  small : data.length < 0x8000000000000000

def Image.file (image : Image) (medium : Medium) : BaseFile := ⟨medium, image.objectPath, image.data, image.small⟩

def Image.object (image : Image) (isLittleEndian is64 : Bool) (medium : Medium) : Object :=
  ⟨image.file medium, isLittleEndian, is64⟩

/-- The text of an error has the path, which memory has none of. -/
def Similar (failure other : Failure) : Prop := failure = other ∨ IsInternalError failure ∧ IsInternalError other

theorem Similar.refl (failure : Failure) : Similar failure failure := .inl rfl

theorem similar_internalError (message other : String) : Similar (internalError message) (internalError other) :=
  .inr ⟨isInternalError_internalError message, isInternalError_internalError other⟩

section Reads

variable {disk memory : BaseFile} (same : disk.data = memory.data) {room size : Nat} {offset : UInt64}
include same

/-- A read of bytes in the image, or of any beyond it, goes the same way. -/
theorem readDisk_similar (fits : size ≤ room) (bounded : BaseFile.offT offset < 0 ∨ size < 0x8000000000000000)
    (something : size = 0 → disk.data.length < offset.toNat) :
    Agreeing Similar Eq (disk.readDisk room size offset) (memory.readMemory room size offset) := by
  have small := memory.small
  have slice := BaseFile.length_slice memory.data offset.toNat size
  rw [same] at something
  unfold BaseFile.readDisk BaseFile.readMemory
  rw [same]
  dsimp only
  by_cases negative : BaseFile.offT offset < 0
  · rw [if_pos negative, if_pos negative]
    exact .error (similar_internalError _ _)
  · have positive := bounded.resolve_left negative
    have below := negative
    rw [BaseFile.offT_neg_iff] at below
    rw [if_neg negative, if_neg negative, if_neg (by omega), Nat.mod_eq_of_lt (by unfold sizeModulus; omega)]
    by_cases inside : 0 < size ∧ offset.toNat + size ≤ memory.data.length
    · rw [if_neg (by simp; omega), if_neg (by omega), if_neg (by simp; omega)]
      exact .ok rfl
    · -- a read of nothing is beyond the image, as any other that fails
      rw [if_pos (by simp; omega), if_pos (by omega)]
      exact .error (similar_internalError _ _)

theorem readDisk_differs (inside : offset.toNat ≤ disk.data.length) :
    ¬ Agreeing Similar Eq (disk.readDisk room 0 offset) (memory.readMemory room 0 offset) := by
  have small := memory.small
  rw [same] at inside
  have nonnegative : ¬ BaseFile.offT offset < 0 := by
    rw [BaseFile.offT_neg_iff]
    omega
  have within : ¬ memory.data.length < (offset.toNat + 0) % sizeModulus := by
    unfold sizeModulus
    omega
  unfold BaseFile.readDisk BaseFile.readMemory
  dsimp only
  rw [if_neg nonnegative, if_neg nonnegative, if_neg within, if_neg (by simp), if_pos (by simp),
    if_neg (by simp; omega)]
  nofun

end Reads

section Images

variable (image : Image) {room size : Nat} {offset : UInt64}

/-- A read of no bytes, at a place in the image or at its end. -/
def Image.ReadsNothing (size : Nat) (offset : UInt64) : Prop := size = 0 ∧ offset.toNat ≤ image.data.length

theorem readBytes_similar (fits : size ≤ room) (bounded : BaseFile.offT offset < 0 ∨ size < 0x8000000000000000)
    (something : ¬ image.ReadsNothing size offset) :
    Agreeing Similar Eq ((image.file .disk).readBytes room size offset)
      ((image.file .memory).readBytes room size offset) :=
  have same : (image.file .disk).data = (image.file .memory).data := rfl
  readDisk_similar same fits bounded fun nothing => Nat.lt_of_not_le fun inside => something ⟨nothing, inside⟩

theorem readBytes_differ (nothing : image.ReadsNothing size offset) :
    ¬ Agreeing Similar Eq ((image.file .disk).readBytes room size offset)
      ((image.file .memory).readBytes room size offset) := by
  have same : (image.file .disk).data = (image.file .memory).data := rfl
  obtain ⟨rfl, inside⟩ := nothing
  exact readDisk_differs same inside

theorem read_similar (positive : 0 < size) (small : size ≤ 64) :
    Agreeing Similar Eq ((image.file .disk).read size offset) ((image.file .memory).read size offset) :=
  readBytes_similar image (Nat.le_refl size) (.inr (by omega)) fun nothing => Nat.ne_of_gt positive nothing.1

omit image in
theorem rejectIf_similar (condition : Bool) (message other : String) :
    Agreeing Similar Eq (rejectIf condition message) (rejectIf condition other) := by
  unfold rejectIf
  split
  · exact .error (similar_internalError message other)
  · exact .ok rfl

end Images

section Loads

variable (platform : Platform) (image : Image) (isLittleEndian is64 : Bool)

theorem readHeader_similar :
    Agreeing Similar Eq (readHeader platform (image.object isLittleEndian is64 .disk))
      (readHeader platform (image.object isLittleEndian is64 .memory)) := by
  have positive : 0 < Ehdr.sizeOf is64 := by cases is64 <;> decide
  have small : Ehdr.sizeOf is64 ≤ 64 := by cases is64 <;> decide
  exact (read_similar image positive small).bind_eq fun _ _ => (rejectIf_similar _ _ _).bind_eq fun _ _ => .ok rfl

theorem readSection_similar (header : HeaderInfo) (i : Nat) :
    Agreeing Similar Eq (readSection platform (image.object isLittleEndian is64 .disk) header i)
      (readSection platform (image.object isLittleEndian is64 .memory) header i) := by
  have positive : 0 < Shdr.sizeOf is64 := by cases is64 <;> decide
  have small : Shdr.sizeOf is64 ≤ 64 := by cases is64 <;> decide
  exact (read_similar image positive small).bind_eq fun _ _ => .ok rfl

theorem imageBaseFrom_similar (header : HeaderInfo) (indices : List Nat) :
    Agreeing Similar Eq (imageBaseFrom platform (image.object isLittleEndian is64 .disk) header indices)
      (imageBaseFrom platform (image.object isLittleEndian is64 .memory) header indices) := by
  have positive : 0 < Phdr.sizeOf is64 := by cases is64 <;> decide
  have small : Phdr.sizeOf is64 ≤ 64 := by cases is64 <;> decide
  induction indices with
  | nil => exact .ok rfl
  | cons i rest ih =>
    refine (read_similar image positive small).bind_eq fun programHeader _ => ?_
    -- the members are read alike, as only the files of the two objects differ
    by_cases isPhdr : (field platform (image.object isLittleEndian is64 .disk) programHeader Phdr.pType).toUInt32 =
      ptPhdr
    · have isPhdr' : (field platform (image.object isLittleEndian is64 .memory) programHeader Phdr.pType).toUInt32 =
          ptPhdr := isPhdr
      dsimp only
      rw [if_pos isPhdr, if_pos isPhdr']
      exact .ok rfl
    · have isPhdr' : ¬ (field platform (image.object isLittleEndian is64 .memory) programHeader Phdr.pType).toUInt32 =
          ptPhdr := isPhdr
      dsimp only
      rw [if_neg isPhdr, if_neg isPhdr']
      exact ih

def Image.EmptyInside (info : SectionInfo) : Prop := image.ReadsNothing info.shSize.toNat info.shOffset

/-- The names of a section have bytes to be read, and not as many as the type can count. -/
def Image.NamesRead (index : Nat) : Prop :=
  ∀ sections info, sectionsOf platform (image.object isLittleEndian is64 .disk) = .ok sections →
    sections[index]? = some info → info.shType = shtStrtab →
    ¬ image.EmptyInside info ∧ info.shSize ≠ 0xffffffffffffffff

def Image.SymbolsRead (dynamic : Bool) : Prop :=
  ∀ sections info, sectionsOf platform (image.object isLittleEndian is64 .disk) = .ok sections →
    sections.find? (isSymtab dynamic) = some info → info.shEntsize.toNat = Sym.sizeOf is64 → ¬ image.EmptyInside info

variable {sections : List SectionInfo}

theorem readStrtab_similar {index : Nat}
    (known : sectionsOf platform (image.object isLittleEndian is64 .disk) = .ok sections)
    (reads : image.NamesRead platform isLittleEndian is64 index) :
    Agreeing Similar Eq (readStrtab platform (image.object isLittleEndian is64 .disk) sections index)
      (readStrtab platform (image.object isLittleEndian is64 .memory) sections index) := by
  have memory := platform.bounded
  unfold readStrtab
  cases found : sections[index]? with
  | none => exact .error (similar_internalError _ _)
  | some info =>
    refine (rejectIf_similar _ _ _).bind_eq fun _ passed => ?_
    obtain ⟨something, countable⟩ := reads sections info known found (by simpa using rejectIf_passed passed)
    have size := toNat_succ info.shSize countable
    refine (Agreeing.refl Similar.refl _).bind_eq fun _ allocated => ?_
    have fits := allocate_passed allocated
    exact (readBytes_similar image (by omega) (.inr (by omega)) something).bind_eq fun _ _ => .ok rfl

theorem readSymtab_similar {dynamic : Bool}
    (known : sectionsOf platform (image.object isLittleEndian is64 .disk) = .ok sections)
    (reads : image.SymbolsRead platform isLittleEndian is64 dynamic) :
    Agreeing Similar Eq (readSymtab platform (image.object isLittleEndian is64 .disk) sections dynamic)
      (readSymtab platform (image.object isLittleEndian is64 .memory) sections dynamic) := by
  have memory := platform.bounded
  unfold readSymtab
  cases found : sections.find? (isSymtab dynamic) with
  | none => exact .ok rfl
  | some info =>
    refine (rejectIf_similar _ _ _).bind_eq fun _ passed => (rejectIf_similar _ _ _).bind_eq fun _ _ => ?_
    have entsize : info.shEntsize.toNat = Sym.sizeOf (image.object isLittleEndian is64 .disk).is64 := by
      simpa using rejectIf_passed passed
    have something := reads sections info known found entsize
    refine (Agreeing.refl Similar.refl _).bind_eq fun _ allocated => ?_
    have fits := allocate_passed allocated
    refine (readBytes_similar image (Nat.le_refl _) (.inr (by omega)) something).bind_eq fun _ _ => ?_
    exact (Agreeing.refl Similar.refl _).bind_eq fun _ _ => .ok rfl

end Loads

theorem failsOnly_anything {α : Type} {outcome : Except Failure α} : FailsOnly (fun _ => True) outcome :=
  fun _ _ => trivial

/-- Two objects whose headers are loaded the same way. -/
structure Twins (platform : Platform) (disk memory : Object) : Prop where
  header : Agreeing Similar Eq (readHeader platform disk) (readHeader platform memory)
  sections : ∀ header i, Agreeing Similar Eq (readSection platform disk header i) (readSection platform memory header i)
  imageBase : ∀ header indices,
    Agreeing Similar Eq (imageBaseFrom platform disk header indices) (imageBaseFrom platform memory header indices)

theorem Image.twins (platform : Platform) (image : Image) (isLittleEndian is64 : Bool) :
    Twins platform (image.object isLittleEndian is64 .disk) (image.object isLittleEndian is64 .memory) where
  header := readHeader_similar platform image isLittleEndian is64
  sections := readSection_similar platform image isLittleEndian is64
  imageBase := imageBaseFrom_similar platform image isLittleEndian is64

section Getters

variable {platform : Platform} {disk memory : Object} (twins : Twins platform disk memory)

/-- The names of a section go the same way in both objects, once its sections are known. -/
def NamesAlike (platform : Platform) (disk memory : Object) (index : Nat) : Prop :=
  ∀ sections, sectionsOf platform disk = .ok sections →
    Agreeing Similar Eq (readStrtab platform disk sections index) (readStrtab platform memory sections index)

def SymbolsAlike (platform : Platform) (disk memory : Object) (dynamic : Bool) : Prop :=
  ∀ sections, sectionsOf platform disk = .ok sections →
    Agreeing Similar Eq (readSymtab platform disk sections dynamic) (readSymtab platform memory sections dynamic)

abbrev SoundInRun (platform : Platform) (object : Object) (elf : Elf) :
    Prop := Sound platform object (fun _ => True) elf

include twins

theorem getHeaderInfo_mirrors :
    Mirrors Similar (fun _ => True) (getHeaderInfo platform disk) (getHeaderInfo platform memory) fun _ => True := by
  refine .get_bind fun state => ?_
  cases state.header with
  | some header => exact .pure trivial
  | none =>
    refine .ite (fun _ => .throw (similar_internalError _ _)) fun _ => ?_
    refine (Mirrors.modify fun _ _ => trivial).bind fun _ _ => ?_
    refine (Mirrors.ofExcept twins.header).bind fun header _ => ?_
    exact (Mirrors.modify fun _ _ => trivial).bind fun _ _ => .pure trivial

theorem onHeader_mirrors :
    Mirrors Similar (fun _ => True) (onHeader (getHeaderInfo platform disk)) (onHeader (getHeaderInfo platform memory))
      fun _ => True :=
  (getHeaderInfo_mirrors twins).onPart (fun _ _ => trivial) fun _ _ _ _ => trivial

theorem pushSections_mirrors (header : HeaderInfo) (indices : List Nat) :
    Mirrors Similar (fun _ => True) (pushSections platform disk header indices)
      (pushSections platform memory header indices)
      fun _ => True := by
  induction indices with
  | nil => exact .pure trivial
  | cons i rest ih =>
    refine (Mirrors.ofExcept (twins.sections header i)).bind fun info _ => ?_
    exact (Mirrors.modify fun _ _ => trivial).bind fun _ _ => ih

theorem getSections_mirrors :
    Mirrors Similar (SoundSections platform disk fun _ => True) (getSections platform disk)
      (getSections platform memory)
      fun sections => sectionsOf platform disk = .ok sections := by
  have loads : Mirrors Similar (fun _ => True) (getSections platform disk) (getSections platform memory)
      fun _ => True := by
    refine .get_bind fun state => ?_
    refine .ite (fun _ => .pure trivial) fun _ => .ite (fun _ => .throw (similar_internalError _ _)) fun _ => ?_
    refine (Mirrors.modify fun _ _ => trivial).bind fun _ _ => ?_
    refine (onHeader_mirrors twins).bind fun header _ => ?_
    refine (pushSections_mirrors twins header _).bind fun _ _ => ?_
    refine (Mirrors.modify fun _ _ => trivial).bind fun _ _ => ?_
    exact .get_bind fun state => .pure trivial
  exact loads.of_stays (fun _ _ => trivial) (getSections_follows.stays failsOnly_anything fun _ _ => trivial)

theorem onSections_mirrors :
    Mirrors Similar (fun elf : Elf => SoundSections platform disk (fun _ => True) elf.toSectionState)
      (onSections (getSections platform disk)) (onSections (getSections platform memory))
      fun sections => sectionsOf platform disk = .ok sections :=
  (getSections_mirrors twins).onPart (fun _ sound => sound) fun _ _ _ sound => sound

omit twins in
theorem setStrtab_mirrors (index : Nat) (entry : StrtabEntry) :
    Mirrors Similar (fun elf : Elf => SoundSections platform disk (fun _ => True) elf.toSectionState)
      (setStrtab index entry) (setStrtab index entry) fun _ => True :=
  Mirrors.modify fun _ sound => sound

omit twins in
theorem setSymtab_mirrors (dynamic : Bool) (table : SymtabState) :
    Mirrors Similar (fun elf : Elf => SoundSections platform disk (fun _ => True) elf.toSectionState)
      (setSymtab dynamic table) (setSymtab dynamic table) fun _ => True :=
  Mirrors.modify fun _ sound => sound

theorem getStrtab_mirrors {index : Nat} (names : NamesAlike platform disk memory index) :
    Mirrors Similar (SoundInRun platform disk) (getStrtab platform disk index) (getStrtab platform memory index)
      fun strtab => strtabOf platform disk index = .ok strtab := by
  have first : Mirrors Similar (fun elf : Elf => SoundSections platform disk (fun _ => True) elf.toSectionState)
      (loadStrtab platform disk index) (loadStrtab platform memory index) fun _ => True := by
    refine (setStrtab_mirrors _ _).bind fun _ _ => ?_
    refine (onSections_mirrors twins).bind fun sections known => ?_
    refine (Mirrors.ofExcept (names sections known)).bind fun data _ => ?_
    exact (setStrtab_mirrors _ _).bind fun _ _ => .pure trivial
  have loads : Mirrors Similar (fun elf : Elf => SoundSections platform disk (fun _ => True) elf.toSectionState)
      (getStrtab platform disk index) (getStrtab platform memory index) fun _ => True := by
    refine .get_bind fun elf => ?_
    cases elf.strtabEntries index with
    | none => exact first
    | some entry =>
      exact .ite (fun _ => .pure trivial) fun _ => .ite (fun _ => .throw (similar_internalError _ _)) fun _ => first
  exact loads.of_stays (fun _ sound => sound.sections)
    ((getStrtab_follows index).stays failsOnly_anything fun _ _ => trivial)

theorem getSymtabWhere_mirrors {dynamic : Bool} (kind : String) (symbols : SymbolsAlike platform disk memory dynamic) :
    Mirrors Similar (SoundInRun platform disk) (getSymtabWhere platform disk dynamic kind)
      (getSymtabWhere platform memory dynamic kind) fun symtab => symtabOf platform disk dynamic = .ok symtab := by
  have loads : Mirrors Similar (fun elf : Elf => SoundSections platform disk (fun _ => True) elf.toSectionState)
      (getSymtabWhere platform disk dynamic kind) (getSymtabWhere platform memory dynamic kind) fun _ => True := by
    refine .get_bind fun elf => .ite (fun _ => .pure trivial) fun _ => ?_
    refine .ite (fun _ => .throw (similar_internalError _ _)) fun _ => ?_
    refine (setSymtab_mirrors _ _).bind fun _ _ => ?_
    refine (onSections_mirrors twins).bind fun sections known => ?_
    refine (Mirrors.ofExcept (symbols sections known)).bind fun symtab _ => ?_
    exact (setSymtab_mirrors _ _).bind fun _ _ => .pure trivial
  exact loads.of_stays (fun _ sound => sound.sections)
    ((getSymtabWhere_follows dynamic kind).stays failsOnly_anything fun _ _ => trivial)

end Getters

section Queries

variable {platform : Platform} {disk memory : Object}

/-- A test of a command, which knows the outcome of the load if it has a value, and that it has none otherwise. -/
theorem attempt_mirrors {α : Type} {command other : Command Failure Elf α} {fresh : Except Failure α}
    (valid : Mirrors Similar (SoundInRun platform disk) command other fun value => fresh = .ok value)
    (follows : Follows (fun _ => True) IsInternalError (SoundInRun platform disk) command fresh) :
    Mirrors Similar (SoundInRun platform disk) (attempt command) (attempt other) fun found =>
      ∀ value, found = some value ↔ fresh = .ok value := by
  intro elf sound
  obtain ⟨alike, same, stays, only⟩ := valid elf sound
  obtain ⟨agrees, -⟩ := follows elf sound
  unfold attempt
  rcases ran : command elf with ⟨outcome, after⟩
  rcases ran' : other elf with ⟨outcome', after'⟩
  rw [ran] at alike same stays only agrees
  rw [ran'] at alike same
  dsimp only at alike same stays only agrees
  subst same
  cases alike with
  | ok equal =>
    rename_i value _
    subst equal
    refine ⟨.ok rfl, rfl, stays, fun found known => ?_⟩
    cases known
    have loaded := only value rfl
    intro value'
    rw [loaded, Option.some.injEq, Except.ok.injEq]
  | error close =>
    rename_i failure failure'
    -- a value of the load would have come out
    have failed (value : α) : fresh ≠ .ok value := fun loaded => by
      rcases agrees with same | ⟨_, _, known, -⟩
      · cases same.trans loaded
      · cases known.symm.trans loaded
    rcases close with rfl | ⟨⟨what, rfl⟩, ⟨what', rfl⟩⟩
    · cases failure with
      | internalError what =>
        refine ⟨.ok rfl, rfl, stays, fun found known value => ?_⟩
        cases known
        exact ⟨nofun, fun loaded => absurd loaded (failed value)⟩
      | allocation | undefined | outsideTable => exact ⟨.error (.refl _), rfl, stays, nofun⟩
    · refine ⟨.ok rfl, rfl, stays, fun found known value => ?_⟩
      cases known
      exact ⟨nofun, fun loaded => absurd loaded (failed value)⟩

section OnLoads

variable (platform : Platform) (object : Object) (names : Nat → Prop) (symbols : Bool → Prop)

/-- A property of the symbols of a table, and of the names that it is linked to. -/
def OnTable (dynamic : Bool) : Prop :=
  symbols dynamic ∧ ∀ symtab, symtabOf platform object dynamic = .ok (some symtab) → symtab.strtabLink ≠ shnUndef →
    names symtab.strtabLink

/-- A property of what a query loads. The dynamic table is only loaded for a symbol that the other one
does not have. -/
def OnLoads : Query → Prop
  | .getModuleImageBase => True
  | .lookupSymbol pc => OnTable platform object names symbols false ∧
      ((∀ symbol, symbolThrough platform object false pc ≠ .ok (some symbol)) →
        OnTable platform object names symbols true)
  | .getPcRanges => ∀ header, readHeader platform object = .ok header → names header.eShstrndx.toNat
  | .getSymtabEntries => OnTable platform object names symbols false
  | .getDynamicSymtabEntries => OnTable platform object names symbols true

variable {platform object names symbols} {names' : Nat → Prop} {symbols' : Bool → Prop}

theorem OnTable.imp {dynamic : Bool} (table : OnTable platform object names symbols dynamic)
    (ofNames : ∀ index, names index → names' index) (ofSymbols : ∀ dynamic, symbols dynamic → symbols' dynamic) :
    OnTable platform object names' symbols' dynamic :=
  ⟨ofSymbols dynamic table.1, fun symtab known linked => ofNames _ (table.2 symtab known linked)⟩

theorem OnLoads.imp {query : Query} (loads : OnLoads platform object names symbols query)
    (ofNames : ∀ index, names index → names' index) (ofSymbols : ∀ dynamic, symbols dynamic → symbols' dynamic) :
    OnLoads platform object names' symbols' query := by
  cases query with
  | getModuleImageBase => trivial
  | lookupSymbol pc => exact ⟨loads.1.imp ofNames ofSymbols, fun missing => (loads.2 missing).imp ofNames ofSymbols⟩
  | getPcRanges => exact fun header read => ofNames _ (loads header read)
  | getSymtabEntries | getDynamicSymtabEntries => exact OnTable.imp loads ofNames ofSymbols

end OnLoads

abbrev TableAlike (platform : Platform) (disk memory : Object) (dynamic : Bool) : Prop :=
  OnTable platform disk (NamesAlike platform disk memory) (SymbolsAlike platform disk memory) dynamic

abbrev QueryAlike (platform : Platform) (disk memory : Object) (query : Query) : Prop :=
  OnLoads platform disk (NamesAlike platform disk memory) (SymbolsAlike platform disk memory) query

variable (twins : Twins platform disk memory)
include twins

theorem lookupSymbolIn_mirrors (pc : FramePtr) (maybeSymtab : Option SymtabInfo)
    (names : ∀ symtab, maybeSymtab = some symtab → symtab.strtabLink ≠ shnUndef →
      NamesAlike platform disk memory symtab.strtabLink) :
    Mirrors Similar (SoundInRun platform disk) (lookupSymbolIn platform disk pc maybeSymtab)
      (lookupSymbolIn platform memory pc maybeSymtab)
      fun symbol => symbol = none → ∀ name, symbolIn platform disk pc maybeSymtab ≠ .ok (some name) := by
  cases maybeSymtab with
  | none => exact .pure fun _ _ => nofun
  | some symtab =>
    unfold lookupSymbolIn symbolIn
    dsimp only
    by_cases linked : symtab.strtabLink = shnUndef
    · rw [if_pos linked, if_pos linked, if_pos linked]
      exact .pure fun _ _ => nofun
    · rw [if_neg linked, if_neg linked, if_neg linked]
      refine (attempt_mirrors (getStrtab_mirrors twins (names symtab rfl linked)) (getStrtab_follows _)).bind
        fun found known => ?_
      cases found with
      | none =>
        refine .pure fun _ name => ?_
        cases outcome : strtabOf platform disk symtab.strtabLink with
        | ok strtab => cases (known strtab).mpr outcome
        | error failure => cases failure <;> nofun
      | some strtab =>
        rw [(known strtab).mp rfl]
        refine (Mirrors.ofExcept (Agreeing.refl Similar.refl _)).weaken fun symbol search missing name => ?_
        rw [missing] at search
        exact fun same => nomatch search.symm.trans same

theorem lookupSymbolThrough_mirrors {dynamic : Bool} (kind : String) (pc : FramePtr)
    (table : TableAlike platform disk memory dynamic) :
    Mirrors Similar (SoundInRun platform disk)
      (lookupSymbolThrough platform disk (getSymtabWhere platform disk dynamic kind) pc)
      (lookupSymbolThrough platform memory (getSymtabWhere platform memory dynamic kind) pc)
      fun symbol => symbol = none → ∀ name, symbolThrough platform disk dynamic pc ≠ .ok (some name) := by
  refine (attempt_mirrors (getSymtabWhere_mirrors twins kind table.1) (getSymtabWhere_follows dynamic kind)).bind
    fun found known => ?_
  unfold symbolThrough
  cases found with
  | none =>
    refine .pure fun _ name => ?_
    cases outcome : symtabOf platform disk dynamic with
    | ok symtab => cases (known symtab).mpr outcome
    | error failure => cases failure <;> nofun
  | some maybeSymtab =>
    have loaded := (known maybeSymtab).mp rfl
    rw [loaded]
    exact lookupSymbolIn_mirrors twins pc maybeSymtab fun symtab same => table.2 symtab (same ▸ loaded)

theorem lookupSymbol_mirrors (pc : FramePtr) (alike : QueryAlike platform disk memory (.lookupSymbol pc)) :
    Mirrors Similar (SoundInRun platform disk) (lookupSymbol platform disk pc) (lookupSymbol platform memory pc)
      fun _ => True := by
  refine (lookupSymbolThrough_mirrors twins "symtab" pc alike.1).bind fun symbol missing => ?_
  cases symbol with
  | some symbol => exact .pure trivial
  | none =>
    exact (lookupSymbolThrough_mirrors twins "dynamic symtab" pc (alike.2 (missing rfl))).weaken fun _ _ => trivial

theorem header_mirrors :
    Mirrors Similar (SoundInRun platform disk) (onSections (onHeader (getHeaderInfo platform disk)))
      (onSections (onHeader (getHeaderInfo platform memory))) fun header => readHeader platform disk = .ok header := by
  have loads : Mirrors Similar (fun _ => True) (onSections (onHeader (getHeaderInfo platform disk)))
      (onSections (onHeader (getHeaderInfo platform memory))) fun _ => True :=
    (onHeader_mirrors twins).onPart (fun _ _ => trivial) fun _ _ _ _ => trivial
  exact loads.of_stays (fun _ _ => trivial) (onHeader_follows.stays failsOnly_anything fun _ _ => trivial)

theorem sections_mirrors :
    Mirrors Similar (SoundInRun platform disk) (onSections (getSections platform disk))
      (onSections (getSections platform memory)) fun sections => sectionsOf platform disk = .ok sections :=
  (onSections_mirrors twins).of_stays (fun _ sound => sound.sections)
    (onSections_follows.stays failsOnly_anything fun _ _ => trivial)

theorem getPcRanges_mirrors (alike : QueryAlike platform disk memory .getPcRanges) :
    Mirrors Similar (SoundInRun platform disk) (getPcRanges platform disk) (getPcRanges platform memory)
      fun _ => True := by
  refine (header_mirrors twins).bind fun header read =>
    (getStrtab_mirrors twins (alike header read)).bind fun strtab _ => ?_
  refine (sections_mirrors twins).bind fun sections _ => ?_
  exact (Mirrors.ofExcept (Agreeing.refl Similar.refl _)).weaken fun _ _ => trivial

theorem resolveSymtabEntries_mirrors {dynamic : Bool} (kind : String)
    (table : TableAlike platform disk memory dynamic) :
    Mirrors Similar (SoundInRun platform disk)
      (resolveSymtabEntries platform disk (getSymtabWhere platform disk dynamic kind))
      (resolveSymtabEntries platform memory (getSymtabWhere platform memory dynamic kind)) fun _ => True := by
  refine (getSymtabWhere_mirrors twins kind table.1).bind fun maybeSymtab known => ?_
  cases maybeSymtab with
  | none => exact .pure trivial
  | some symtab =>
    refine .ite (fun _ => ?_) fun linked => ?_
    · exact (Mirrors.ofExcept (Agreeing.refl Similar.refl _)).bind fun _ _ => .pure trivial
    · refine (getStrtab_mirrors twins (table.2 symtab known linked)).bind fun strtab _ => ?_
      exact (Mirrors.ofExcept (Agreeing.refl Similar.refl _)).bind fun _ _ => .pure trivial

theorem ask_mirrors (query : Query) (alike : QueryAlike platform disk memory query) :
    Mirrors Similar (SoundInRun platform disk) (ask platform disk query) (ask platform memory query) fun _ => True := by
  cases query with
  | getModuleImageBase =>
    have base : Mirrors Similar (SoundInRun platform disk) (getModuleImageBase platform disk)
        (getModuleImageBase platform memory) fun _ => True :=
      (header_mirrors twins).bind fun header _ =>
        (Mirrors.ofExcept (twins.imageBase header _)).weaken fun _ _ => trivial
    exact base.map _ fun _ _ => trivial
  | lookupSymbol pc => exact (lookupSymbol_mirrors twins pc alike).map _ fun _ _ => trivial
  | getPcRanges => exact (getPcRanges_mirrors twins alike).map _ fun _ _ => trivial
  | getSymtabEntries => exact (resolveSymtabEntries_mirrors twins "symtab" alike).map _ fun _ _ => trivial
  | getDynamicSymtabEntries =>
    exact (resolveSymtabEntries_mirrors twins "dynamic symtab" alike).map _ fun _ _ => trivial

/-- Queries that only load what goes the same way have the same answers in every run. -/
theorem run_similar (queries : List Query) (alike : ∀ query ∈ queries, QueryAlike platform disk memory query) :
    List.Forall₂ (Agreeing Similar Eq) (run (step platform disk) queries Elf.new).1
      (run (step platform memory) queries Elf.new).1 :=
  run_related (QueryAlike platform disk memory)
    (fun query elf allowed sound =>
      have ⟨answers, same, stays, _⟩ := ask_mirrors twins query allowed elf sound
      ⟨answers, same, stays⟩)
    queries alike Elf.new (sound_new platform disk fun _ => True)

end Queries

section Sessions

/-- `elf::open`, and the answers to queries of the object in turn. -/
def session (platform : Platform) (queries : List Query) (file : BaseFile) :
    Except Failure (List (Except Failure Answer)) := do
  let object ← Object.openFile file
  return (run (step platform object) queries Elf.new).1

/-- Both open with answers that are alike, or both fail to open. -/
def Image.AnswersAlike (platform : Platform) (image : Image) (queries : List Query) : Prop :=
  Agreeing Similar (List.Forall₂ (Agreeing Similar Eq)) (session platform queries (image.file .disk))
    (session platform queries (image.file .memory))

/-- The queries only load tables with bytes in them. -/
def Image.LoadsSomething (platform : Platform) (image : Image) (queries : List Query) : Prop :=
  ∀ isLittleEndian is64,
    Object.openFile (image.file .disk) = .ok (image.object isLittleEndian is64 .disk) → ∀ query ∈ queries,
      OnLoads platform (image.object isLittleEndian is64 .disk) (image.NamesRead platform isLittleEndian is64)
        (image.SymbolsRead platform isLittleEndian is64) query

theorem openFile_similar (image : Image) :
    Agreeing Similar (fun object other => ∃ isLittleEndian is64,
        object = image.object isLittleEndian is64 .disk ∧ other = image.object isLittleEndian is64 .memory)
      (Object.openFile (image.file .disk)) (Object.openFile (image.file .memory)) := by
  have byte (offset : UInt64) :
      Agreeing Similar Eq ((image.file .disk).read 1 offset) ((image.file .memory).read 1 offset) :=
    read_similar image (by decide) (by decide)
  unfold Object.openFile
  refine (read_similar image (by decide) (by decide)).bind fun magic _ _ same => ?_
  subst same
  refine (rejectIf_similar _ _ _).bind fun _ _ _ _ => (byte 4).bind fun eiClass _ _ same => ?_
  subst same
  refine (byte 5).bind fun eiData _ _ same => (byte 6).bind fun eiVersion _ _ same' => ?_
  subst same same'
  exact (rejectIf_similar _ _ _).bind fun _ _ _ _ => .ok ⟨_, _, rfl, rfl⟩

/-- In every run, queries that only load tables with bytes in them have the same answers on both media. -/
theorem answersAlike_of_loads (platform : Platform) (image : Image) (queries : List Query)
    (loads : image.LoadsSomething platform queries) : image.AnswersAlike platform queries := by
  refine (openFile_similar image).bind fun object other opened same => ?_
  obtain ⟨isLittleEndian, is64, rfl, rfl⟩ := same
  refine .ok (run_similar (image.twins platform isLittleEndian is64) queries fun query member => ?_)
  exact (loads isLittleEndian is64 opened query member).imp
    (fun _ reads _ known => readStrtab_similar platform image isLittleEndian is64 known reads)
    (fun _ reads _ known => readSymtab_similar platform image isLittleEndian is64 known reads)

/-- The two kinds of file agree about every read but one of nothing inside of the image, and so do all
runs of queries that make no such read. -/
theorem media_agree_iff (image : Image) :
    (∀ (size : Nat) offset, BaseFile.offT offset + size < 0x8000000000000000 →
      (Agreeing Similar Eq ((image.file .disk).read size offset) ((image.file .memory).read size offset) ↔
        ¬ image.ReadsNothing size offset)) ∧
    ∀ platform queries, image.LoadsSomething platform queries → image.AnswersAlike platform queries := by
  refine ⟨fun size offset bounded => ⟨fun alike nothing => readBytes_differ image nothing alike, fun something => ?_⟩,
    fun platform queries => answersAlike_of_loads platform image queries⟩
  have positive : BaseFile.offT offset < 0 ∨ size < 0x8000000000000000 := by omega
  exact readBytes_similar image (Nat.le_refl size) positive something

def emptySymtab : Image := ⟨"f", header64 1 0 ++ section64 0 2 [] [] 0 24, by decide +kernel⟩

/-- The disk gives an error for the empty table, where the memory gives no symbols. -/
theorem media_agree_fails :
    ¬ Agreeing Similar Eq ((emptySymtab.file .disk).read 0 0) ((emptySymtab.file .memory).read 0 0) ∧
      ¬ emptySymtab.AnswersAlike littleHost [.getSymtabEntries] := by
  refine ⟨readBytes_differ emptySymtab ⟨rfl, Nat.zero_le _⟩, fun alike => ?_⟩
  have disk : session littleHost [.getSymtabEntries] (emptySymtab.file .disk) =
      .ok [.error (internalError "fread error in f at offset 0 for 0 bytes")] := by decide +kernel
  have memory : session littleHost [.getSymtabEntries] (emptySymtab.file .memory) = .ok [.ok (.entries (some []))] := by
    decide +kernel
  rw [Image.AnswersAlike, disk, memory, Agreeing.ok_iff, List.forall₂_cons] at alike
  cases alike.1

def namedImage : Image := ⟨"f", namedData, namedData_small⟩

theorem sectionsOf_namedImage :
    sectionsOf littleHost (namedImage.object true true .disk) = .ok [symtabSection, strtabSection] := by decide +kernel

theorem onTable_namedImage :
    OnTable littleHost (namedImage.object true true .disk) (namedImage.NamesRead littleHost true true)
      (namedImage.SymbolsRead littleHost true true) false := by
  refine ⟨fun sections info known found _ empty => ?_, fun symtab loaded _ sections info known found _ => ?_⟩
  · obtain rfl := Except.ok.inj (sectionsOf_namedImage.symm.trans known)
    cases found
    exact absurd empty.1 (by decide)
  · obtain rfl := Except.ok.inj (sectionsOf_namedImage.symm.trans known)
    have table : symtabOf littleHost (namedImage.object true true .disk) false =
        .ok (some ⟨[⟨1, 0, 0, 0, 0, 1⟩], 1⟩) := by decide +kernel
    obtain rfl := Option.some.inj (Except.ok.inj (table.symm.trans loaded))
    cases found
    exact ⟨fun empty => absurd empty.1 (by decide), by decide⟩

theorem loadsSomething_namedImage :
    namedImage.LoadsSomething littleHost [.getSymtabEntries, .lookupSymbol 0, .getModuleImageBase] := by
  intro isLittleEndian is64 opened query asked
  have kind : Object.openFile (namedImage.file .disk) = .ok (namedImage.object true true .disk) := by rfl
  obtain ⟨-, rfl, rfl⟩ := Object.mk.inj (Except.ok.inj (kind.symm.trans opened))
  have symbol : symbolThrough littleHost (namedImage.object true true .disk) false 0 = .ok (some ['f']) := by
    decide +kernel
  simp only [List.mem_cons, List.not_mem_nil, or_false] at asked
  rcases asked with rfl | rfl | rfl
  · exact onTable_namedImage
  · exact ⟨onTable_namedImage, fun missing => absurd symbol (missing _)⟩
  · trivial

theorem media_agree_iff_namedImage :
    Agreeing Similar Eq ((namedImage.file .disk).read 24 192) ((namedImage.file .memory).read 24 192) ∧
      namedImage.AnswersAlike littleHost [.getSymtabEntries, .lookupSymbol 0, .getModuleImageBase] := by
  obtain ⟨reads, answers⟩ := media_agree_iff namedImage
  exact ⟨(reads 24 192 (by decide)).mpr nofun, answers littleHost _ loadsSomething_namedImage⟩

end Sessions

end Cpptrace.Binary
