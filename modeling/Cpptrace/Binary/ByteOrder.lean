import Cpptrace.Binary.Loads

/-! One object in two byte orders.

An `AbstractElf` has the values of the headers, the strings and the symbols. Its
encodings agree on all of them, and differ in the order of the bytes of each
member. The size of the header stands apart: it is compared before it is swapped.
-/

set_option autoImplicit false

namespace Cpptrace.Binary

open Library Library.Outcome Utils

section Members

/-- The members of each structure that are used after `byteswap_if_needed`. -/
def Ehdr.members (is64 : Bool) : List Member :=
  [ePhoff is64, eShoff is64, ePhentsize is64, ePhnum is64, eShentsize is64, eShnum is64, eShstrndx is64]

def Phdr.members (is64 : Bool) : List Member := [pType, pOffset is64, pVaddr is64]

def Shdr.members (is64 : Bool) : List Member :=
  [shName, shType, shAddr is64, shOffset is64, shSize is64, shLink is64, shEntsize is64]

def Sym.members (is64 : Bool) : List Member :=
  [stName, stInfo is64, stOther is64, stShndx is64, stValue is64, stSize is64]

/-- A member is an integer within a structure of that size. -/
def Member.Fits (size : Nat) (member : Member) : Prop := IsIntegerSize member.size ∧ member.offset + member.size ≤ size

instance instDecidableFits (size : Nat) (member : Member) : Decidable (member.Fits size) := by
  unfold Member.Fits IsIntegerSize
  infer_instance

theorem Ehdr.members_fit (is64 : Bool) : ∀ member ∈ Ehdr.members is64, member.Fits (Ehdr.sizeOf is64) := by
  cases is64 <;> decide

theorem Phdr.members_fit (is64 : Bool) : ∀ member ∈ Phdr.members is64, member.Fits (Phdr.sizeOf is64) := by
  cases is64 <;> decide

theorem Shdr.members_fit (is64 : Bool) : ∀ member ∈ Shdr.members is64, member.Fits (Shdr.sizeOf is64) := by
  cases is64 <;> decide

theorem Sym.members_fit (is64 : Bool) : ∀ member ∈ Sym.members is64, member.Fits (Sym.sizeOf is64) := by
  cases is64 <;> decide

end Members

section Encodings

abbrev Record := Member → Nat

structure AbstractElf where
  is64 : Bool
  ehsize : Nat
  header : Record
  programHeaders : List Record
  sectionHeaders : List Record
  /-- What is in a section, if it is a string table or a symbol table. -/
  strings : Nat → Bytes
  symbols : Nat → List Record
  phnum : programHeaders.length = header (Ehdr.ePhnum is64)
  shnum : sectionHeaders.length = header (Ehdr.eShnum is64)

def Written (littleEndian : Bool) (data : Bytes) (offset size : Nat) (members : List Member) (record : Record) : Prop :=
  offset + size ≤ data.length ∧
    ∀ member ∈ members, member.value littleEndian ((data.drop offset).take size) = record member

/-- The data holds the object in that byte order, whatever it has for the size of the header. -/
structure EncodesRest (elf : AbstractElf) (littleEndian : Bool) (data : Bytes) : Prop where
  ident : data.take 7 =
    [0x7f, 0x45, 0x4c, 0x46, if elf.is64 then 2 else 1, if littleEndian then 1 else 2, 1]
  header : Written littleEndian data 0 (Ehdr.sizeOf elf.is64) (Ehdr.members elf.is64) elf.header
  programHeaders : ∀ i record, elf.programHeaders[i]? = some record →
    Written littleEndian data (elf.header (Ehdr.ePhoff elf.is64) + elf.header (Ehdr.ePhentsize elf.is64) * i)
      (Phdr.sizeOf elf.is64) (Phdr.members elf.is64) record
  sectionHeaders : ∀ i record, elf.sectionHeaders[i]? = some record →
    Written littleEndian data (elf.header (Ehdr.eShoff elf.is64) + elf.header (Ehdr.eShentsize elf.is64) * i)
      (Shdr.sizeOf elf.is64) (Shdr.members elf.is64) record
  strings : ∀ i record, elf.sectionHeaders[i]? = some record → record Shdr.shType = shtStrtab.toNat →
    let size := record (Shdr.shSize elf.is64)
    let offset := record (Shdr.shOffset elf.is64)
    offset + size ≤ data.length ∧ (data.drop offset).take size = elf.strings i
  symbols : ∀ i record, elf.sectionHeaders[i]? = some record →
    record Shdr.shType = shtSymtab.toNat ∨ record Shdr.shType = shtDynsym.toNat →
    let size := record (Shdr.shSize elf.is64)
    let offset := record (Shdr.shOffset elf.is64)
    let entsize := Sym.sizeOf elf.is64
    record (Shdr.shEntsize elf.is64) = entsize → size % entsize = 0 →
    offset + size ≤ data.length ∧ (elf.symbols i).length = size / entsize ∧
      ∀ k symbol, (elf.symbols i)[k]? = some symbol →
        Written littleEndian data (offset + k * entsize) entsize (Sym.members elf.is64) symbol

structure Encodes (elf : AbstractElf) (littleEndian : Bool) (data : Bytes) : Prop
    extends EncodesRest elf littleEndian data where
  ehsize : (Ehdr.eEhsize elf.is64).value littleEndian (data.take (Ehdr.sizeOf elf.is64)) = elf.ehsize

end Encodings

section Fields

variable {platform : Platform} {object : Object}

theorem Member.length_bytes {size : Nat} {struct : Bytes} {member : Member} (fits : member.Fits size)
    (whole : struct.length = size) : (member.bytes struct).length = member.size := by
  have inside := fits.2
  rw [Member.bytes, List.length_take, List.length_drop]
  omega

theorem field_eq {size : Nat} {struct : Bytes} {member : Member} (fits : member.Fits size)
    (whole : struct.length = size) :
    field platform object struct member = member.value object.isLittleEndian struct := by
  have length := Member.length_bytes fits whole
  unfold field byteswapIfNeeded Member.value
  split
  next same => rw [same]
  next different =>
    have swapped := byteswap_valueOf platform.isLittleEndian (member.bytes struct) (by rw [length]; exact fits.1)
    rw [length] at swapped
    rw [swapped]
    cases host : platform.isLittleEndian <;> cases file : object.isLittleEndian <;> simp_all

variable {data : Bytes} {offset size : Nat} {members : List Member} {record : Record}

theorem Written.lt {littleEndian : Bool} (written : Written littleEndian data offset size members record)
    {member : Member} (listed : member ∈ members) (fits : member.Fits size) : record member < 256 ^ member.size := by
  have whole : ((data.drop offset).take size).length = size := by
    rw [List.length_take, List.length_drop]
    have inside := written.1
    omega
  rw [← written.2 member listed, ← Member.length_bytes fits whole]
  exact valueOf_lt _ _

/-- What is written in the object's byte order is read as it is, on every host. -/
theorem read_written (platform : Platform) (position : UInt64)
    (written : Written object.isLittleEndian object.file.data position.toNat size members record)
    (fits : ∀ member ∈ members, member.Fits size) (positive : 0 < size) :
    object.file.read size position = .ok ((object.file.data.drop position.toNat).take size) ∧
      ∀ member ∈ members,
        field platform object ((object.file.data.drop position.toNat).take size) member = record member := by
  refine ⟨BaseFile.readBytes_inside (Nat.le_refl size) positive written.1, fun member listed => ?_⟩
  have inside := written.1
  rw [field_eq (fits member listed), written.2 member listed]
  rw [List.length_take, List.length_drop]
  omega

/-- The place of an entry of a table of headers, where nothing wraps. -/
theorem entry_position {base entsize i : Nat} (short : entsize < 0x10000) (few : i < 0x10000)
    (below : base + entsize * i < 0x8000000000000000) :
    (base.toUInt64 + (entsize.toUInt32 * i.toUInt32).toUInt64).toNat = base + entsize * i := by
  have product : entsize * i < 0x10000 * 0x10000 := Nat.mul_lt_mul'' short few
  have entsizeFits : entsize.toUInt32.toNat = entsize := Nat.mod_eq_of_lt (by simp; omega)
  have iFits : i.toUInt32.toNat = i := Nat.mod_eq_of_lt (by simp; omega)
  have baseFits : base.toUInt64.toNat = base := Nat.mod_eq_of_lt (by simp; omega)
  rw [UInt64.toNat_add, UInt32.toNat_toUInt64, UInt32.toNat_mul, entsizeFits, iFits, baseFits,
    Nat.mod_eq_of_lt (a := entsize * i) product]
  exact Nat.mod_eq_of_lt (by omega)

end Fields

section Values

variable {is64 : Bool} {value record : Record}

theorem headerInfo_congr (same : ∀ member ∈ Ehdr.members is64, value member = record member) :
    headerInfo is64 value = headerInfo is64 record := by
  simp only [Ehdr.members, List.forall_mem_cons] at same
  simp only [headerInfo, same]

theorem sectionInfo_congr (same : ∀ member ∈ Shdr.members is64, value member = record member) :
    sectionInfo is64 value = sectionInfo is64 record := by
  simp only [Shdr.members, List.forall_mem_cons] at same
  simp only [sectionInfo, same]

theorem symtabEntry_congr (same : ∀ member ∈ Sym.members is64, value member = record member) :
    symtabEntry is64 value = symtabEntry is64 record := by
  simp only [Sym.members, List.forall_mem_cons] at same
  simp only [symtabEntry, same]

end Values

structure Embodies (elf : AbstractElf) (object : Object) : Prop where
  is64 : object.is64 = elf.is64
  rest : EncodesRest elf object.isLittleEndian object.file.data

def Accepted (platform : Platform) (object : Object) : Prop :=
  (Ehdr.eEhsize object.is64).value platform.isLittleEndian (object.file.data.take (Ehdr.sizeOf object.is64)) =
    Ehdr.sizeOf object.is64

section Reading

variable {platform : Platform} {object : Object} {elf : AbstractElf}

theorem readHeader_read (platform : Platform) (embodies : Embodies elf object) :
    object.file.read (Ehdr.sizeOf object.is64) 0 = .ok (object.file.data.take (Ehdr.sizeOf object.is64)) ∧
      ∀ member ∈ Ehdr.members object.is64,
        field platform object (object.file.data.take (Ehdr.sizeOf object.is64)) member = elf.header member := by
  have written := embodies.rest.header
  rw [← embodies.is64] at written
  exact read_written platform 0 written (Ehdr.members_fit object.is64) (by cases object.is64 <;> decide)

theorem readHeader_accepted (embodies : Embodies elf object) (accepted : Accepted platform object) :
    readHeader platform object = .ok (headerInfo object.is64 elf.header) := by
  obtain ⟨read, fields⟩ := readHeader_read platform embodies
  unfold Accepted at accepted
  rw [← headerInfo_congr fields, readHeader, read]
  simp [rejectIf, accepted, bind, Except.bind]
  rfl

theorem readHeader_refused (embodies : Embodies elf object) (refused : ¬ Accepted platform object) :
    ∃ what, readHeader platform object = .error (.internalError what) := by
  obtain ⟨read, -⟩ := readHeader_read platform embodies
  unfold Accepted at refused
  rw [readHeader, read]
  simp [rejectIf, refused, bind, Except.bind]
  exact ⟨_, rfl⟩

/-- An entry of a table of headers, whose place is a product and a sum of members of the header. -/
theorem read_entry (platform : Platform) {base entsize i size : Nat} {members : List Member} {record : Record}
    (short : entsize < 0x10000) (few : i < 0x10000)
    (written : Written object.isLittleEndian object.file.data (base + entsize * i) size members record)
    (fits : ∀ member ∈ members, member.Fits size) (positive : 0 < size) :
    ∃ struct, object.file.read size (base.toUInt64 + (entsize.toUInt32 * i.toUInt32).toUInt64) = .ok struct ∧
      ∀ member ∈ members, field platform object struct member = record member := by
  have small := object.file.small
  have inside := written.1
  have position := entry_position short few (by omega : base + entsize * i < 0x8000000000000000)
  rw [← position] at written
  exact ⟨_, read_written platform _ written fits positive⟩

theorem header_lt (embodies : Embodies elf object) (member : Member) (listed : member ∈ Ehdr.members elf.is64)
    (short : member.size = 2) : elf.header member < 0x10000 := by
  have bound := embodies.rest.header.lt listed (Ehdr.members_fit elf.is64 member listed)
  rw [short] at bound
  exact bound

theorem readSection_written (platform : Platform) (embodies : Embodies elf object) (i : Nat) (record : Record)
    (found : elf.sectionHeaders[i]? = some record) :
    readSection platform object (headerInfo object.is64 elf.header) i = .ok (sectionInfo object.is64 record) := by
  have written := embodies.rest.sectionHeaders i record found
  have few : i < 0x10000 := by
    have within := (List.getElem?_eq_some_iff.mp found).1
    have count := header_lt embodies (Ehdr.eShnum elf.is64) (by simp [Ehdr.members]) (by cases elf.is64 <;> rfl)
    have := elf.shnum
    omega
  have short := header_lt embodies (Ehdr.eShentsize elf.is64) (by simp [Ehdr.members]) (by cases elf.is64 <;> rfl)
  rw [← embodies.is64] at written short
  obtain ⟨struct, read, fields⟩ := read_entry platform short few written (Shdr.members_fit object.is64)
    (by cases object.is64 <;> decide)
  rw [readSection, ← sectionInfo_congr fields]
  exact congrArg (· >>= _) read

/-- Once its header is accepted, an object has the sections of its file. -/
theorem sectionsOf_accepted (embodies : Embodies elf object) (accepted : Accepted platform object) :
    sectionsOf platform object = .ok (elf.sectionHeaders.map (sectionInfo object.is64)) := by
  have count : (headerInfo object.is64 elf.header).eShnum.toNat = elf.sectionHeaders.length := by
    have bound := header_lt embodies (Ehdr.eShnum elf.is64) (by simp [Ehdr.members]) (by cases elf.is64 <;> rfl)
    rw [embodies.is64, elf.shnum]
    exact Nat.mod_eq_of_lt (by simp; omega)
  rw [sectionsOf, readHeader_accepted embodies accepted]
  change (List.range (headerInfo object.is64 elf.header).eShnum.toNat).mapM _ = _
  rw [count, ← List.length_map (sectionInfo object.is64)]
  refine mapM_range_ok _ _ fun i info found => ?_
  rw [List.getElem?_map, Option.map_eq_some_iff] at found
  obtain ⟨record, found, rfl⟩ := found
  exact readSection_written platform embodies i record found

def imageBaseIn (is64 : Bool) : List Record → UInt64
  | [] => 0
  | record :: rest => if (record Phdr.pType).toUInt32 = ptPhdr then baseOf is64 record else imageBaseIn is64 rest

theorem imageBaseFrom_written (platform : Platform) (embodies : Embodies elf object) (indices : List Nat)
    (present : ∀ i ∈ indices, i < elf.programHeaders.length) :
    imageBaseFrom platform object (headerInfo object.is64 elf.header) indices =
      .ok (imageBaseIn object.is64 (indices.filterMap (elf.programHeaders[·]?))) := by
  induction indices with
  | nil => rfl
  | cons i rest ih =>
    have within := present i List.mem_cons_self
    have found := List.getElem?_eq_getElem within
    have written := embodies.rest.programHeaders i _ found
    have count := header_lt embodies (Ehdr.ePhnum elf.is64) (by simp [Ehdr.members]) (by cases elf.is64 <;> rfl)
    have short := header_lt embodies (Ehdr.ePhentsize elf.is64) (by simp [Ehdr.members]) (by cases elf.is64 <;> rfl)
    have few := elf.phnum
    rw [← embodies.is64] at written short
    obtain ⟨struct, read, fields⟩ := read_entry platform short (by omega) written (Phdr.members_fit object.is64)
      (by cases object.is64 <;> decide)
    simp only [Phdr.members, List.forall_mem_cons] at fields
    have others := ih fun other member => present other (List.mem_cons_of_mem i member)
    rw [List.filterMap_cons_some found, imageBaseFrom]
    refine (congrArg (· >>= _) read).trans ?_
    change (if _ then _ else _) = _
    rw [others, imageBaseIn, baseOf, baseOf, fields.1, fields.2.1, fields.2.2.1]
    split <;> rfl

/-- Once its header is accepted, an object has an image base, which does not depend on the byte order. -/
theorem imageBaseOf_accepted (embodies : Embodies elf object) (accepted : Accepted platform object) :
    imageBaseOf platform object = .ok (imageBaseIn elf.is64
      ((List.range elf.programHeaders.length).filterMap (elf.programHeaders[·]?))) := by
  have count : (headerInfo object.is64 elf.header).ePhnum.toNat = elf.programHeaders.length := by
    have bound := header_lt embodies (Ehdr.ePhnum elf.is64) (by simp [Ehdr.members]) (by cases elf.is64 <;> rfl)
    rw [embodies.is64, elf.phnum]
    exact Nat.mod_eq_of_lt (by simp; omega)
  rw [imageBaseOf, readHeader_accepted embodies accepted]
  change imageBaseFrom _ _ _ (List.range (headerInfo object.is64 elf.header).ePhnum.toNat) = _
  rw [count, imageBaseFrom_written platform embodies _ fun i member => List.mem_range.mp member, embodies.is64]

end Reading

section Tables

variable {platform : Platform} {object other : Object} {elf : AbstractElf}

/-- A section of the object, with its place among the headers of the file. -/
theorem sectionOf_found {index : Nat} {info : SectionInfo}
    (found : (elf.sectionHeaders.map (sectionInfo elf.is64))[index]? = some info) :
    ∃ record, elf.sectionHeaders[index]? = some record ∧ info = sectionInfo elf.is64 record := by
  rw [List.getElem?_map, Option.map_eq_some_iff] at found
  obtain ⟨record, found, same⟩ := found
  exact ⟨record, found, same.symm⟩

/-- The members of a section header keep their values in the info of the section. -/
theorem sectionInfo_toNat (embodies : Embodies elf object) {index : Nat} {record : Record}
    (found : elf.sectionHeaders[index]? = some record) :
    (sectionInfo elf.is64 record).shType.toNat = record Shdr.shType ∧
      (sectionInfo elf.is64 record).shOffset.toNat = record (Shdr.shOffset elf.is64) ∧
      (sectionInfo elf.is64 record).shSize.toNat = record (Shdr.shSize elf.is64) ∧
      (sectionInfo elf.is64 record).shEntsize.toNat = record (Shdr.shEntsize elf.is64) := by
  have written := embodies.rest.sectionHeaders index record found
  have bound := fun member listed => written.lt listed (Shdr.members_fit elf.is64 member listed)
  simp only [Shdr.members, List.forall_mem_cons] at bound
  obtain ⟨-, type, -, offset, size, -, entsize, -⟩ := bound
  refine ⟨Nat.mod_eq_of_lt ?_, Nat.mod_eq_of_lt ?_, Nat.mod_eq_of_lt ?_, Nat.mod_eq_of_lt ?_⟩
  · exact type
  · exact offset.trans_le (by cases elf.is64 <;> decide)
  · exact size.trans_le (by cases elf.is64 <;> decide)
  · exact entsize.trans_le (by cases elf.is64 <;> decide)

/-- Two objects of one file that differ in their bytes alone. -/
structure Alike (elf : AbstractElf) (object other : Object) : Prop where
  first : Embodies elf object
  second : Embodies elf other
  medium : object.file.medium = other.file.medium
  path : object.file.path = other.file.path

theorem readStrtab_alike (platform : Platform) (alike : Alike elf object other) (index : Nat) :
    readStrtab platform object (elf.sectionHeaders.map (sectionInfo elf.is64)) index =
      readStrtab platform other (elf.sectionHeaders.map (sectionInfo elf.is64)) index := by
  unfold readStrtab
  cases held : (elf.sectionHeaders.map (sectionInfo elf.is64))[index]? with
  | none => rfl
  | some info =>
    obtain ⟨record, found, rfl⟩ := sectionOf_found held
    obtain ⟨type, offset, size, -⟩ := sectionInfo_toNat alike.first found
    rw [alike.path]
    dsimp only
    by_cases strtab : (sectionInfo elf.is64 record).shType = shtStrtab
    · have isStrtab : record Shdr.shType = shtStrtab.toNat := by rw [← type, strtab]
      obtain ⟨inside, strings⟩ := alike.first.rest.strings index record found isStrtab
      obtain ⟨insideOther, stringsOther⟩ := alike.second.rest.strings index record found isStrtab
      rw [← offset, ← size] at inside insideOther strings stringsOther
      have small := object.file.small
      have room : (sectionInfo elf.is64 record).shSize.toNat ≤ ((sectionInfo elf.is64 record).shSize + 1).toNat := by
        rw [UInt64.toNat_add]
        simp
        omega
      rcases BaseFile.readBytes_alike alike.medium alike.path room inside insideOther with
        ⟨failure, fails, failsOther⟩ | ⟨read, readOther⟩
      · rw [fails, failsOther]
      · rw [read, readOther, strings, stringsOther]
    · simp [rejectIf, strtab]
      rfl

theorem slice_slice (data : Bytes) (start within : Nat) {size part : Nat} (inside : within + part ≤ size) :
    (((data.drop start).take size).drop within).take part = (data.drop (start + within)).take part := by
  rw [List.drop_take, List.take_take, List.drop_drop, Nat.min_eq_left (by omega)]

/-- The symbols of a table, once the table is known to be one of whole symbols. -/
theorem entries_written (platform : Platform) (embodies : Embodies elf object) {index : Nat} {record : Record}
    (found : elf.sectionHeaders[index]? = some record)
    (symtab : record Shdr.shType = shtSymtab.toNat ∨ record Shdr.shType = shtDynsym.toNat)
    (entsize : record (Shdr.shEntsize elf.is64) = Sym.sizeOf elf.is64)
    (whole : record (Shdr.shSize elf.is64) % Sym.sizeOf elf.is64 = 0) :
    (elements (Sym.sizeOf elf.is64) (record (Shdr.shSize elf.is64) / Sym.sizeOf elf.is64)
        ((object.file.data.drop (record (Shdr.shOffset elf.is64))).take (record (Shdr.shSize elf.is64)))).map
        (fun entry => symtabEntry elf.is64 (field platform object entry)) =
      (elf.symbols index).map (symtabEntry elf.is64) := by
  obtain ⟨-, count, written⟩ := embodies.rest.symbols index record found symtab entsize whole
  unfold elements
  rw [List.map_map, ← count]
  refine List.ext_getElem (by simp) fun k left right => ?_
  rw [List.length_map] at right
  have written := written k _ (List.getElem?_eq_getElem right)
  have within : k * Sym.sizeOf elf.is64 + Sym.sizeOf elf.is64 ≤ record (Shdr.shSize elf.is64) := by
    rw [← Nat.succ_mul]
    exact (Nat.mul_le_mul_right _ (count ▸ right)).trans (Nat.div_mul_le_self _ _)
  rw [List.getElem_map, List.getElem_map, List.getElem_range, Function.comp_apply, slice_slice _ _ _ within]
  refine symtabEntry_congr fun member listed => ?_
  rw [field_eq (Sym.members_fit elf.is64 member listed), written.2 member listed]
  rw [List.length_take, List.length_drop]
  have inside := written.1
  omega

theorem isSymtab_type {dynamic : Bool} {info : SectionInfo} (symtab : isSymtab dynamic info = true) :
    info.shType.toNat = shtSymtab.toNat ∨ info.shType.toNat = shtDynsym.toNat := by
  unfold isSymtab at symtab
  rw [decide_eq_true_eq] at symtab
  rw [symtab]
  cases dynamic with
  | false => exact .inl rfl
  | true => exact .inr rfl

theorem readSymtab_alike (platform : Platform) (alike : Alike elf object other) (dynamic : Bool) :
    readSymtab platform object (elf.sectionHeaders.map (sectionInfo elf.is64)) dynamic =
      readSymtab platform other (elf.sectionHeaders.map (sectionInfo elf.is64)) dynamic := by
  unfold readSymtab
  cases held : (elf.sectionHeaders.map (sectionInfo elf.is64)).find? (isSymtab dynamic) with
  | none => rfl
  | some info =>
    have symtab := isSymtab_type (List.find?_some held)
    obtain ⟨index, held⟩ := List.mem_iff_getElem?.mp (List.mem_of_find?_eq_some held)
    obtain ⟨record, found, rfl⟩ := sectionOf_found held
    obtain ⟨type, offset, size, entsize⟩ := sectionInfo_toNat alike.first found
    rw [type] at symtab
    dsimp only
    rw [alike.path, alike.first.is64, alike.second.is64, size, entsize]
    by_cases same : record (Shdr.shEntsize elf.is64) = Sym.sizeOf elf.is64
    · by_cases whole : record (Shdr.shSize elf.is64) % Sym.sizeOf elf.is64 = 0
      · have inside := (alike.first.rest.symbols index record found symtab same whole).1
        have insideOther := (alike.second.rest.symbols index record found symtab same whole).1
        have entries := entries_written platform alike.first found symtab same whole
        have entriesOther := entries_written platform alike.second found symtab same whole
        rw [← offset] at inside insideOther entries entriesOther
        unfold BaseFile.read
        rcases BaseFile.readBytes_alike alike.medium alike.path (Nat.le_refl _) inside insideOther with
          ⟨failure, fails, failsOther⟩ | ⟨read, readOther⟩
        · simp only [fails, failsOther, error_bind]
        · simp only [read, readOther, ok_bind]
          rw [entries, entriesOther]
      · simp [rejectIf, same, whole]
        rfl
    · simp [rejectIf, same]
      rfl

/-- A header that is accepted leaves nothing that depends on the byte order. -/
theorem answerOf_alike (alike : Alike elf object other) (accepted : Accepted platform object)
    (acceptedOther : Accepted platform other) (query : Query) :
    answerOf platform object query = answerOf platform other query := by
  have header := readHeader_accepted alike.first accepted
  have headerOther := readHeader_accepted alike.second acceptedOther
  have sections := sectionsOf_accepted alike.first accepted
  have sectionsOther := sectionsOf_accepted alike.second acceptedOther
  rw [alike.first.is64] at header sections
  rw [alike.second.is64] at headerOther sectionsOther
  have strtab : strtabOf platform object = strtabOf platform other := by
    funext index
    rw [strtabOf, strtabOf, sections, sectionsOther]
    exact readStrtab_alike platform alike index
  have symtab : symtabOf platform object = symtabOf platform other := by
    funext dynamic
    rw [symtabOf, symtabOf, sections, sectionsOther]
    exact readSymtab_alike platform alike dynamic
  have base := (imageBaseOf_accepted alike.first accepted).trans (imageBaseOf_accepted alike.second acceptedOther).symm
  have symbolIn : symbolIn platform object = symbolIn platform other := by
    funext pc table
    unfold Binary.symbolIn
    rw [strtab]
  have symbolThrough : symbolThrough platform object = symbolThrough platform other := by
    funext dynamic pc
    unfold Binary.symbolThrough
    rw [symtab, symbolIn]
  have entries : entriesOf platform object = entriesOf platform other := by
    funext dynamic
    unfold entriesOf
    rw [symtab, strtab]
  -- each query is put together from the reads above
  cases query with
  | getModuleImageBase => rw [answerOf, answerOf, base]
  | lookupSymbol pc => rw [answerOf, answerOf, symbolOf, symbolOf, symbolThrough]
  | getPcRanges => rw [answerOf, answerOf, textRanges, textRanges, header, headerOther, strtab, sections, sectionsOther]
  | getSymtabEntries => rw [answerOf, answerOf, entries]
  | getDynamicSymtabEntries => rw [answerOf, answerOf, entries]

end Tables

section Opening

variable {platform : Platform} {object : Object} {elf : AbstractElf}

/-- An encoding opens as an object of its class and its byte order. -/
theorem openFile_encoded {file : BaseFile} {littleEndian : Bool} (encodes : EncodesRest elf littleEndian file.data) :
    Object.openFile file = .ok ⟨file, littleEndian, elf.is64⟩ := by
  have ident := encodes.ident
  have long : 7 ≤ file.data.length := by
    have length := congrArg List.length ident
    simp only [List.length_take, List.length_cons, List.length_nil] at length
    omega
  have read (start : UInt64) (size : Nat) (positive : 0 < size) (within : start.toNat + size ≤ 7) :
      file.read size start = .ok (((file.data.take 7).drop start.toNat).take size) := by
    rw [List.drop_take, List.take_take, Nat.min_eq_left (by omega)]
    exact BaseFile.readBytes_inside (Nat.le_refl size) positive (within.trans long)
  unfold Object.openFile
  rw [read 0 4 (by decide) (by decide), read 4 1 (by decide) (by decide), read 5 1 (by decide) (by decide),
    read 6 1 (by decide) (by decide), ident]
  cases elf.is64 <;> cases littleEndian <;> rfl

theorem accepted_iff (platform : Platform) {file : BaseFile} {littleEndian : Bool}
    (encodes : Encodes elf littleEndian file.data) :
    Accepted platform ⟨file, littleEndian, elf.is64⟩ ↔
      (if platform.isLittleEndian = littleEndian then elf.ehsize else byteswap 2 elf.ehsize) =
        Ehdr.sizeOf elf.is64 := by
  have fits : (Ehdr.eEhsize elf.is64).Fits (Ehdr.sizeOf elf.is64) := by cases elf.is64 <;> decide
  have two : (Ehdr.eEhsize elf.is64).size = 2 := by cases elf.is64 <;> rfl
  have inside := encodes.header.1
  have whole : (file.data.take (Ehdr.sizeOf elf.is64)).length = Ehdr.sizeOf elf.is64 := by
    rw [List.length_take]
    omega
  have length := Member.length_bytes fits whole
  have swapped := byteswap_valueOf littleEndian _ (length ▸ fits.1)
  have written := encodes.ehsize
  unfold Accepted
  unfold Member.value at written ⊢
  rw [written, length, two] at swapped
  split
  next same => rw [same, written]
  next different => rw [Bool.eq_not.mpr different, ← swapped]

def refusedAnswer : Query → Option Answer
  | .lookupSymbol _ => some (.symbol none)
  | _ => none

theorem answerOf_refused (embodies : Embodies elf object) (refused : ¬ Accepted platform object) (query : Query) :
    (answerOf platform object query).toOption = refusedAnswer query := by
  obtain ⟨what, header⟩ := readHeader_refused embodies refused
  have sections : sectionsOf platform object = .error (.internalError what) := by rw [sectionsOf, header, error_bind]
  have symtab (dynamic : Bool) : symtabOf platform object dynamic = .error (.internalError what) := by
    rw [symtabOf, sections, error_bind]
  have symbol (dynamic : Bool) (pc : FramePtr) : symbolThrough platform object dynamic pc = .ok none := by
    rw [symbolThrough, symtab, attempted]
    rfl
  cases query with
  | getModuleImageBase =>
    rw [answerOf, imageBaseOf, header]
    rfl
  | lookupSymbol pc =>
    rw [answerOf, symbolOf, symbol, ok_bind]
    dsimp only
    rw [symbol]
    rfl
  | getPcRanges =>
    rw [answerOf, textRanges, header]
    rfl
  | getSymtabEntries | getDynamicSymtabEntries =>
    rw [answerOf, entriesOf, symtab]
    rfl

theorem imageBase_isSome_iff (platform : Platform) (embodies : Embodies elf object) :
    (answerOf platform object .getModuleImageBase).toOption.isSome ↔ Accepted platform object := by
  by_cases accepted : Accepted platform object
  · rw [answerOf, imageBaseOf_accepted embodies accepted]
    exact iff_of_true rfl accepted
  · rw [answerOf_refused embodies accepted]
    exact iff_of_false nofun accepted

def answered (platform : Platform) (file : BaseFile) (query : Query) : Option Answer :=
  (Object.openFile file >>= fun object => (step platform object query Elf.new).1).toOption

/-- On that host, the byte order of the two files makes no difference. -/
def AnswersAlike (platform : Platform) (little big : BaseFile) : Prop :=
  ∀ query, answered platform little query = answered platform big query

theorem answered_encoded {file : BaseFile} {littleEndian : Bool} (encodes : EncodesRest elf littleEndian file.data)
    (query : Query) :
    answered platform file query = (answerOf platform ⟨file, littleEndian, elf.is64⟩ query).toOption := by
  rw [answered, openFile_encoded encodes, ok_bind, step_new_toOption]

/-- The byte order makes no difference exactly when neither of the two files is accepted: the size that
the header has of itself is that of a header neither as it is nor with its bytes swapped. -/
theorem answersAlike_iff (platform : Platform) (elf : AbstractElf) (little big : BaseFile)
    (encodes : Encodes elf true little.data) (encodesBig : Encodes elf false big.data) :
    AnswersAlike platform little big ↔
      elf.ehsize ≠ Ehdr.sizeOf elf.is64 ∧ byteswap 2 elf.ehsize ≠ Ehdr.sizeOf elf.is64 := by
  have embodies : Embodies elf ⟨little, true, elf.is64⟩ := ⟨rfl, encodes.toEncodesRest⟩
  have embodiesBig : Embodies elf ⟨big, false, elf.is64⟩ := ⟨rfl, encodesBig.toEncodesRest⟩
  have accepted := accepted_iff platform encodes
  have acceptedBig := accepted_iff platform encodesBig
  have asymmetric : byteswap 2 (Ehdr.sizeOf elf.is64) ≠ Ehdr.sizeOf elf.is64 := by cases elf.is64 <;> decide
  unfold AnswersAlike
  simp only [answered_encoded encodes.toEncodesRest, answered_encoded encodesBig.toEncodesRest]
  constructor
  · intro alike
    have together := imageBase_isSome_iff platform embodies
    rw [alike, imageBase_isSome_iff platform embodiesBig, accepted, acceptedBig] at together
    have swaps : elf.ehsize = Ehdr.sizeOf elf.is64 ↔ byteswap 2 elf.ehsize = Ehdr.sizeOf elf.is64 := by
      cases host : platform.isLittleEndian <;> simp [host] at together <;> tauto
    have not : elf.ehsize ≠ Ehdr.sizeOf elf.is64 := fun same => asymmetric (same ▸ swaps.mp same)
    exact ⟨not, fun same => not (swaps.mpr same)⟩
  · rintro ⟨not, notSwapped⟩ query
    rw [answerOf_refused embodies, answerOf_refused embodiesBig]
    · rw [acceptedBig]
      split <;> assumption
    · rw [accepted]
      split <;> assumption

/-- An object without segments and sections, whose header says that it has that size. -/
def bare (ehsize : Nat) : AbstractElf where
  is64 := true
  ehsize := ehsize
  header _ := 0
  programHeaders := []
  sectionHeaders := []
  strings _ := []
  symbols _ := []
  phnum := rfl
  shnum := rfl

/-- The header of that object, with the two bytes of its size. -/
def bareFile (littleEndian : Bool) (first second : UInt8) : BaseFile where
  medium := .disk
  objectPath := "a.out"
  data := padded 52 [0x7f, 0x45, 0x4c, 0x46, 2, if littleEndian then 1 else 2, 1] ++ [first, second] ++ padded 10 []
  small := by simp [padded]

instance instDecidableWritten (littleEndian : Bool) (data : Bytes) (offset size : Nat) (members : List Member)
    (record : Record) : Decidable (Written littleEndian data offset size members record) := by
  unfold Written
  infer_instance

theorem encodes_bare (littleEndian : Bool) (first second : UInt8) {ehsize : Nat}
    (header : Written littleEndian (bareFile littleEndian first second).data 0 64 (Ehdr.members true) fun _ => 0)
    (value : valueOf littleEndian [first, second] = ehsize) :
    Encodes (bare ehsize) littleEndian (bareFile littleEndian first second).data where
  ident := rfl
  header := header
  programHeaders := nofun
  sectionHeaders := nofun
  strings := nofun
  symbols := nofun
  ehsize := value

def structOf (littleEndian : Bool) (size : Nat) (members : List Member) (record : Record) : Bytes :=
  (List.range size).map fun i =>
    match members.find? fun member => member.offset ≤ i ∧ i < member.offset + member.size with
    | some member =>
      let index := if littleEndian then i - member.offset else member.offset + member.size - 1 - i
      (digit (record member) index).toUInt8
    | none => 0

def recordOf (values : List (Member × Nat)) : Record := fun member => (values.lookup member).getD 0

/-- The headers of a segment, a symbol table and the table with the names of its symbols. -/
def linkedHeader : Record := recordOf
  [(Ehdr.ePhoff true, 64), (Ehdr.ePhentsize true, 56), (Ehdr.ePhnum true, 1),
    (Ehdr.eShoff true, 120), (Ehdr.eShentsize true, 64), (Ehdr.eShnum true, 2), (Ehdr.eShstrndx true, 1)]

def linkedSegment : Record := recordOf [(Phdr.pType, 6), (Phdr.pOffset true, 64), (Phdr.pVaddr true, 0x400040)]

def linkedSymtab : Record := recordOf
  [(Shdr.shName, 1), (Shdr.shType, 2), (Shdr.shOffset true, 248), (Shdr.shSize true, 24), (Shdr.shLink true, 1),
    (Shdr.shEntsize true, 24)]

def linkedStrtab : Record := recordOf
  [(Shdr.shName, 1), (Shdr.shType, 3), (Shdr.shOffset true, 272), (Shdr.shSize true, 3)]

def linkedSymbol : Record := recordOf [(Sym.stName, 1), (Sym.stValue true, 0x401000), (Sym.stSize true, 16)]

def linked : AbstractElf where
  is64 := true
  ehsize := 64
  header := linkedHeader
  programHeaders := [linkedSegment]
  sectionHeaders := [linkedSymtab, linkedStrtab]
  strings _ := [0, 0x66, 0]
  symbols _ := [linkedSymbol]
  phnum := by decide
  shnum := by decide

def linkedParts (littleEndian : Bool) : Bytes :=
  structOf littleEndian 56 (Phdr.members true) linkedSegment ++
    structOf littleEndian 64 (Shdr.members true) linkedSymtab ++
    structOf littleEndian 64 (Shdr.members true) linkedStrtab ++
    structOf littleEndian 24 (Sym.members true) linkedSymbol ++ [0, 0x66, 0]

def linkedFile (littleEndian : Bool) : BaseFile where
  medium := .disk
  objectPath := "a.out"
  data := padded 16 [0x7f, 0x45, 0x4c, 0x46, 2, if littleEndian then 1 else 2, 1] ++
    (structOf littleEndian 64 (Ehdr.eEhsize true :: Ehdr.members true) fun member =>
      if member = Ehdr.eEhsize true then 64 else linkedHeader member).drop 16 ++ linkedParts littleEndian
  small := by cases littleEndian <;> decide +kernel

theorem encodes_linked (littleEndian : Bool) : Encodes linked littleEndian (linkedFile littleEndian).data where
  ident := by cases littleEndian <;> decide +kernel
  header := by cases littleEndian <;> decide +kernel
  programHeaders i record found := by
    match i, found with
    | 0, rfl => cases littleEndian <;> decide +kernel
  sectionHeaders i record found := by
    match i, found with
    | 0, rfl | 1, rfl => cases littleEndian <;> decide +kernel
  strings i record found strtab := by
    match i, found with
    | 0, rfl => exact absurd strtab (by decide)
    | 1, rfl => cases littleEndian <;> decide +kernel
  symbols i record found symtab _ _ := by
    match i, found with
    | 0, rfl =>
      refine ⟨by cases littleEndian <;> decide +kernel, rfl, fun k symbol held => ?_⟩
      match k, held with
      | 0, rfl => cases littleEndian <;> decide +kernel
    | 1, rfl => exact absurd symtab (by decide)
  ehsize := by cases littleEndian <;> decide +kernel

theorem answersAlike_iff_linked :
    (Encodes linked true (linkedFile true).data ∧ Encodes linked false (linkedFile false).data) ∧
      (AnswersAlike littleHost (linkedFile true) (linkedFile false) ↔ 64 ≠ 64 ∧ byteswap 2 64 ≠ 64) :=
  ⟨⟨encodes_linked true, encodes_linked false⟩,
    answersAlike_iff littleHost linked _ _ (encodes_linked true) (encodes_linked false)⟩

/-- The two files of a header with the right size of itself differ in the image base. -/
theorem answersAlike_fails :
    (Encodes (bare 64) true (bareFile true 64 0).data ∧ Encodes (bare 64) false (bareFile false 0 64).data) ∧
      ¬ AnswersAlike littleHost (bareFile true 64 0) (bareFile false 0 64) := by
  have encoded : Encodes (bare 64) true (bareFile true 64 0).data :=
    encodes_bare true 64 0 (by decide +kernel) rfl
  have encodedBig : Encodes (bare 64) false (bareFile false 0 64).data :=
    encodes_bare false 0 64 (by decide +kernel) rfl
  have little : answered littleHost (bareFile true 64 0) .getModuleImageBase = some (.imageBase 0) := by decide +kernel
  have big : answered littleHost (bareFile false 0 64) .getModuleImageBase = none := by decide +kernel
  refine ⟨⟨encoded, encodedBig⟩, fun alike => ?_⟩
  have same := alike .getModuleImageBase
  rw [little, big] at same
  cases same

end Opening

end Cpptrace.Binary
