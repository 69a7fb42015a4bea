import Cpptrace.Binary.Loads
import Cpptrace.Library.Machine

/-! Queries of one object in turn, against the same queries of objects just opened.

A flag says that a load was tried before the load is done. Where the load throws,
the flag stays, and what threw once is reported as an error later.
-/

set_option autoImplicit false

namespace Cpptrace.Binary

open Library Library.Outcome Utils

variable (platform : Platform) (object : Object)

/-- Each query of the run has a value when it has one on its own, and the same one. -/
def Transparent (queries : List Query) : Prop :=
  (run (step platform object) queries Elf.new).1.map Except.toOption =
    queries.map fun query => (step platform object query Elf.new).1.toOption

section Fitting

/-- A read of as many bytes as the type can count goes on beyond the end. -/
def Reaches (file : BaseFile) (offset : UInt64) : Prop :=
  match file.medium with
  | .disk => offset.toNat < file.data.length
  | .memory => 0 < offset.toNat ∧ offset.toNat ≤ file.data.length + 1 ∧ offset.toNat < 0x8000000000000000

/-- The data of a string table gets its memory, and is not written into an empty vector. -/
def NamesFit (sections : List SectionInfo) (index : Nat) : Prop :=
  ∀ info, sections[index]? = some info → info.shType = shtStrtab →
    (info.shSize + 1).toNat ≤ platform.memory ∧
    ¬ (info.shSize = 0xffffffffffffffff ∧ Reaches object.file info.shOffset)

/-- The symbols of a table get their memory, if they are loaded. -/
def SymbolsFit (info : SectionInfo) : Prop :=
  let size := info.shSize.toNat
  let entsize := Sym.sizeOf object.is64
  info.shEntsize.toNat = entsize → size % entsize = 0 → size ≤ platform.memory ∧
    ∀ buffer, object.file.read size info.shOffset = .ok buffer → size / entsize * symtabEntrySize ≤ platform.memory

/-- A symbol table and the names that it is linked to. -/
def TableFits (dynamic : Bool) : Prop :=
  ∀ sections, sectionsOf platform object = .ok sections →
    (∀ info, sections.find? (isSymtab dynamic) = some info → SymbolsFit platform object info) ∧
    ∀ symtab, readSymtab platform object sections dynamic = .ok (some symtab) → symtab.strtabLink ≠ shnUndef →
      NamesFit platform object sections symtab.strtabLink

/-- What a query loads fits. The dynamic table is only loaded for a symbol that the other one does not have. -/
def Fits : Query → Prop
  | .getModuleImageBase => True
  | .lookupSymbol pc => TableFits platform object false ∧
      (symbolThrough platform object false pc = .ok none → TableFits platform object true)
  | .getPcRanges =>
      ∀ header sections, readHeader platform object = .ok header → sectionsOf platform object = .ok sections →
      NamesFit platform object sections header.eShstrndx.toNat
  | .getSymtabEntries => TableFits platform object false
  | .getDynamicSymtabEntries => TableFits platform object true

end Fitting

section Completing

variable {platform object}

def Completes (failure : Failure) : Prop := failure ≠ .allocation ∧ failure ≠ .undefined

theorem completes_of_error : AllowsErrors Completes := by
  rintro _ ⟨what, rfl⟩
  exact ⟨nofun, nofun⟩

theorem keepsErrors_completes : KeepsErrors Completes where
  errors := completes_of_error
  only failure completes load := by
    cases failure with
    | internalError what => exact ⟨what, rfl⟩
    | allocation => exact absurd rfl completes.1
    | undefined => exact absurd rfl completes.2
    | outsideTable => exact absurd rfl load

theorem allocate_passed {size : Nat} {result : Unit} (passed : allocate platform size = .ok result) :
    size ≤ platform.memory := by
  unfold allocate at passed
  split at passed
  next fits => exact fits
  · cases passed

theorem allocate_completes {size : Nat} (fits : size ≤ platform.memory) :
    FailsOnly Completes (allocate platform size) := by
  unfold allocate
  rw [if_pos fits]
  exact failsOnly_ok _ _

theorem readBytes_unreached {file : BaseFile} {offset : UInt64} (unreached : ¬ Reaches file offset) :
    FailsOnly IsInternalError (file.readBytes 0 0xffffffffffffffff offset) := by
  have slice := BaseFile.length_slice file.data offset.toNat 0xffffffffffffffff
  have small := file.small
  have bound := offset.toNat_lt
  have error (message : String) : FailsOnly IsInternalError (throw (internalError message) : Except Failure Bytes) :=
    failsOnly_error (isInternalError_internalError message)
  -- on disk nothing is left behind the offset; in memory the sum wraps to an end that is still beyond
  unfold Reaches at unreached
  unfold BaseFile.readBytes
  cases medium : file.medium with
  | disk =>
    simp only [medium] at unreached
    simp only [BaseFile.readDisk]
    split
    · exact error _
    · have empty : (List.take 0xffffffffffffffff (List.drop offset.toNat file.data)).length = 0 := by
        rw [slice, Nat.sub_eq_zero_of_le (Nat.le_of_not_lt unreached), Nat.min_zero]
      rw [empty, if_neg (Nat.lt_irrefl 0), if_pos (by decide)]
      exact error _
  | memory =>
    simp only [medium] at unreached
    simp only [BaseFile.readMemory]
    split
    · exact error _
    next nonnegative =>
      rw [BaseFile.offT_neg_iff] at nonnegative
      have beyond : file.data.length < (offset.toNat + 0xffffffffffffffff) % sizeModulus := by
        unfold sizeModulus
        omega
      rw [if_pos beyond]
      exact error _

theorem readBytes_reached {file : BaseFile} {offset : UInt64} (reaches : Reaches file offset) :
    file.readBytes 0 0xffffffffffffffff offset = .error .undefined := by
  have slice := BaseFile.length_slice file.data offset.toNat 0xffffffffffffffff
  have small := file.small
  unfold Reaches at reaches
  unfold BaseFile.readBytes
  cases medium : file.medium with
  | disk =>
    simp only [medium] at reaches
    have nonnegative : ¬ BaseFile.offT offset < 0 := by
      rw [BaseFile.offT_neg_iff]
      omega
    have some : 0 < ((file.data.drop offset.toNat).take 0xffffffffffffffff).length := by omega
    simp only [BaseFile.readDisk]
    rw [if_neg nonnegative, if_pos some]
    rfl
  | memory =>
    simp only [medium] at reaches
    have nonnegative : ¬ BaseFile.offT offset < 0 := by
      rw [BaseFile.offT_neg_iff]
      omega
    have wraps : ¬ file.data.length < (offset.toNat + 0xffffffffffffffff) % sizeModulus := by
      unfold sizeModulus
      omega
    simp only [BaseFile.readMemory]
    rw [if_neg nonnegative, if_neg wraps, if_pos (by simp)]
    rfl

theorem toNat_succ (size : UInt64) (different : size ≠ 0xffffffffffffffff) : (size + 1).toNat = size.toNat + 1 := by
  have bound := size.toNat_lt
  have less : size.toNat ≠ 0xffffffffffffffff := fun same => different (UInt64.toNat_inj.mp same)
  rw [UInt64.toNat_add]
  exact Nat.mod_eq_of_lt (by simp; omega)

theorem readStrtab_completes {sections : List SectionInfo} {index : Nat}
    (fits : NamesFit platform object sections index) :
    FailsOnly Completes (readStrtab platform object sections index) := by
  have memory := platform.bounded
  unfold readStrtab
  cases found : sections[index]? with
  | none => exact internalError_failsOnly completes_of_error _
  | some info =>
    refine (rejectIf_failsOnly completes_of_error _ _).bind fun _ passed => ?_
    have bounds := fits info found (by simpa using rejectIf_passed passed)
    refine (allocate_completes bounds.1).bind fun _ _ => FailsOnly.bind ?_ fun _ _ => failsOnly_ok _ _
    refine FailsOnly.weaken ?_ completes_of_error
    by_cases greatest : info.shSize = 0xffffffffffffffff
    · rw [greatest]
      exact readBytes_unreached fun reaches => bounds.2 ⟨greatest, reaches⟩
    · have size := toNat_succ info.shSize greatest
      exact BaseFile.readBytes_failsOnly (by omega) (by omega)

theorem readSymtab_completes {sections : List SectionInfo} {dynamic : Bool}
    (fits : ∀ info, sections.find? (isSymtab dynamic) = some info → SymbolsFit platform object info) :
    FailsOnly Completes (readSymtab platform object sections dynamic) := by
  have memory := platform.bounded
  unfold readSymtab
  cases found : sections.find? (isSymtab dynamic) with
  | none => exact failsOnly_ok _ _
  | some info =>
    refine (rejectIf_failsOnly completes_of_error _ _).bind fun _ entsize =>
      (rejectIf_failsOnly completes_of_error _ _).bind fun _ whole => ?_
    have bounds := fits info found (by simpa using rejectIf_passed entsize) (by simpa using rejectIf_passed whole)
    refine (allocate_completes bounds.1).bind fun _ _ => FailsOnly.bind ?_ fun buffer ran => ?_
    · exact (BaseFile.readBytes_failsOnly (Nat.le_refl _) (by omega)).weaken completes_of_error
    · exact (allocate_completes (bounds.2 buffer ran)).bind fun _ _ => failsOnly_ok _ _

theorem strtabOf_completes {index : Nat}
    (fits : ∀ sections, sectionsOf platform object = .ok sections → NamesFit platform object sections index) :
    FailsOnly Completes (strtabOf platform object index) :=
  (sectionsOf_failsOnly completes_of_error).bind fun sections known => readStrtab_completes (fits sections known)

theorem stringAt_completes (strtab : Bytes) (index : Nat) : FailsOnly Completes (stringAt strtab index) := by
  unfold stringAt
  split
  · exact failsOnly_ok _ _
  · exact failsOnly_error ⟨nofun, nofun⟩

theorem pcRangesOf_completes (strtab : Bytes) (sections : List SectionInfo) :
    FailsOnly Completes (pcRangesOf strtab sections) := by
  induction sections with
  | nil => exact failsOnly_ok _ _
  | cons info rest ih =>
    refine (stringAt_completes _ _).bind fun name _ => ih.bind fun ranges _ => ?_
    split <;> exact failsOnly_ok _ _

theorem resolveEntries_completes (strtab : Option Bytes) (entries : List SymtabEntry) :
    FailsOnly Completes (resolveEntries strtab entries) := by
  induction entries with
  | nil => exact failsOnly_ok _ _
  | cons entry rest ih =>
    refine FailsOnly.bind ?_ fun _ _ => ih.bind fun _ _ => failsOnly_ok _ _
    cases strtab with
    | none => exact failsOnly_ok _ _
    | some strtab => exact stringAt_completes strtab _

theorem findSymbol_completes (pc : FramePtr) (entries : List SymtabEntry) (strtab : Bytes) :
    FailsOnly Completes (findSymbol pc entries strtab) := by
  unfold findSymbol
  split
  · exact failsOnly_ok _ _
  · split
    · exact (stringAt_completes _ _).bind fun _ _ => failsOnly_ok _ _
    · exact failsOnly_ok _ _

theorem attempted_completes {α : Type} {fresh : Except Failure α} (completes : FailsOnly Completes fresh) :
    FailsOnly Completes (attempted fresh) := by
  cases fresh with
  | ok value => exact failsOnly_ok _ _
  | error failure =>
    cases failure with
    | internalError what => exact failsOnly_ok _ _
    | allocation | undefined | outsideTable => exact failsOnly_error (completes _ rfl)

theorem attempted_some {α : Type} {fresh : Except Failure α} {value : α}
    (attempt : attempted fresh = .ok (some value)) :
    fresh = .ok value := by
  cases fresh with
  | ok found =>
    cases attempt
    rfl
  | error failure => cases failure <;> cases attempt

section Tables

variable {dynamic : Bool} (fits : TableFits platform object dynamic)
include fits

theorem symtabOf_completes : FailsOnly Completes (symtabOf platform object dynamic) :=
  (sectionsOf_failsOnly completes_of_error).bind fun sections known => readSymtab_completes (fits sections known).1

theorem TableFits.names {symtab : SymtabInfo} (known : symtabOf platform object dynamic = .ok (some symtab))
    (linked : symtab.strtabLink ≠ shnUndef) : FailsOnly Completes (strtabOf platform object symtab.strtabLink) := by
  refine strtabOf_completes fun sections loaded => ?_
  unfold symtabOf at known
  rw [loaded] at known
  exact (fits sections loaded).2 symtab known linked

theorem symbolThrough_completes (pc : FramePtr) : FailsOnly Completes (symbolThrough platform object dynamic pc) := by
  refine (attempted_completes (symtabOf_completes fits)).bind fun symtab attempt => ?_
  cases symtab with
  | none => exact failsOnly_ok _ _
  | some symtab =>
    have known := attempted_some attempt
    cases symtab with
    | none => exact failsOnly_ok _ _
    | some info =>
      dsimp only [symbolIn]
      split
      · exact failsOnly_ok _ _
      next linked =>
        refine (attempted_completes (fits.names known linked)).bind fun strtab _ => ?_
        cases strtab with
        | none => exact failsOnly_ok _ _
        | some strtab => exact findSymbol_completes pc info.entries strtab

theorem entriesOf_completes : FailsOnly Completes (entriesOf platform object dynamic) := by
  refine (symtabOf_completes fits).bind fun symtab known => ?_
  cases symtab with
  | none => exact failsOnly_ok _ _
  | some info =>
    dsimp only
    split
    · exact (resolveEntries_completes _ _).bind fun _ _ => failsOnly_ok _ _
    next linked =>
      exact (fits.names known linked).bind fun _ _ => (resolveEntries_completes _ _).bind fun _ _ => failsOnly_ok _ _

end Tables

/-- On an object of its own, a query whose tables fit leaves no load half done. -/
theorem answerOf_completes {query : Query} (fits : Fits platform object query) :
    FailsOnly Completes (answerOf platform object query) := by
  cases query with
  | getModuleImageBase => exact (failsOnly_map_iff _ _).mpr (imageBaseOf_failsOnly completes_of_error)
  | getPcRanges =>
    refine (failsOnly_map_iff _ _).mpr ((readHeader_failsOnly completes_of_error).bind fun header read => ?_)
    refine (strtabOf_completes fun sections known => fits header sections read known).bind fun strtab _ => ?_
    exact (sectionsOf_failsOnly completes_of_error).bind fun sections _ => pcRangesOf_completes strtab sections
  | getSymtabEntries => exact (failsOnly_map_iff _ _).mpr (entriesOf_completes fits)
  | getDynamicSymtabEntries => exact (failsOnly_map_iff _ _).mpr (entriesOf_completes fits)
  | lookupSymbol pc =>
    refine (failsOnly_map_iff _ _).mpr ((symbolThrough_completes fits.1 pc).bind fun symbol known => ?_)
    cases symbol with
    | some symbol => exact failsOnly_ok _ _
    | none => exact symbolThrough_completes (fits.2 known) pc

end Completing

section Runs

variable {platform object}

theorem forall₂_toOption {queries : List Query} {answers : List (Except Failure Answer)}
    {expected : Query → Option Answer}
    (same : List.Forall₂ (fun query answer => answer.toOption = expected query) queries answers) :
    answers.map Except.toOption = queries.map expected := by
  induction same with
  | nil => rfl
  | cons first _ ih => rw [List.map_cons, List.map_cons, first, ih]

/-- In every run of queries whose tables fit, what was asked before makes no difference. -/
theorem transparent_of_fits (queries : List Query) (fits : ∀ query ∈ queries, Fits platform object query) :
    Transparent platform object queries := by
  have new := sound_new platform object Completes
  refine forall₂_toOption
    (run_answers_of (Fits platform object) (fun query elf queryFits sound => ?_) queries fits Elf.new new)
  obtain ⟨agrees, keeps⟩ := ask_follows keepsErrors_completes query elf sound
  rw [step_new_toOption]
  refine ⟨toOption_eq agrees, keeps fun failure failed => ?_⟩
  rcases agrees with same | ⟨_, report, _, _, reported, error⟩
  · exact answerOf_completes queryFits failure (same.symm.trans failed)
  · rw [reported] at failed
    cases failed
    exact completes_of_error _ error

/-- An object with a symbol table of more bytes than a vector can have, and a dynamic one with a symbol `f`. -/
def overlongSymtab : Object :=
  imageOf (header64 3 0 ++ section64 0 2 [] [0, 0, 0, 0, 0, 0, 0, 0xc0] 0 24 ++ section64 0 11 [0, 1] [24] 2 24 ++
    section64 0 3 [24, 1] [3] 0 0 ++ padded 16 [1] ++ padded 8 [1] ++ [0, 0x66, 0]) (by decide +kernel)

/-- The first lookup throws, and the second finds the symbol. -/
theorem transparent_fails : ¬ Transparent littleHost overlongSymtab [.lookupSymbol 0, .lookupSymbol 0] := by
  have answers : (run (step littleHost overlongSymtab) [.lookupSymbol 0, .lookupSymbol 0] Elf.new).1 =
      [.error .allocation, .ok (.symbol (some ['f']))] := by decide +kernel
  unfold Transparent
  rw [answers]
  decide +kernel

def namedObject : Object := imageOf namedData namedData_small

theorem sectionsOf_namedObject : sectionsOf littleHost namedObject = .ok [symtabSection, strtabSection] := by
  decide +kernel

/-- The symbol table is found, loaded and linked to names that are loaded as well. -/
theorem tableFits_namedObject : TableFits littleHost namedObject false := by
  intro sections known
  rw [sectionsOf_namedObject] at known
  cases known
  refine ⟨fun info found _ _ => ?_, fun symtab loaded _ info found _ => ?_⟩
  · cases found
    exact ⟨by decide, fun _ _ => by decide⟩
  · have table : readSymtab littleHost namedObject [symtabSection, strtabSection] false =
        .ok (some ⟨[⟨1, 0, 0, 0, 0, 1⟩], 1⟩) := by decide +kernel
    rw [table] at loaded
    cases loaded
    cases found
    exact ⟨by decide, fun greatest => absurd greatest.1 (by decide)⟩

theorem fits_namedObject {query : Query} (asked : query ∈ [.lookupSymbol 0, .getSymtabEntries, .lookupSymbol 0]) :
    Fits littleHost namedObject query := by
  have found : symbolThrough littleHost namedObject false 0 = .ok (some ['f']) := by decide +kernel
  have lookup : Fits littleHost namedObject (.lookupSymbol 0) := by
    refine ⟨tableFits_namedObject, fun missing => ?_⟩
    rw [found] at missing
    cases missing
  simp only [List.mem_cons, List.not_mem_nil, or_false] at asked
  rcases asked with rfl | rfl | rfl
  · exact lookup
  · exact tableFits_namedObject
  · exact lookup

theorem transparent_of_fits_namedObject :
    (∀ query ∈ [.lookupSymbol 0, .getSymtabEntries, .lookupSymbol 0], Fits littleHost namedObject query) ∧
      Transparent littleHost namedObject [.lookupSymbol 0, .getSymtabEntries, .lookupSymbol 0] :=
  ⟨fun _ asked => fits_namedObject asked, transparent_of_fits _ fun _ asked => fits_namedObject asked⟩

end Runs

end Cpptrace.Binary
