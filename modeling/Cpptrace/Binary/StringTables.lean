import Cpptrace.Binary.Memoisation

/-! Where the names that are read lie in the string tables.

A name is an index that comes from a section header or a symbol, and it is added
to the start of a table that another field selects. Nothing compares the two.
-/

set_option autoImplicit false

namespace Cpptrace.Binary

open Library Library.Outcome Utils

variable (platform : Platform) (object : Object)

/-- A failure of the queries other than an access beyond the end of a string table. -/
def Inside (failure : Failure) : Prop := failure ≠ .outsideTable ∧ failure ≠ .undefined

/-- In no run of queries is a string table read or written beyond its end. -/
def StaysInside : Prop :=
  ∀ queries, ∀ answer ∈ (run (step platform object) queries Elf.new).1, FailsOnly Inside answer

section Conditions

/-- A string table whose size wraps to an empty vector, with something to be read into it. -/
def Overruns (sections : List SectionInfo) (index : Nat) : Prop :=
  ∃ info, sections[index]? = some info ∧ info.shType = shtStrtab ∧ info.shSize = 0xffffffffffffffff ∧
    Reaches object.file info.shOffset

/-- The names of the sections lie in the table that the header selects, and those of the symbols in the
table that theirs is linked to, as far as the tables are loaded. -/
structure NamesInside : Prop where
  header : ∀ header sections, readHeader platform object = .ok header → sectionsOf platform object = .ok sections →
    ¬ Overruns object sections header.eShstrndx.toNat ∧
    ∀ strtab, strtabOf platform object header.eShstrndx.toNat = .ok strtab →
      ∀ info ∈ sections, info.shName.toNat < strtab.length
  symbols : ∀ dynamic sections symtab, sectionsOf platform object = .ok sections →
    symtabOf platform object dynamic = .ok (some symtab) → symtab.strtabLink ≠ shnUndef →
    ¬ Overruns object sections symtab.strtabLink ∧
    ∀ strtab, strtabOf platform object symtab.strtabLink = .ok strtab →
      ∀ entry ∈ symtab.entries, entry.stName.toNat < strtab.length

end Conditions

section Names

theorem inside_of_error : AllowsErrors Inside := by
  rintro _ ⟨what, rfl⟩
  exact ⟨nofun, nofun⟩

theorem stringAt_within {strtab : Bytes} {index : Nat} (within : index < strtab.length) :
    ∃ name, stringAt strtab index = .ok name := by
  unfold stringAt
  rw [if_pos within]
  exact ⟨_, rfl⟩

theorem not_inside_outsideTable {α : Type} : ¬ FailsOnly Inside (.error .outsideTable : Except Failure α) :=
  fun only => (only _ rfl).1 rfl

theorem stringAt_bind_inside_iff {α : Type} (strtab : Bytes) (index : Nat) {next : Text → Except Failure α}
    {rest : Prop}
    (each : ∀ name, FailsOnly Inside (next name) ↔ rest) :
    FailsOnly Inside (stringAt strtab index >>= next) ↔ index < strtab.length ∧ rest := by
  by_cases within : index < strtab.length
  · obtain ⟨name, known⟩ := stringAt_within within
    rw [known, and_iff_right within]
    exact each name
  · rw [stringAt, if_neg within]
    exact ⟨fun only => absurd only not_inside_outsideTable, fun both => absurd both.1 within⟩

theorem pcRangesOf_inside_iff (strtab : Bytes) (sections : List SectionInfo) :
    FailsOnly Inside (pcRangesOf strtab sections) ↔ ∀ info ∈ sections, info.shName.toNat < strtab.length := by
  induction sections with
  | nil => exact ⟨fun _ => nofun, fun _ => failsOnly_ok _ _⟩
  | cons info rest ih =>
    rw [List.forall_mem_cons, ← ih]
    refine stringAt_bind_inside_iff strtab _ fun name => failsOnly_bind_iff fun ranges => ?_
    split <;> exact ⟨_, rfl⟩

theorem resolveEntries_inside_iff (strtab : Bytes) (entries : List SymtabEntry) :
    FailsOnly Inside (resolveEntries (some strtab) entries) ↔ ∀ entry ∈ entries,
      entry.stName.toNat < strtab.length := by
  induction entries with
  | nil => exact ⟨fun _ => nofun, fun _ => failsOnly_ok _ _⟩
  | cons entry rest ih =>
    rw [List.forall_mem_cons, ← ih]
    exact stringAt_bind_inside_iff strtab _ fun name => failsOnly_bind_iff fun entries => ⟨_, rfl⟩

theorem resolveEntries_unnamed (entries : List SymtabEntry) : FailsOnly Inside (resolveEntries none entries) := by
  induction entries with
  | nil => exact failsOnly_ok _ _
  | cons entry rest ih => exact ih.bind fun _ _ => failsOnly_ok _ _

theorem findSymbol_inside {pc : FramePtr} {entries : List SymtabEntry} {strtab : Bytes}
    (within : ∀ entry ∈ entries, entry.stName.toNat < strtab.length) :
    FailsOnly Inside (findSymbol pc entries strtab) := by
  unfold findSymbol
  cases found : firstLessThanOrEqual SymtabEntry.stValue pc entries with
  | none => exact failsOnly_ok _ _
  | some entry =>
    have member : entry ∈ entries := (List.takeWhile_sublist _).subset (List.mem_of_getLast? found)
    dsimp only
    split
    · obtain ⟨name, known⟩ := stringAt_within (within entry member)
      rw [known]
      exact failsOnly_ok _ _
    · exact failsOnly_ok _ _

end Names

section Loads

variable {platform object}

/-- Among the loads, only the one of a string table that wraps has no meaning. -/
theorem readStrtab_inside_iff (sections : List SectionInfo) (index : Nat) :
    FailsOnly Inside (readStrtab platform object sections index) ↔ ¬ Overruns object sections index := by
  have memory := platform.bounded
  constructor
  · rintro only ⟨info, found, strtab, greatest, reaches⟩
    have passed (message : String) : rejectIf (info.shType ≠ shtStrtab) message = .ok () := by
      simp [rejectIf, strtab]; rfl
    -- a size of 2^64-1 leaves a buffer of 0 bytes, and the read goes beyond it
    have empty : (info.shSize + 1).toNat = 0 := by rw [greatest]; rfl
    have allocated : allocate platform 0 = .ok () := if_pos (Nat.zero_le _)
    have overrun : object.file.readBytes 0 (0xffffffffffffffff : UInt64).toNat info.shOffset = .error .undefined :=
      readBytes_reached reaches
    refine (only .undefined ?_).2 rfl
    rw [readStrtab, found]
    dsimp only
    rw [passed, empty, allocated, greatest]
    change object.file.readBytes 0 _ _ >>= _ = _
    rw [overrun]
    rfl
  · intro fits
    unfold readStrtab
    cases found : sections[index]? with
    | none => exact internalError_failsOnly inside_of_error _
    | some info =>
      refine (rejectIf_failsOnly inside_of_error _ _).bind fun _ passed =>
        (allocate_failsOnly ⟨nofun, nofun⟩ _).bind fun _ allocated => ?_
      refine FailsOnly.bind (FailsOnly.weaken ?_ inside_of_error) fun _ _ => failsOnly_ok _ _
      by_cases greatest : info.shSize = 0xffffffffffffffff
      · rw [greatest]
        exact readBytes_unreached fun reaches =>
          fits ⟨info, found, by simpa using rejectIf_passed passed, greatest, reaches⟩
      · have size := toNat_succ info.shSize greatest
        have fitting := allocate_passed allocated
        exact BaseFile.readBytes_failsOnly (by omega) (by omega)

theorem readSymtab_inside (sections : List SectionInfo) (dynamic : Bool) :
    FailsOnly Inside (readSymtab platform object sections dynamic) := by
  have memory := platform.bounded
  unfold readSymtab
  split
  · exact failsOnly_ok _ _
  next info _ =>
    refine (rejectIf_failsOnly inside_of_error _ _).bind fun _ _ =>
      (rejectIf_failsOnly inside_of_error _ _).bind fun _ _ => ?_
    refine (allocate_failsOnly ⟨nofun, nofun⟩ _).bind fun _ allocated => FailsOnly.bind ?_ fun _ _ => ?_
    · have fitting := allocate_passed allocated
      exact (BaseFile.readBytes_failsOnly (Nat.le_refl _) (by omega)).weaken inside_of_error
    · exact (allocate_failsOnly ⟨nofun, nofun⟩ _).bind fun _ _ => failsOnly_ok _ _

theorem symtabOf_inside (dynamic : Bool) : FailsOnly Inside (symtabOf platform object dynamic) :=
  (sectionsOf_failsOnly inside_of_error).bind fun sections _ => readSymtab_inside sections dynamic

/-- A string table is loaded where it means something, if the sections are loaded at all. -/
theorem strtabOf_inside_iff {sections : List SectionInfo} (known : sectionsOf platform object = .ok sections)
    (index : Nat) :
    FailsOnly Inside (strtabOf platform object index) ↔ ¬ Overruns object sections index := by
  rw [strtabOf, known]
  exact readStrtab_inside_iff sections index

end Loads

section Queries

variable {platform object}

theorem sections_of_symtab {dynamic : Bool} {symtab : Option SymtabInfo}
    (read : symtabOf platform object dynamic = .ok symtab) : ∃ sections, sectionsOf platform object = .ok sections := by
  obtain ⟨sections, known, -⟩ := (bind_eq_ok_iff _ _ _).mp read
  exact ⟨sections, known⟩

theorem textRanges_inside (names : NamesInside platform object) : FailsOnly Inside (textRanges platform object) := by
  refine (readHeader_failsOnly inside_of_error).bind fun header read => ?_
  cases known : sectionsOf platform object with
  | error failure =>
    have error : Inside failure := sectionsOf_failsOnly inside_of_error failure known
    rw [strtabOf, known]
    exact failsOnly_error error
  | ok sections =>
    have table := names.header header sections read known
    refine ((strtabOf_inside_iff known _).mpr table.1).bind fun strtab loaded => ?_
    exact (pcRangesOf_inside_iff strtab sections).mpr (table.2 strtab loaded)

theorem entriesOf_inside (names : NamesInside platform object) (dynamic : Bool) :
    FailsOnly Inside (entriesOf platform object dynamic) := by
  refine (symtabOf_inside dynamic).bind fun symtab read => ?_
  cases symtab with
  | none => exact failsOnly_ok _ _
  | some symtab =>
    dsimp only
    split
    · exact (resolveEntries_unnamed symtab.entries).bind fun _ _ => failsOnly_ok _ _
    next linked =>
      obtain ⟨sections, known⟩ := sections_of_symtab read
      have table := names.symbols dynamic sections symtab known read linked
      refine ((strtabOf_inside_iff known _).mpr table.1).bind fun strtab loaded => ?_
      exact ((resolveEntries_inside_iff strtab _).mpr (table.2 strtab loaded)).bind fun _ _ => failsOnly_ok _ _

theorem namesInside_of_inside (inside : ∀ query, FailsOnly Inside (answerOf platform object query)) :
    NamesInside platform object where
  header := by
    intro header sections read known
    have ranges := ((failsOnly_map_iff _ _).mp (inside .getPcRanges)).second read
    refine ⟨(strtabOf_inside_iff known _).mp ranges.first, fun strtab loaded => ?_⟩
    exact (pcRangesOf_inside_iff strtab sections).mp ((ranges.second loaded).second known)
  symbols := by
    intro dynamic sections symtab known read linked
    have entries : FailsOnly Inside (entriesOf platform object dynamic) := by
      cases dynamic with
      | false => exact (failsOnly_map_iff _ _).mp (inside .getSymtabEntries)
      | true => exact (failsOnly_map_iff _ _).mp (inside .getDynamicSymtabEntries)
    have resolved := entries.second read
    dsimp only at resolved
    rw [if_neg linked] at resolved
    refine ⟨(strtabOf_inside_iff known _).mp resolved.first, fun strtab loaded => ?_⟩
    exact (resolveEntries_inside_iff strtab _).mp (resolved.second loaded).first

end Queries

section Runs

variable {platform object}

abbrev StaysSound {α : Type} (platform : Platform) (object : Object) (command : Command Failure Elf α)
    (gives : α → Prop) : Prop :=
  Stays (Sound platform object fun _ => True) Inside command gives

theorem follows_stays {α : Type} {command : Command Failure Elf α} {fresh : Except Failure α}
    (valid : Follows (fun _ => True) IsInternalError (Sound platform object fun _ => True) command fresh)
    (inside : FailsOnly Inside fresh) : StaysSound platform object command fun value => fresh = .ok value :=
  valid.stays inside inside_of_error

theorem attempt_stays {α : Type} {command : Command Failure Elf α} {gives : α → Prop}
    (valid : StaysSound platform object command gives) :
    StaysSound platform object (attempt command) fun found => ∀ value, found = some value → gives value := by
  intro elf isSound
  obtain ⟨stays, outcome⟩ := valid elf isSound
  unfold attempt
  rcases ran : command elf with ⟨result, after⟩
  rw [ran] at stays outcome
  cases result with
  | ok value => exact ⟨stays, fun _ same => Option.some.inj same ▸ outcome⟩
  | error failure =>
    cases failure with
    | internalError what => exact ⟨stays, nofun⟩
    | allocation | undefined | outsideTable => exact ⟨stays, outcome⟩

theorem lookupSymbolThrough_stays (names : NamesInside platform object) (dynamic : Bool) (kind : String)
    (pc : FramePtr) :
    StaysSound platform object (lookupSymbolThrough platform object (getSymtabWhere platform object dynamic kind) pc)
      fun _ => True := by
  have table : StaysSound platform object (getSymtabWhere platform object dynamic kind) _ :=
    follows_stays (getSymtabWhere_follows dynamic kind) (symtabOf_inside dynamic)
  refine (attempt_stays table).bind fun symtab read => ?_
  cases symtab with
  | none => exact .pure trivial
  | some symtab =>
    cases symtab with
    | none => exact .pure trivial
    | some symtab =>
      have known := read _ rfl
      unfold lookupSymbolIn
      dsimp only
      split
      · exact .pure trivial
      next linked =>
        obtain ⟨sections, loaded⟩ := sections_of_symtab known
        have within := names.symbols dynamic sections symtab loaded known linked
        have strings := follows_stays (getStrtab_follows symtab.strtabLink)
            ((strtabOf_inside_iff loaded _).mpr within.1)
        refine (attempt_stays strings).bind fun strtab read => ?_
        cases strtab with
        | none => exact .pure trivial
        | some strtab =>
          exact (Stays.ofExcept (findSymbol_inside (within.2 strtab (read _ rfl)))).weaken fun _ _ => trivial

theorem ask_stays (names : NamesInside platform object) (query : Query) :
    StaysSound platform object (ask platform object query) fun _ => True := by
  have map {α : Type} {command : Command Failure Elf α} (change : α → Answer)
      (valid : StaysSound platform object command fun _ => True) :
      StaysSound platform object (change <$> command) fun _ => True :=
    valid.bind fun _ _ => .pure trivial
  have follows {α : Type} {command : Command Failure Elf α} {fresh : Except Failure α}
      (valid : Follows (fun _ => True) IsInternalError (Sound platform object fun _ => True) command fresh)
      (inside : FailsOnly Inside fresh) : StaysSound platform object command fun _ => True :=
    (follows_stays valid inside).weaken fun _ _ => trivial
  cases query with
  | getModuleImageBase =>
    exact map _ (follows getModuleImageBase_follows (imageBaseOf_failsOnly inside_of_error))
  | getPcRanges => exact map _ (follows getPcRanges_follows (textRanges_inside names))
  | getSymtabEntries => exact map _ (follows (resolveSymtabEntries_follows false _) (entriesOf_inside names false))
  | getDynamicSymtabEntries => exact map _ (follows (resolveSymtabEntries_follows true _) (entriesOf_inside names true))
  | lookupSymbol pc =>
    refine map _ ((lookupSymbolThrough_stays names false _ pc).bind fun symbol _ => ?_)
    cases symbol with
    | some symbol => exact .pure trivial
    | none => exact lookupSymbolThrough_stays names true _ pc

theorem forall₂_inside {queries : List Query} {answers : List (Except Failure Answer)}
    (inside : List.Forall₂ (fun _ answer => FailsOnly Inside answer) queries answers) :
    ∀ answer ∈ answers, FailsOnly Inside answer := by
  induction inside with
  | nil => nofun
  | cons first _ ih => exact List.forall_mem_cons.mpr ⟨first, ih⟩

/-- What an object that was just opened says is as safe as the object. -/
theorem answerOf_inside (stays : StaysInside platform object) (query : Query) :
    FailsOnly Inside (answerOf platform object query) := by
  have alone := stays [query] _ (List.mem_singleton_self _)
  rcases step_new platform object query with same | ⟨failure, _, known, error, -, -⟩
  · rw [← same]
    exact alone
  · rw [known]
    exact failsOnly_error (inside_of_error _ error)

/-- No string is read from beyond the end of its table exactly when the names of the object lie in the
tables that they are looked up in, and no table that is looked up wraps to an empty one. -/
theorem staysInside_iff : StaysInside platform object ↔ NamesInside platform object := by
  refine ⟨fun stays => namesInside_of_inside (answerOf_inside stays), fun names queries => ?_⟩
  refine forall₂_inside (run_answers (fun query elf (sound : Sound platform object (fun _ => True) elf) => ?_)
    queries Elf.new (sound_new platform object _))
  obtain ⟨after, outcome⟩ := ask_stays names query elf sound
  refine ⟨fun failure failed => ?_, after⟩
  rw [step] at failed
  rw [failed] at outcome
  exact outcome

/-- The name of the only section is beyond the table of names, which it is itself. -/
def strayName : Object := imageOf (header64 1 0 ++ section64 9 3 [] [1] 0 0) (by decide +kernel)

theorem staysInside_fails : ¬ StaysInside littleHost strayName := by
  intro stays
  have ranges : (run (step littleHost strayName) [.getPcRanges] Elf.new).1 = [.error .outsideTable] := by decide +kernel
  have inside := stays [.getPcRanges] (.error .outsideTable) (by rw [ranges]; exact List.mem_singleton_self _)
  exact not_inside_outsideTable inside

end Runs

end Cpptrace.Binary
