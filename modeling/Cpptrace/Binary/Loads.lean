import Cpptrace.Binary.Elf
import Cpptrace.Library.Memo

/-! What an object says, apart from what has been loaded of it.

`sectionsOf`, `strtabOf` and `symtabOf` compute from the file alone. An `Elf`
is sound for an object if it holds nothing else, and every getter follows its
computation; which failures a flag may stand for is left open.
-/

set_option autoImplicit false

namespace Cpptrace.Binary

open Library Library.Outcome Utils

variable (platform : Platform) (object : Object)

section Fresh

def attempted {α : Type} : Except Failure α → Except Failure (Option α)
  | .ok value => .ok (some value)
  | .error (.internalError _) => .ok none
  | .error failure => .error failure

def sectionsOf : Except Failure (List SectionInfo) := do
  let header ← readHeader platform object
  (List.range header.eShnum.toNat).mapM (readSection platform object header)

def strtabOf (index : Nat) : Except Failure Bytes := do
  let sections ← sectionsOf platform object
  readStrtab platform object sections index

def symtabOf (dynamic : Bool) : Except Failure (Option SymtabInfo) := do
  let sections ← sectionsOf platform object
  readSymtab platform object sections dynamic

/-- The name that one table has for an address, with a failure of the table's names as no name. -/
def symbolIn (pc : FramePtr) (maybeSymtab : Option SymtabInfo) : Except Failure (Option Text) :=
  match maybeSymtab with
  | none => return none
  | some symtab =>
    if symtab.strtabLink = shnUndef then return none
    else do
      match ← attempted (strtabOf platform object symtab.strtabLink) with
      | none => return none
      | some strtab => findSymbol pc symtab.entries strtab

def symbolThrough (dynamic : Bool) (pc : FramePtr) : Except Failure (Option Text) := do
  match ← attempted (symtabOf platform object dynamic) with
  | some symtab => symbolIn platform object pc symtab
  | none => return none

def symbolOf (pc : FramePtr) : Except Failure (Option Text) := do
  match ← symbolThrough platform object false pc with
  | some symbol => return some symbol
  | none => symbolThrough platform object true pc

def entriesOf (dynamic : Bool) : Except Failure (Option (List SymbolEntry)) := do
  match ← symtabOf platform object dynamic with
  | none => return none
  | some info =>
    if info.strtabLink = shnUndef then
      let entries ← resolveEntries none info.entries
      return some entries
    else
      let strtab ← strtabOf platform object info.strtabLink
      let entries ← resolveEntries (some strtab) info.entries
      return some entries

def imageBaseOf : Except Failure UInt64 := do
  let header ← readHeader platform object
  imageBaseFrom platform object header (List.range header.ePhnum.toNat)

def textRanges : Except Failure (List PcRange) := do
  let header ← readHeader platform object
  let strtab ← strtabOf platform object header.eShstrndx.toNat
  let sections ← sectionsOf platform object
  pcRangesOf strtab sections

def answerOf : Query → Except Failure Answer
  | .getModuleImageBase => Answer.imageBase <$> imageBaseOf platform object
  | .lookupSymbol pc => Answer.symbol <$> symbolOf platform object pc
  | .getPcRanges => Answer.pcRanges <$> textRanges platform object
  | .getSymtabEntries => Answer.entries <$> entriesOf platform object false
  | .getDynamicSymtabEntries => Answer.entries <$> entriesOf platform object true

end Fresh

section Failures

def AllowsErrors (allowed : Failure → Prop) : Prop := ∀ failure, IsInternalError failure → allowed failure

def IsLoadFailure (failure : Failure) : Prop := failure ≠ .outsideTable

theorem isLoadFailure_of_error : AllowsErrors IsLoadFailure := by
  rintro _ ⟨what, rfl⟩
  exact nofun

theorem rejectIf_passed {condition : Bool} {message : String} {result : Unit}
    (passed : rejectIf condition message = .ok result) : condition = false := by
  unfold rejectIf at passed
  split at passed
  · cases passed
  next holds => simpa using holds

variable {platform object} {allowed : Failure → Prop}

theorem allocate_failsOnly (exception : allowed .allocation) (size : Nat) :
    FailsOnly allowed (allocate platform size) := by
  unfold allocate
  split
  · exact failsOnly_ok _ _
  · exact failsOnly_error exception

section Errors

variable (errors : AllowsErrors allowed)
include errors

theorem internalError_failsOnly {α : Type} (message : String) :
    FailsOnly allowed (.error (internalError message) : Except Failure α) :=
  failsOnly_error (errors _ (isInternalError_internalError message))

theorem rejectIf_failsOnly (condition : Bool) (message : String) : FailsOnly allowed (rejectIf condition message) := by
  unfold rejectIf
  split
  · exact internalError_failsOnly errors message
  · exact failsOnly_ok _ _

theorem read_failsOnly {size : Nat} (small : size ≤ 64) (offset : UInt64) :
    FailsOnly allowed (object.file.read size offset) :=
  (BaseFile.readBytes_failsOnly (Nat.le_refl size) (by omega)).weaken errors

theorem readHeader_failsOnly : FailsOnly allowed (readHeader platform object) := by
  have small : Ehdr.sizeOf object.is64 ≤ 64 := by cases object.is64 <;> decide
  exact (read_failsOnly errors small 0).bind fun _ _ => (rejectIf_failsOnly errors _ _).bind fun _ _ => failsOnly_ok _ _

theorem readSection_failsOnly (header : HeaderInfo) (i : Nat) :
    FailsOnly allowed (readSection platform object header i) := by
  have small : Shdr.sizeOf object.is64 ≤ 64 := by cases object.is64 <;> decide
  exact (read_failsOnly errors small _).bind fun _ _ => failsOnly_ok _ _

theorem sectionsOf_failsOnly : FailsOnly allowed (sectionsOf platform object) :=
  (readHeader_failsOnly errors).bind fun header _ => failsOnly_mapM (readSection_failsOnly errors header) _

theorem imageBaseFrom_failsOnly (header : HeaderInfo) (indices : List Nat) :
    FailsOnly allowed (imageBaseFrom platform object header indices) := by
  have small : Phdr.sizeOf object.is64 ≤ 64 := by cases object.is64 <;> decide
  induction indices with
  | nil => exact failsOnly_ok _ _
  | cons i rest ih =>
    refine (read_failsOnly errors small _).bind fun _ _ => ?_
    dsimp only
    split
    · exact failsOnly_ok _ _
    · exact ih

theorem imageBaseOf_failsOnly : FailsOnly allowed (imageBaseOf platform object) :=
  (readHeader_failsOnly errors).bind fun header _ => imageBaseFrom_failsOnly errors header _

end Errors

theorem readBytes_loads (room size : Nat) (offset : UInt64) :
    FailsOnly IsLoadFailure (object.file.readBytes room size offset) := by
  refine BaseFile.readBytes_failsOnly_either.weaken fun failure fails => ?_
  rcases fails with error | rfl
  · exact isLoadFailure_of_error failure error
  · exact nofun

theorem readStrtab_loads (sections : List SectionInfo) (index : Nat) :
    FailsOnly IsLoadFailure (readStrtab platform object sections index) := by
  have rejects := rejectIf_failsOnly isLoadFailure_of_error
  unfold readStrtab
  split
  · exact internalError_failsOnly isLoadFailure_of_error _
  · exact (rejects _ _).bind fun _ _ => (allocate_failsOnly nofun _).bind fun _ _ =>
      (readBytes_loads _ _ _).bind fun _ _ => failsOnly_ok _ _

theorem readSymtab_loads (sections : List SectionInfo) (dynamic : Bool) :
    FailsOnly IsLoadFailure (readSymtab platform object sections dynamic) := by
  have rejects := rejectIf_failsOnly isLoadFailure_of_error
  have allocates : ∀ size, FailsOnly IsLoadFailure (allocate platform size) := allocate_failsOnly nofun
  unfold readSymtab
  split
  · exact failsOnly_ok _ _
  · exact (rejects _ _).bind fun _ _ => (rejects _ _).bind fun _ _ => (allocates _).bind fun _ _ =>
      (readBytes_loads _ _ _).bind fun _ _ => (allocates _).bind fun _ _ => failsOnly_ok _ _

theorem strtabOf_loads (index : Nat) : FailsOnly IsLoadFailure (strtabOf platform object index) :=
  (sectionsOf_failsOnly isLoadFailure_of_error).bind fun sections _ => readStrtab_loads sections index

theorem symtabOf_loads (dynamic : Bool) : FailsOnly IsLoadFailure (symtabOf platform object dynamic) :=
  (sectionsOf_failsOnly isLoadFailure_of_error).bind fun sections _ => readSymtab_loads sections dynamic

end Failures

section Sound

variable (kept : Failure → Prop)

def FailedWith {α : Type} (kept : Failure → Prop) (outcome : Except Failure α) : Prop :=
  ∃ failure, outcome = .error failure ∧ kept failure

structure SoundHeader (state : HeaderState) : Prop where
  loaded : ∀ info, state.header = some info → readHeader platform object = .ok info
  failed : state.header = none → state.triedToLoadHeader = true → FailedWith kept (readHeader platform object)

structure SoundSections (state : SectionState) : Prop where
  header : SoundHeader platform object kept state.toHeaderState
  loaded : state.didLoadSections = true → sectionsOf platform object = .ok state.sections
  failed : state.didLoadSections = false → state.triedToLoadSections = true →
    FailedWith kept (sectionsOf platform object)
  untried : state.triedToLoadSections = false → state.sections = []

structure SoundStrtab (index : Nat) (entry : StrtabEntry) : Prop where
  loaded : entry.didLoadStrtab = true → strtabOf platform object index = .ok entry.data
  failed : entry.didLoadStrtab = false → entry.triedToLoadStrtab = true →
    FailedWith kept (strtabOf platform object index)

structure SoundSymtab (dynamic : Bool) (table : SymtabState) : Prop where
  loaded : table.didLoad = true → symtabOf platform object dynamic = .ok table.symtab
  failed : table.didLoad = false → table.triedToLoad = true → FailedWith kept (symtabOf platform object dynamic)

structure Sound (elf : Elf) : Prop where
  sections : SoundSections platform object kept elf.toSectionState
  strtabs : ∀ index entry, elf.strtabEntries index = some entry → SoundStrtab platform object kept index entry
  symtabs : ∀ dynamic, SoundSymtab platform object kept dynamic (elf.symtabs dynamic)

theorem sound_new : Sound platform object kept Elf.new where
  sections := ⟨⟨nofun, nofun⟩, nofun, nofun, fun _ => rfl⟩
  strtabs := nofun
  symtabs _ := ⟨nofun, nofun⟩

end Sound

section Getters

variable {platform object} {kept : Failure → Prop}

theorem follows_report {σ α : Type} {sound : σ → Prop} {fresh : Except Failure α} {state : σ} (message : String)
    (failed : FailedWith kept fresh) (holds : sound state) :
    FollowsFrom kept IsInternalError sound (throw (internalError message)) fresh state := by
  obtain ⟨failure, known, mayKeep⟩ := failed
  exact ⟨.inr ⟨failure, _, known, mayKeep, rfl, isInternalError_internalError message⟩, fun _ => holds⟩

theorem getHeaderInfo_follows :
    Follows kept IsInternalError (SoundHeader platform object kept) (getHeaderInfo platform object)
      (readHeader platform object) := by
  intro state sound
  cases held : state.header with
  | some info =>
    have same : getHeaderInfo platform object state = (pure info : Command Failure HeaderState HeaderInfo) state := by
      simp [getHeaderInfo, held]
    refine FollowsFrom.congr _ same ?_
    rw [sound.loaded info held]
    exact Follows.pure info state sound
  | none =>
    by_cases tried : state.triedToLoadHeader = true
    · refine FollowsFrom.congr _ ?_ (follows_report s!"previous header load failed {object.file.path}"
        (sound.failed held tried) sound)
      simp [getHeaderInfo, held, tried]
    · have body : Follows kept IsInternalError (fun state : HeaderState => state.header = none)
          (MonadExcept.ofExcept (readHeader platform object)) (readHeader platform object) := .ofExcept _
      have first : FollowsFrom kept IsInternalError (SoundHeader platform object kept) _ _ state :=
        body.once (fun state => { state with triedToLoadHeader := true })
          (fun info state => { state with header := some info })
          (fun info state known _ => ⟨fun _ same => Option.some.inj same ▸ known, nofun⟩)
          (fun failure state known mayKeep marked =>
            ⟨fun _ same => (nomatch marked.symm.trans same), fun _ _ => ⟨failure, known, mayKeep⟩⟩)
          held
      refine FollowsFrom.congr _ ?_ first
      simp [getHeaderInfo, held, tried]

theorem pushSections_eq (platform : Platform) (object : Object) (header : HeaderInfo) (indices : List Nat)
    (state : SectionState) :
    ∃ pushed, pushSections platform object header indices state =
        ((indices.mapM (readSection platform object header)).map (fun _ => ()),
          { state with sections := state.sections ++ pushed }) ∧
      ∀ infos, indices.mapM (readSection platform object header) = .ok infos → infos = pushed := by
  induction indices generalizing state with
  | nil => exact ⟨[], by rw [List.append_nil]; rfl, fun infos same => (Except.ok.inj same).symm⟩
  | cons i rest ih =>
    rw [List.mapM_cons, pushSections, Command.bind_apply, Command.ofExcept_apply]
    cases readSection platform object header i with
    | error failure => exact ⟨[], by rw [List.append_nil]; rfl, nofun⟩
    | ok info =>
      obtain ⟨pushed, ran, all⟩ := ih { state with sections := state.sections ++ [info] }
      refine ⟨info :: pushed, ?_, ?_⟩
      · rw [List.append_cons]
        refine ran.trans ?_
        cases rest.mapM (readSection platform object header) <;> rfl
      · intro infos same
        cases known : rest.mapM (readSection platform object header) with
        | error failure =>
          rw [known] at same
          cases same
        | ok values =>
          rw [known] at same
          cases same
          rw [all values known]

theorem loadSections_follows (state : SectionState) (header : SoundHeader platform object kept state.toHeaderState)
    (tried : state.triedToLoadSections = true) (untouched : state.didLoadSections = false)
    (empty : state.sections = []) :
    FollowsFrom kept IsInternalError (SoundSections platform object kept)
      (do let header ← onHeader (getHeaderInfo platform object)
          pushSections platform object header (List.range header.eShnum.toNat)
          modify fun state => { state with didLoadSections := true }
          return (← get).sections)
      (sectionsOf platform object) state := by
  obtain ⟨agrees, keeps⟩ := getHeaderInfo_follows state.toHeaderState header
  have ran : onHeader (getHeaderInfo platform object) state =
      ((getHeaderInfo platform object state.toHeaderState).1,
        { state with toHeaderState := (getHeaderInfo platform object state.toHeaderState).2 }) := rfl
  unfold FollowsFrom
  rw [Command.bind_apply, ran]
  generalize getHeaderInfo platform object state.toHeaderState = result at agrees keeps
  obtain ⟨outcome, after⟩ := result
  cases outcome with
  | error failure =>
    refine ⟨agrees.bind_error, fun allowed => ?_⟩
    have mayKeep := allowed failure rfl
    obtain ⟨first, known, firstKept⟩ := agrees.bind_error.error mayKeep
    exact {
      header := keeps fun _ same => by cases same; exact mayKeep
      loaded := fun did => by rw [untouched] at did; cases did
      failed := fun _ _ => ⟨first, known, firstKept⟩
      untried := fun not => by rw [tried] at not; cases not }
  | ok info =>
    have known := agrees.ok
    obtain ⟨pushed, loop, all⟩ := pushSections_eq platform object info
      (List.range info.eShnum.toNat) { state with toHeaderState := after }
    have fresh : sectionsOf platform object =
        (List.range info.eShnum.toNat).mapM (readSection platform object info) := by rw [sectionsOf, known]; rfl
    have soundAfter := keeps nofun
    dsimp only
    rw [Command.bind_apply, loop, fresh]
    cases sections : (List.range info.eShnum.toNat).mapM (readSection platform object info) with
    | error failure =>
      refine ⟨.refl _, fun allowed => ?_⟩
      exact {
        header := soundAfter
        loaded := fun did => by rw [untouched] at did; cases did
        failed := fun _ _ => ⟨failure, by rw [fresh, sections], allowed failure rfl⟩
        untried := fun not => by rw [tried] at not; cases not }
    | ok infos =>
      -- nothing was pushed before, or the sections would be there twice
      have same : state.sections ++ pushed = infos := by rw [empty, all infos sections, List.nil_append]
      refine ⟨.inl ?_, fun _ => ?_⟩
      · rw [← same]
        rfl
      · exact {
          header := soundAfter
          loaded := fun _ => by rw [fresh, sections, ← same]; rfl
          failed := nofun
          untried := fun not => by rw [tried] at not; cases not }

theorem getSections_follows :
    Follows kept IsInternalError (SoundSections platform object kept) (getSections platform object)
      (sectionsOf platform object) := by
  intro state sound
  -- loaded, tried and failed, or not tried: one case for each state of the two flags
  by_cases loaded : state.didLoadSections = true
  · have same : getSections platform object state = (pure state.sections : Command Failure SectionState _) state := by
      simp [getSections, loaded]
    refine FollowsFrom.congr _ same ?_
    rw [sound.loaded loaded]
    exact Follows.pure state.sections state sound
  · have untouched : state.didLoadSections = false := by simpa using loaded
    by_cases tried : state.triedToLoadSections = true
    · refine FollowsFrom.congr _ ?_ (follows_report s!"previous sections load failed {object.file.path}"
        (sound.failed untouched tried) sound)
      simp [getSections, loaded, tried]
    · have empty := sound.untried (by simpa using tried)
      have follows := loadSections_follows { state with triedToLoadSections := true } sound.header rfl untouched empty
      have first : getSections platform object state =
          (do let header ← onHeader (getHeaderInfo platform object)
              pushSections platform object header (List.range header.eShnum.toNat)
              modify fun state => { state with didLoadSections := true }
              return (← get).sections : Command Failure SectionState _) { state with triedToLoadSections := true } := by
        unfold getSections
        rw [Command.bind_apply, Command.get_apply]
        dsimp only
        rw [if_neg loaded, if_neg tried]
        rfl
      unfold FollowsFrom
      rw [first]
      exact follows

section Tables

variable {elf : Elf}

/-- The first load of a table, which changes the sections' state and its own. -/
theorem firstLoad_follows {α : Type} (mark : Elf → Elf) (store : α → Elf → Elf)
    (read : List SectionInfo → Except Failure α)
    (sound : SoundSections platform object kept (mark elf).toSectionState)
    (stored : ∀ value part, (sectionsOf platform object >>= read) = .ok value →
      SoundSections platform object kept part →
      Sound platform object kept (store value { mark elf with toSectionState := part }))
    (failed : ∀ part, FailedWith kept (sectionsOf platform object >>= read) → SoundSections platform object kept part →
      Sound platform object kept { mark elf with toSectionState := part }) :
    FollowsFrom kept IsInternalError (Sound platform object kept)
      (do modify mark
          let sections ← onSections (getSections platform object)
          let value ← MonadExcept.ofExcept (read sections)
          modify (store value)
          return value)
      (sectionsOf platform object >>= read) elf := by
  let marked (state : Elf) : Prop :=
    SoundSections platform object kept state.toSectionState ∧
      state = { mark elf with toSectionState := state.toSectionState }
  have sections : Follows kept IsInternalError marked (onSections (getSections platform object))
      (sectionsOf platform object) := by
    refine getSections_follows.onPart (fun _ holds => holds.1) fun state part holds soundPart => ⟨soundPart, ?_⟩
    rw [holds.2]
  have body := sections.bind fun infos _ => Follows.ofExcept (read infos)
  refine FollowsFrom.congr _ ?_ (body.once mark store ?_ ?_ ⟨sound, rfl⟩)
  · simp only [bind_assoc]
  · intro value state known holds
    rw [holds.2]
    exact stored value _ known holds.1
  · intro failure state known mayKeep holds
    rw [holds.2]
    exact failed _ ⟨failure, known, mayKeep⟩ holds.1

theorem Sound.setStrtab {part : SectionState} {entries : Nat → Option StrtabEntry} {index : Nat} {entry : StrtabEntry}
    (sound : Sound platform object kept elf) (soundPart : SoundSections platform object kept part)
    (soundEntry : SoundStrtab platform object kept index entry)
    (rest : ∀ other ≠ index, entries other = elf.strtabEntries other) :
    Sound platform object kept ⟨part, Function.update entries index (some entry), elf.symtabs⟩ := by
  refine ⟨soundPart, ?_, sound.symtabs⟩
  refine (Function.forall_update_iff entries fun other found =>
    ∀ entry, found = some entry → SoundStrtab platform object kept other entry).mpr ⟨?_, ?_⟩
  · intro found same
    cases same
    exact soundEntry
  · intro other different
    rw [rest other different]
    exact sound.strtabs other

theorem Sound.setSymtab {part : SectionState} {tables : Bool → SymtabState} {dynamic : Bool} {table : SymtabState}
    (sound : Sound platform object kept elf) (soundPart : SoundSections platform object kept part)
    (soundTable : SoundSymtab platform object kept dynamic table)
    (rest : ∀ other ≠ dynamic, tables other = elf.symtabs other) :
    Sound platform object kept ⟨part, elf.strtabEntries, Function.update tables dynamic table⟩ := by
  refine ⟨soundPart, sound.strtabs, ?_⟩
  refine (Function.forall_update_iff tables _).mpr ⟨soundTable, fun other different => ?_⟩
  rw [rest other different]
  exact sound.symtabs other

theorem loadStrtab_follows (index : Nat) (sound : Sound platform object kept elf) :
    FollowsFrom kept IsInternalError (Sound platform object kept) (loadStrtab platform object index)
      (strtabOf platform object index) elf := by
  refine firstLoad_follows _ _ _ sound.sections (fun data part known soundPart => ?_) (fun part failed soundPart => ?_)
  · have loaded : SoundStrtab platform object kept index ⟨true, true, data⟩ := ⟨fun _ => known, nofun⟩
    exact sound.setStrtab soundPart loaded fun other different => Function.update_of_ne different _ _
  · have marked : SoundStrtab platform object kept index ⟨true, false, []⟩ := ⟨nofun, fun _ _ => failed⟩
    exact sound.setStrtab soundPart marked fun _ _ => rfl

theorem getStrtab_follows (index : Nat) :
    Follows kept IsInternalError (Sound platform object kept) (getStrtab platform object index)
      (strtabOf platform object index) := by
  intro elf sound
  cases held : elf.strtabEntries index with
  | none =>
    refine FollowsFrom.congr _ ?_ (loadStrtab_follows index sound)
    simp [getStrtab, held]
  | some entry =>
    have soundEntry := sound.strtabs index entry held
    by_cases loaded : entry.didLoadStrtab = true
    · refine FollowsFrom.congr (pure entry.data) (by simp [getStrtab, held, loaded]) ?_
      rw [soundEntry.loaded loaded]
      exact Follows.pure entry.data elf sound
    · by_cases tried : entry.triedToLoadStrtab = true
      · refine FollowsFrom.congr _ ?_ (follows_report s!"previous strtab load failed {object.file.path}"
          (soundEntry.failed (by simpa using loaded) tried) sound)
        simp [getStrtab, held, loaded, tried]
      · refine FollowsFrom.congr _ ?_ (loadStrtab_follows index sound)
        simp [getStrtab, held, loaded, tried]

theorem getSymtabWhere_follows (dynamic : Bool) (kind : String) :
    Follows kept IsInternalError (Sound platform object kept) (getSymtabWhere platform object dynamic kind)
      (symtabOf platform object dynamic) := by
  intro elf sound
  have soundTable := sound.symtabs dynamic
  by_cases loaded : (elf.symtabs dynamic).didLoad = true
  · refine FollowsFrom.congr (pure (elf.symtabs dynamic).symtab) (by simp [getSymtabWhere, loaded]) ?_
    rw [soundTable.loaded loaded]
    exact Follows.pure _ elf sound
  · by_cases tried : (elf.symtabs dynamic).triedToLoad = true
    · refine FollowsFrom.congr _ ?_ (follows_report s!"previous {kind} load failed {object.file.path}"
        (soundTable.failed (by simpa using loaded) tried) sound)
      simp [getSymtabWhere, loaded, tried]
    · refine FollowsFrom.congr _ ?_ (firstLoad_follows
        (fun elf => { elf with symtabs := Function.update elf.symtabs dynamic ⟨true, false, none⟩ })
        (fun symtab elf => { elf with symtabs := Function.update elf.symtabs dynamic ⟨true, true, symtab⟩ })
        (fun sections => readSymtab platform object sections dynamic)
        sound.sections (fun symtab part known soundPart => ?_) (fun part failed soundPart => ?_))
      · simp only [getSymtabWhere, Command.bind_apply, Command.get_apply, if_neg loaded, if_neg tried]
        rfl
      · have loaded : SoundSymtab platform object kept dynamic ⟨true, true, symtab⟩ := ⟨fun _ => known, nofun⟩
        exact sound.setSymtab soundPart loaded fun other different => Function.update_of_ne different _ _
      · have marked : SoundSymtab platform object kept dynamic ⟨true, false, none⟩ := ⟨nofun, fun _ _ => failed⟩
        exact sound.setSymtab soundPart marked fun _ _ => rfl

end Tables

end Getters

section Queries

variable {platform object} {kept : Failure → Prop}

theorem map_follows {α β : Type} {command : Command Failure Elf α} {fresh : Except Failure α} (change : α → β)
    (valid : Follows kept IsInternalError (Sound platform object kept) command fresh) :
    Follows kept IsInternalError (Sound platform object kept) (change <$> command) (change <$> fresh) := by
  have mapped : Follows kept IsInternalError (Sound platform object kept) (command >>= fun value => pure (change value))
      (fresh >>= fun value => pure (change value)) := valid.bind fun value _ => Follows.pure (change value)
  cases fresh <;> exact mapped

theorem onHeader_follows :
    Follows kept IsInternalError (Sound platform object kept) (onSections (onHeader (getHeaderInfo platform object)))
      (readHeader platform object) := by
  have header : Follows kept IsInternalError (SoundSections platform object kept)
      (onHeader (getHeaderInfo platform object)) (readHeader platform object) :=
    getHeaderInfo_follows.onPart (fun _ sound => sound.header) fun state part sound soundPart =>
      ⟨soundPart, sound.loaded, sound.failed, sound.untried⟩
  exact header.onPart (fun _ sound => sound.sections) fun _ _ sound soundPart =>
    ⟨soundPart, sound.strtabs, sound.symtabs⟩

theorem onSections_follows :
    Follows kept IsInternalError (Sound platform object kept) (onSections (getSections platform object))
      (sectionsOf platform object) :=
  getSections_follows.onPart (fun _ sound => sound.sections) fun _ _ sound soundPart =>
    ⟨soundPart, sound.strtabs, sound.symtabs⟩

theorem getModuleImageBase_follows :
    Follows kept IsInternalError (Sound platform object kept) (getModuleImageBase platform object)
      (imageBaseOf platform object) :=
  onHeader_follows.bind fun _ _ => .ofExcept _

theorem getPcRanges_follows :
    Follows kept IsInternalError (Sound platform object kept) (getPcRanges platform object)
      (textRanges platform object) :=
  onHeader_follows.bind fun header _ => (getStrtab_follows header.eShstrndx.toNat).bind fun _ _ =>
    onSections_follows.bind fun _ _ => .ofExcept _

theorem resolveSymtabEntries_follows (dynamic : Bool) (kind : String) :
    Follows kept IsInternalError (Sound platform object kept)
      (resolveSymtabEntries platform object (getSymtabWhere platform object dynamic kind))
      (entriesOf platform object dynamic) := by
  refine (getSymtabWhere_follows dynamic kind).bind fun symtab _ => ?_
  cases symtab with
  | none => exact Follows.pure none
  | some info =>
    dsimp only
    split
    · exact (Follows.ofExcept _).bind fun entries _ => Follows.pure (some entries)
    · exact (getStrtab_follows info.strtabLink).bind fun strtab _ =>
        (Follows.ofExcept _).bind fun entries _ => Follows.pure (some entries)

/-- Of what a load can fail with, the errors are kept and nothing else. -/
structure KeepsErrors (kept : Failure → Prop) : Prop where
  errors : ∀ failure, IsInternalError failure → kept failure
  only : ∀ failure, kept failure → IsLoadFailure failure → IsInternalError failure

theorem attempt_follows {α : Type} {command : Command Failure Elf α} {fresh : Except Failure α}
    (keepsErrors : KeepsErrors kept) (loads : FailsOnly IsLoadFailure fresh)
    (valid : Follows kept IsInternalError (Sound platform object kept) command fresh) :
    Follows kept IsInternalError (Sound platform object kept) (attempt command) (attempted fresh) := by
  intro elf sound
  obtain ⟨agrees, keeps⟩ := valid elf sound
  unfold FollowsFrom attempt
  rcases outcome : command elf with ⟨result, after⟩
  rw [outcome] at agrees keeps
  cases result with
  | ok value =>
    rw [agrees.ok]
    exact ⟨.refl _, fun _ => keeps nofun⟩
  | error failure =>
    cases failure with
    | internalError what =>
      have mayKeep := keepsErrors.errors _ ⟨what, rfl⟩
      obtain ⟨first, known, firstKept⟩ := agrees.error mayKeep
      obtain ⟨first, rfl⟩ := keepsErrors.only first firstKept (loads first known)
      rw [known]
      refine ⟨.refl _, fun _ => keeps fun failure same => ?_⟩
      cases same
      exact mayKeep
    | allocation | undefined | outsideTable =>
      have known := agrees.of_not_report (by rintro ⟨_, ⟨⟩⟩)
      rw [known]
      refine ⟨.refl _, fun allowed => keeps fun failure same => ?_⟩
      cases same
      exact allowed _ rfl

section Lookup

variable (keepsErrors : KeepsErrors kept)
include keepsErrors

theorem lookupSymbolIn_follows (pc : FramePtr) (maybeSymtab : Option SymtabInfo) :
    Follows kept IsInternalError (Sound platform object kept) (lookupSymbolIn platform object pc maybeSymtab)
      (symbolIn platform object pc maybeSymtab) := by
  cases maybeSymtab with
  | none => exact Follows.pure none
  | some symtab =>
    unfold lookupSymbolIn symbolIn
    dsimp only
    split
    · exact Follows.pure none
    · refine (attempt_follows keepsErrors (strtabOf_loads _) (getStrtab_follows symtab.strtabLink)).bind
        fun strtab _ => ?_
      cases strtab with
      | none => exact Follows.pure none
      | some strtab => exact Follows.ofExcept _

theorem lookupSymbolThrough_follows (dynamic : Bool) (kind : String) (pc : FramePtr) :
    Follows kept IsInternalError (Sound platform object kept)
      (lookupSymbolThrough platform object (getSymtabWhere platform object dynamic kind) pc)
      (symbolThrough platform object dynamic pc) := by
  refine (attempt_follows keepsErrors (symtabOf_loads dynamic) (getSymtabWhere_follows dynamic kind)).bind
    fun symtab _ => ?_
  cases symtab with
  | none => exact Follows.pure none
  | some symtab => exact lookupSymbolIn_follows keepsErrors pc symtab

theorem lookupSymbol_follows (pc : FramePtr) :
    Follows kept IsInternalError (Sound platform object kept) (lookupSymbol platform object pc)
      (symbolOf platform object pc) := by
  refine (lookupSymbolThrough_follows keepsErrors false _ pc).bind fun symbol _ => ?_
  cases symbol with
  | some symbol => exact Follows.pure (some symbol)
  | none => exact lookupSymbolThrough_follows keepsErrors true _ pc

/-- Where of the loads' failures only errors are kept, every query follows what the object says. -/
theorem ask_follows (query : Query) :
    Follows kept IsInternalError (Sound platform object kept) (ask platform object query)
      (answerOf platform object query) := by
  cases query with
  | getModuleImageBase => exact map_follows _ getModuleImageBase_follows
  | getPcRanges => exact map_follows _ getPcRanges_follows
  | getSymtabEntries => exact map_follows _ (resolveSymtabEntries_follows false _)
  | getDynamicSymtabEntries => exact map_follows _ (resolveSymtabEntries_follows true _)
  | lookupSymbol pc => exact map_follows _ (lookupSymbol_follows keepsErrors pc)

end Lookup

theorem keepsErrors_internalError : KeepsErrors IsInternalError := ⟨fun _ error => error, fun _ error _ => error⟩

theorem toOption_eq {kept : Failure → Prop} {fresh outcome : Except Failure Answer}
    (agrees : Agrees kept IsInternalError fresh outcome) : outcome.toOption = fresh.toOption := by
  rcases agrees with rfl | ⟨failure, report, rfl, -, rfl, -⟩
  · rfl
  · rfl

variable (platform object) in
/-- What an object that was just opened answers is what the object says, but for the text of an error. -/
theorem step_new (query : Query) :
    (step platform object query Elf.new).1 = answerOf platform object query ∨
      ∃ failure report, answerOf platform object query = .error failure ∧ IsInternalError failure ∧
        (step platform object query Elf.new).1 = .error report ∧ IsInternalError report :=
  (ask_follows keepsErrors_internalError query Elf.new (sound_new platform object IsInternalError)).1

theorem step_new_toOption (query : Query) :
    (step platform object query Elf.new).1.toOption = (answerOf platform object query).toOption :=
  toOption_eq (ask_follows keepsErrors_internalError query Elf.new (sound_new platform object IsInternalError)).1

end Queries

end Cpptrace.Binary
