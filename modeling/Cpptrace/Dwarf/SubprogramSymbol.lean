import Cpptrace.Dwarf.Die
import Cpptrace.Library.Settling
import Cpptrace.Library.Command

/-! The symbol of a subprogram, chased through the references between entries.

`subprogram_symbol` calls itself on the entry that a specification or an abstract
origin refers to, and nothing bounds how often. It ends exactly if the references
it follows have no cycle, which a file need not grant.
-/

set_option autoImplicit false

namespace Cpptrace.Dwarf

open Library Relation

/-- An attribute read as a string: `otherForm` is present with a form that is none. -/
inductive StringAttribute where
  | absent
  | text (value : Text)
  | otherForm
  deriving DecidableEq, Repr

inductive ReferenceForm where
  | ref1
  | ref2
  | ref4
  | ref8
  | refUdata
  | refAddr
  | refSig8
  | other (form : Nat)
  deriving DecidableEq, Repr

structure Reference where
  form : ReferenceForm
  value : Nat
  deriving DecidableEq, Repr

/-- What `subprogram_symbol` reads of an entry. -/
structure SymbolDie where
  globalOffset : Nat
  isInfo : Bool
  tag : Tag
  linkageName : StringAttribute
  mipsLinkageName : StringAttribute
  name : StringAttribute
  specification : Option Reference
  abstractOrigin : Option Reference
  deriving DecidableEq, Repr

/-- What leaves `subprogram_symbol` as an exception. -/
inductive Thrown where
  | asserted (exception : Exception)
  | dwarfError (function : String)
  deriving DecidableEq, Repr

/-- What libdwarf finds in a file: the entry at an offset, the offset that a reference inside a unit stands
for, and the entry of a type signature. The entries of a file are finitely many. -/
structure DebugInfo where
  dies : List SymbolDie
  offdie : (offset : Nat) → (isInfo : Bool) → Except Thrown SymbolDie
  formref : SymbolDie → Reference → Except Thrown Nat
  findDieGivenSig8 : (signature : Nat) → Except Thrown SymbolDie
  offdie_mem : ∀ offset isInfo die, offdie offset isInfo = .ok die → die ∈ dies
  findDieGivenSig8_mem : ∀ signature die, findDieGivenSig8 signature = .ok die → die ∈ dies

def getStringAttribute : StringAttribute → Except Thrown (Option Text)
  | .absent => pure none
  | .text value => pure (some value)
  | .otherForm => throw (.dwarfError "dwarf_formstring")

namespace DebugInfo

variable (info : DebugInfo)

def resolveReferenceAttribute (die : SymbolDie) (attrNum : Nat) (reference : Reference) :
    Except Thrown SymbolDie :=
  match reference.form with
  | .ref1 | .ref2 | .ref4 | .ref8 | .refUdata => do
      let offset ← info.formref die reference
      info.offdie offset die.isInfo
  | .refAddr => info.offdie reference.value die.isInfo
  | .refSig8 => info.findDieGivenSig8 reference.value
  | .other form =>
      throw (.asserted (.internalError .panic "" (some s!"unknown form for attribute {attrNum} {form}\n")))

def symbolName (die : SymbolDie) : Except Thrown (Option Text) := do
  if let some name ← getStringAttribute die.linkageName then return some name
  if let some name ← getStringAttribute die.mipsLinkageName then return some name
  getStringAttribute die.name

def symbolOrigin (die : SymbolDie) : Except Thrown (Option SymbolDie) :=
  match die.specification with
  | some reference => some <$> info.resolveReferenceAttribute die 0x47 reference
  | none =>
      match die.abstractOrigin with
      | some reference => some <$> info.resolveReferenceAttribute die 0x31 reference
      | none => pure none

inductive CallResult where
  | returned (symbol : Text)
  | calls (die : SymbolDie)
  deriving DecidableEq, Repr

def isSubprogram (die : SymbolDie) : Bool :=
  die.tag = .subprogram || die.tag = .inlinedSubroutine

/-- `subprogram_symbol`, without the call it ends with. -/
def symbolStep (die : SymbolDie) : Except Thrown CallResult := do
  (assertImpl (isSubprogram die) .assert
    "die.get_tag() == DW_TAG_subprogram || die.get_tag() == DW_TAG_inlined_subroutine" none).mapError
      .asserted
  if let some name ← symbolName die then return .returned name
  if let some spec ← info.symbolOrigin die then return .calls spec
  return .returned []

/-- `subprogram_symbol`. Out of fuel there is no answer. -/
def subprogramSymbol : Nat → SymbolDie → Option (Except Thrown Text)
  | 0, _ => none
  | fuel + 1, die =>
      match info.symbolStep die with
      | .error thrown => some (.error thrown)
      | .ok (.returned symbol) => some (.ok symbol)
      | .ok (.calls spec) => subprogramSymbol fuel spec

end DebugInfo

inductive HasName (die : SymbolDie) (symbol : Text) : Prop where
  | linkageName (first : die.linkageName = .text symbol)
  | mipsLinkageName (first : die.linkageName = .absent) (second : die.mipsLinkageName = .text symbol)
  | name (first : die.linkageName = .absent) (second : die.mipsLinkageName = .absent)
      (third : die.name = .text symbol)

structure Nameless (die : SymbolDie) : Prop where
  linkageName : die.linkageName = .absent
  mipsLinkageName : die.mipsLinkageName = .absent
  name : die.name = .absent

@[simp] theorem getStringAttribute_some_iff (attr : StringAttribute) (symbol : Text) :
    getStringAttribute attr = .ok (some symbol) ↔ attr = .text symbol := by
  cases attr <;> simp [getStringAttribute, pure, Except.pure, throw, throwThe, MonadExceptOf.throw]

@[simp] theorem getStringAttribute_none_iff (attr : StringAttribute) :
    getStringAttribute attr = .ok none ↔ attr = .absent := by
  cases attr <;> simp [getStringAttribute, pure, Except.pure, throw, throwThe, MonadExceptOf.throw]

theorem symbolName_some_iff (die : SymbolDie) (symbol : Text) :
    DebugInfo.symbolName die = .ok (some symbol) ↔ HasName die symbol := by
  rw [DebugInfo.symbolName, Outcome.bind_eq_ok_iff]
  constructor
  · rintro ⟨_ | linkage, read, rest⟩
    · obtain ⟨_ | mips, read', rest⟩ := (Outcome.bind_eq_ok_iff _ _ _).mp rest
      · exact .name (by simpa using read) (by simpa using read') (by simpa using rest)
      · cases rest
        exact .mipsLinkageName (by simpa using read) (by simpa using read')
    · cases rest
      exact .linkageName (by simpa using read)
  · rintro (first | ⟨first, second⟩ | ⟨first, second, third⟩)
    · exact ⟨some symbol, by simpa using first, rfl⟩
    · refine ⟨none, by simpa using first, (Outcome.bind_eq_ok_iff _ _ _).mpr ?_⟩
      exact ⟨some symbol, by simpa using second, rfl⟩
    · refine ⟨none, by simpa using first, (Outcome.bind_eq_ok_iff _ _ _).mpr ?_⟩
      exact ⟨none, by simpa using second, by simpa using third⟩

theorem symbolName_none_iff (die : SymbolDie) :
    DebugInfo.symbolName die = .ok none ↔ Nameless die := by
  rw [DebugInfo.symbolName, Outcome.bind_eq_ok_iff]
  constructor
  · rintro ⟨_ | linkage, read, rest⟩
    · obtain ⟨_ | mips, read', rest⟩ := (Outcome.bind_eq_ok_iff _ _ _).mp rest
      · exact ⟨by simpa using read, by simpa using read', by simpa using rest⟩
      · cases rest
    · cases rest
  · rintro ⟨first, second, third⟩
    refine ⟨none, by simpa using first, (Outcome.bind_eq_ok_iff _ _ _).mpr ?_⟩
    exact ⟨none, by simpa using second, by simpa using third⟩

namespace DebugInfo

variable (info : DebugInfo)

inductive Refers (die next : SymbolDie) : Prop where
  | specification (nameless : Nameless die) (reference : Reference)
      (held : die.specification = some reference)
      (resolved : info.resolveReferenceAttribute die 0x47 reference = .ok next)
  | abstractOrigin (nameless : Nameless die) (reference : Reference)
      (noSpecification : die.specification = none)
      (held : die.abstractOrigin = some reference)
      (resolved : info.resolveReferenceAttribute die 0x31 reference = .ok next)

theorem Refers.nameless {info : DebugInfo} {die next : SymbolDie} (refers : info.Refers die next) :
    Nameless die := by
  cases refers <;> assumption

/-- The chain of references ends at an entry: with its name, or with nothing to follow. -/
inductive EndsAt (die : SymbolDie) : Text → Prop where
  | named {symbol : Text} (name : HasName die symbol) : EndsAt die symbol
  | bare (nameless : Nameless die) (noSpecification : die.specification = none)
      (noOrigin : die.abstractOrigin = none) : EndsAt die []

/-- The first name along the references from an entry, or the empty text where they end. -/
inductive FirstName : SymbolDie → Text → Prop where
  | here {die : SymbolDie} {symbol : Text} (ends : EndsAt die symbol) : FirstName die symbol
  | along {die next : SymbolDie} {symbol : Text} (refers : info.Refers die next)
      (rest : FirstName next symbol) : FirstName die symbol

def Calls (die next : SymbolDie) : Prop :=
  isSubprogram die = true ∧ info.Refers die next

/-- An entry on which `subprogram_symbol` finds what it expects: a subprogram, with a name,
with a reference to an entry of the file, or with neither. -/
def Sound (die : SymbolDie) : Prop :=
  isSubprogram die = true ∧ ((∃ symbol, EndsAt die symbol) ∨ ∃ next, info.Refers die next)

theorem map_some_eq_iff {ε α : Type} (outcome : Except ε α) (value : α) :
    some <$> outcome = .ok (some value) ↔ outcome = .ok value := by
  cases outcome <;> simp [Functor.map, Except.map]

theorem map_some_ne_none {ε α : Type} (outcome : Except ε α) : some <$> outcome ≠ .ok none := by
  cases outcome <;> simp [Functor.map, Except.map]

theorem symbolOrigin_some_iff {die : SymbolDie} (nameless : Nameless die) (next : SymbolDie) :
    info.symbolOrigin die = .ok (some next) ↔ info.Refers die next := by
  constructor
  · intro origin
    unfold symbolOrigin at origin
    split at origin
    next reference held =>
      exact .specification nameless reference held ((map_some_eq_iff _ _).mp origin)
    next noSpecification =>
      split at origin
      next reference held =>
        exact .abstractOrigin nameless reference noSpecification held ((map_some_eq_iff _ _).mp origin)
      next => cases origin
  · rintro (⟨_, reference, held, resolved⟩ | ⟨_, reference, noSpecification, held, resolved⟩)
    · simp only [symbolOrigin, held, resolved]
      rfl
    · simp only [symbolOrigin, noSpecification, held, resolved]
      rfl

theorem symbolOrigin_none_iff (die : SymbolDie) :
    info.symbolOrigin die = .ok none ↔ die.specification = none ∧ die.abstractOrigin = none := by
  unfold symbolOrigin
  split
  next reference held => simp [held, map_some_ne_none]
  next noSpecification =>
    split
    next reference held => simp [held, map_some_ne_none]
    next noOrigin => simp [noSpecification, noOrigin, pure, Except.pure]

theorem asserted_eq_ok_iff (condition : Bool) (expression : String) (done : Unit) :
    (assertImpl condition .assert expression none).mapError Thrown.asserted = .ok done ↔
      condition = true := by
  cases condition <;> simp [assertImpl, Except.mapError, pure, Except.pure, throw, throwThe,
    MonadExceptOf.throw]

theorem symbolStep_eq_ok_iff (die : SymbolDie) (result : CallResult) :
    info.symbolStep die = .ok result ↔ isSubprogram die = true ∧
      ((∃ symbol, HasName die symbol ∧ result = .returned symbol) ∨
        (∃ next, info.Refers die next ∧ result = .calls next) ∨
        Nameless die ∧ die.specification = none ∧ die.abstractOrigin = none ∧ result = .returned []) := by
  rw [symbolStep, Outcome.bind_eq_ok_iff]
  constructor
  · rintro ⟨done, asserted, rest⟩
    refine ⟨(asserted_eq_ok_iff _ _ _).mp asserted, ?_⟩
    obtain ⟨_ | name, named, rest⟩ := (Outcome.bind_eq_ok_iff _ _ _).mp rest
    · have nameless := (symbolName_none_iff die).mp named
      obtain ⟨_ | next, origin, rest⟩ := (Outcome.bind_eq_ok_iff _ _ _).mp rest
      · cases rest
        have bare := (symbolOrigin_none_iff info die).mp origin
        exact .inr (.inr ⟨nameless, bare.1, bare.2, rfl⟩)
      · cases rest
        exact .inr (.inl ⟨next, (symbolOrigin_some_iff info nameless next).mp origin, rfl⟩)
    · cases rest
      exact .inl ⟨name, (symbolName_some_iff die name).mp named, rfl⟩
  · rintro ⟨subprogram, ends⟩
    refine ⟨(), (asserted_eq_ok_iff _ _ _).mpr subprogram, (Outcome.bind_eq_ok_iff _ _ _).mpr ?_⟩
    rcases ends with ⟨symbol, name, rfl⟩ | ⟨next, refers, rfl⟩ | ⟨nameless, bare, bare', rfl⟩
    · exact ⟨some symbol, (symbolName_some_iff die symbol).mpr name, rfl⟩
    · have nameless : Nameless die := refers.nameless
      refine ⟨none, (symbolName_none_iff die).mpr nameless, (Outcome.bind_eq_ok_iff _ _ _).mpr ?_⟩
      exact ⟨some next, (symbolOrigin_some_iff info nameless next).mpr refers, rfl⟩
    · refine ⟨none, (symbolName_none_iff die).mpr nameless, (Outcome.bind_eq_ok_iff _ _ _).mpr ?_⟩
      exact ⟨none, (symbolOrigin_none_iff info die).mpr ⟨bare, bare'⟩, rfl⟩

theorem symbolStep_calls_iff (die next : SymbolDie) :
    info.symbolStep die = .ok (.calls next) ↔ info.Calls die next := by
  simp [symbolStep_eq_ok_iff, Calls]

theorem symbolStep_returned_iff (die : SymbolDie) (symbol : Text) :
    info.symbolStep die = .ok (.returned symbol) ↔ isSubprogram die = true ∧ EndsAt die symbol := by
  rw [symbolStep_eq_ok_iff]
  refine and_congr_right fun _ => ⟨?_, ?_⟩
  · rintro (⟨_, name, ⟨⟩⟩ | ⟨_, _, ⟨⟩⟩ | ⟨nameless, bare, bare', ⟨⟩⟩)
    · exact .named name
    · exact .bare nameless bare bare'
  · rintro (name | ⟨nameless, bare, bare'⟩)
    · exact .inl ⟨symbol, name, rfl⟩
    · exact .inr (.inr ⟨nameless, bare, bare', rfl⟩)

theorem Calls.eq {info : DebugInfo} {die next other : SymbolDie} (first : info.Calls die next)
    (second : info.Calls die other) : next = other := by
  have same := (info.symbolStep_calls_iff die next).mpr first
  rw [(info.symbolStep_calls_iff die other).mpr second] at same
  cases same
  rfl

theorem resolveReferenceAttribute_mem {die next : SymbolDie} {attrNum : Nat} {reference : Reference}
    (resolved : info.resolveReferenceAttribute die attrNum reference = .ok next) : next ∈ info.dies := by
  unfold resolveReferenceAttribute at resolved
  split at resolved
  case h_6 => exact info.offdie_mem _ _ _ resolved
  case h_7 => exact info.findDieGivenSig8_mem _ _ resolved
  case h_8 => cases resolved
  all_goals
    obtain ⟨offset, _, found⟩ := (Outcome.bind_eq_ok_iff _ _ _).mp resolved
    exact info.offdie_mem _ _ _ found

theorem Calls.mem {info : DebugInfo} {die next : SymbolDie} (calls : info.Calls die next) :
    next ∈ info.dies := by
  rcases calls.2 with ⟨_, _, _, resolved⟩ | ⟨_, _, _, _, resolved⟩
  · exact info.resolveReferenceAttribute_mem resolved
  · exact info.resolveReferenceAttribute_mem resolved

theorem subprogramSymbol_calls {die next : SymbolDie} (calls : info.Calls die next) (fuel : Nat) :
    info.subprogramSymbol (fuel + 1) die = info.subprogramSymbol fuel next := by
  rw [subprogramSymbol, (info.symbolStep_calls_iff die next).mpr calls]

theorem subprogramSymbol_endsAt {die : SymbolDie} {symbol : Text} (subprogram : isSubprogram die = true)
    (ends : EndsAt die symbol) (fuel : Nat) : info.subprogramSymbol (fuel + 1) die = some (.ok symbol) := by
  rw [subprogramSymbol, (info.symbolStep_returned_iff die symbol).mpr ⟨subprogram, ends⟩]

/-- A call that returns is on a subprogram, and ends there or goes on with a reference. -/
theorem subprogramSymbol_cases {fuel : Nat} {die : SymbolDie} {symbol : Text}
    (ran : info.subprogramSymbol (fuel + 1) die = some (.ok symbol)) :
    isSubprogram die = true ∧ (EndsAt die symbol ∨
      ∃ next, info.Refers die next ∧ info.subprogramSymbol fuel next = some (.ok symbol)) := by
  rw [subprogramSymbol] at ran
  cases step : info.symbolStep die with
  | error thrown =>
    rw [step] at ran
    cases ran
  | ok result =>
    rw [step] at ran
    cases result with
    | returned found =>
      cases ran
      have ends := (info.symbolStep_returned_iff die symbol).mp step
      exact ⟨ends.1, .inl ends.2⟩
    | calls next =>
      have calls := (info.symbolStep_calls_iff die next).mp step
      exact ⟨calls.1, .inr ⟨next, calls.2, ran⟩⟩

theorem subprogramSymbol_ends_iff_acc (start : SymbolDie) :
    (∃ fuel outcome, info.subprogramSymbol fuel start = some outcome) ↔ Acc (flip info.Calls) start := by
  constructor
  · rintro ⟨fuel, outcome, ran⟩
    induction fuel generalizing start with
    | zero => cases ran
    | succ fuel ih =>
      refine ⟨_, fun next calls => ih next ?_⟩
      rwa [info.subprogramSymbol_calls calls] at ran
  · intro ends
    -- every call takes one unit of fuel more than the call it makes
    induction ends with
    | intro die _ ih =>
      cases step : info.symbolStep die with
      | error thrown => exact ⟨1, .error thrown, by simp [subprogramSymbol, step]⟩
      | ok result =>
        cases result with
        | returned symbol => exact ⟨1, .ok symbol, by simp [subprogramSymbol, step]⟩
        | calls next =>
          have calls := (info.symbolStep_calls_iff die next).mp step
          obtain ⟨fuel, outcome, ran⟩ := ih next calls
          exact ⟨fuel + 1, outcome, (info.subprogramSymbol_calls calls fuel).trans ran⟩

theorem subprogramSymbol_firstName {fuel : Nat} {start : SymbolDie} {symbol : Text}
    (ran : info.subprogramSymbol fuel start = some (.ok symbol)) : info.FirstName start symbol := by
  induction fuel generalizing start with
  | zero => cases ran
  | succ fuel ih =>
    obtain ⟨-, ends | ⟨next, refers, rest⟩⟩ := info.subprogramSymbol_cases ran
    · exact .here ends
    · exact .along refers (ih rest)

theorem subprogramSymbol_sound {fuel : Nat} {start : SymbolDie} {symbol : Text}
    (ran : info.subprogramSymbol fuel start = some (.ok symbol)) (die : SymbolDie)
    (path : ReflTransGen info.Calls start die) : info.Sound die := by
  induction fuel generalizing start with
  | zero => cases ran
  | succ fuel ih =>
    rcases path.cases_head with rfl | ⟨next, calls, rest⟩
    · obtain ⟨subprogram, ends | ⟨next, refers, -⟩⟩ := info.subprogramSymbol_cases ran
      · exact ⟨subprogram, .inl ⟨symbol, ends⟩⟩
      · exact ⟨subprogram, .inr ⟨next, refers⟩⟩
    · rw [info.subprogramSymbol_calls calls] at ran
      exact ih ran rest

/-- Sound entries let a call return, if the calls come to an end. -/
theorem subprogramSymbol_returns {start : SymbolDie} (ends : Acc (flip info.Calls) start)
    (sound : ∀ die, ReflTransGen info.Calls start die → info.Sound die) :
    ∃ fuel symbol, info.subprogramSymbol fuel start = some (.ok symbol) := by
  induction ends with
  | intro die _ ih =>
    obtain ⟨subprogram, ⟨symbol, here⟩ | ⟨next, refers⟩⟩ := sound die .refl
    · exact ⟨1, symbol, info.subprogramSymbol_endsAt subprogram here 0⟩
    · have calls : info.Calls die next := ⟨subprogram, refers⟩
      obtain ⟨fuel, symbol, ran⟩ := ih next calls fun reached path => sound reached (.head calls path)
      exact ⟨fuel + 1, symbol, (info.subprogramSymbol_calls calls fuel).trans ran⟩

theorem calls_acc_iff_acyclic (start : SymbolDie) :
    Acc (flip info.Calls) start ↔ Acyclic info.Calls start :=
  acc_iff_acyclic (List.finite_toSet info.dies) fun _ _ calls => calls.mem

/-- The calls end exactly if they come to no cycle. They return the first name exactly if in
addition every entry they come to is sound. -/
theorem subprogramSymbol_returns_iff (start : SymbolDie) :
    ((∃ fuel outcome, info.subprogramSymbol fuel start = some outcome) ↔ Acyclic info.Calls start) ∧
      ((∃ fuel symbol, info.subprogramSymbol fuel start = some (.ok symbol) ∧ info.FirstName start symbol) ↔
        Acyclic info.Calls start ∧ ∀ die, ReflTransGen info.Calls start die → info.Sound die) := by
  have ends := (info.subprogramSymbol_ends_iff_acc start).trans (info.calls_acc_iff_acyclic start)
  refine ⟨ends, ?_, ?_⟩
  · rintro ⟨fuel, symbol, ran, _⟩
    exact ⟨ends.mp ⟨fuel, _, ran⟩, info.subprogramSymbol_sound ran⟩
  · rintro ⟨acyclic, sound⟩
    obtain ⟨fuel, symbol, ran⟩ :=
      info.subprogramSymbol_returns ((info.calls_acc_iff_acyclic start).mpr acyclic) sound
    exact ⟨fuel, symbol, ran, info.subprogramSymbol_firstName ran⟩

/-- A nameless inlined subroutine at offset 12 whose abstract origin is offset 12 itself. -/
def loopingDie : SymbolDie :=
  { globalOffset := 12, isInfo := true, tag := .inlinedSubroutine
    linkageName := .absent, mipsLinkageName := .absent, name := .absent
    specification := none, abstractOrigin := some ⟨.ref4, 12⟩ }

def loopingInfo : DebugInfo where
  dies := [loopingDie]
  offdie offset _ := if offset = 12 then .ok loopingDie else throw (.dwarfError "dwarf_offdie_b")
  formref _ reference := .ok reference.value
  findDieGivenSig8 _ := throw (.dwarfError "dwarf_find_die_given_sig8")
  offdie_mem _ _ _ found := by
    split at found
    · exact List.mem_singleton.mpr (Except.ok.inj found).symm
    · cases found
  findDieGivenSig8_mem _ _ found := nomatch found

theorem loopingInfo_step : loopingInfo.symbolStep loopingDie = .ok (.calls loopingDie) := by
  decide

/-- However much fuel there is, the call on the entry that refers to itself has no answer. -/
theorem subprogramSymbol_looping :
    ¬ ∃ fuel symbol, loopingInfo.subprogramSymbol fuel loopingDie = some (.ok symbol) ∧
      loopingInfo.FirstName loopingDie symbol := by
  rintro ⟨fuel, symbol, ran, _⟩
  induction fuel with
  | zero => cases ran
  | succ fuel ih =>
    rw [subprogramSymbol, loopingInfo_step] at ran
    exact ih ran

end DebugInfo

end Cpptrace.Dwarf
