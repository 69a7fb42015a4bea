import Cpptrace.Basic
import Cpptrace.Library.Declarators

/-! `symbols_with_dbghelp.cpp`: the signatures of functions, from type information.

What a module says of its types is a parameter. Types are read by their indices and
written as C++ writes them, with a base and what stands right of the middle.
-/

set_option autoImplicit false

namespace Cpptrace.Symbols.Dbghelp

open Cpptrace.Library Declarators

abbrev TypeIndex := UInt32

inductive SymTag where
  | udt
  | enum
  | functionType
  | pointerType
  | arrayType
  | baseType
  | typedef
  | baseClass
  | functionArgType
  | other (value : Nat)
  deriving DecidableEq, Repr

inductive BasicType where
  | noType
  | void
  | char
  | wChar
  | int
  | uInt
  | float
  | bool
  | long
  | uLong
  | other (value : Nat)
  deriving DecidableEq, Repr

/-- What `SymGetTypeInfo` answers for a module, if it succeeds. The children of a type are asked for with
their count, and come with the index of the first. -/
structure TypeInfo where
  symTag : TypeIndex → Option SymTag
  symName : TypeIndex → Option Text
  baseType : TypeIndex → Option BasicType
  typeId : TypeIndex → Option TypeIndex
  count : TypeIndex → Option UInt32
  classParentId : TypeIndex → Option TypeIndex
  isReference : TypeIndex → Option Bool
  findChildren : TypeIndex → UInt32 → Option (UInt32 × (Nat → TypeIndex))
  /-- What Windows says of a failure. -/
  systemError : Text

inductive Failure where
  | internalError (message : Text)
  | outOfFuel
  deriving DecidableEq, Repr

section Types

variable (info : TypeInfo)

def getInfo {α : Type} : Option α → Except Failure α
  | some answer => return answer
  | none => throw (.internalError ("SymGetTypeInfo failed: ".toList ++ info.systemError))

/-- `get_info`, where the query may fail. -/
def getInfoFailable (answer : Option UInt32) : UInt32 := answer.getD 0xFFFFFFFF

def basicTypeName : BasicType → Text
  | .noType => "<no basic type>".toList
  | .void => "void".toList
  | .char => "char".toList
  | .wChar => "wchar_t".toList
  | .int => "int".toList
  | .uInt => "unsigned int".toList
  | .float => "float".toList
  | .bool => "bool".toList
  | .long => "long".toList
  | .uLong => "unsigned long".toList
  | .other _ => "<unknown basic type>".toList

def getBasicType (typeIndex : TypeIndex) : Except Failure Text := do
  return basicTypeName (← getInfo info (info.baseType typeIndex))

/-- `lookup_class_name`, before the class is resolved. -/
def classParent (typeIndex : TypeIndex) : Option TypeIndex :=
  let classParentId := getInfoFailable (info.classParentId typeIndex)
  if classParentId = 0xFFFFFFFF then none else some classParentId

structure TypeResult where
  base : Text
  extent : Text
  deriving DecidableEq, Repr

def TypeResult.text (type : TypeResult) : Text := type.base ++ type.extent

def punctuator (isRef : Bool) (className : Option Text) : Text :=
  let pp := if isRef then "&".toList else "*".toList
  match className with
  | none => pp
  | some name => name ++ "::".toList ++ pp

def pointerResult (pp : Text) (type : TypeResult) : TypeResult :=
  if type.extent.isEmpty then ⟨type.base ++ (if pp.length > 1 then " ".toList else []) ++ pp, []⟩
  else ⟨type.base ++ "(".toList ++ pp, ")".toList ++ type.extent⟩

def listed : List Text → Text
  | [] => []
  | first :: rest => first ++ rest.flatMap (", ".toList ++ ·)

def childCount (typeIndex : TypeIndex) : UInt32 :=
  getInfoFailable (info.count typeIndex) - if (classParent info typeIndex).isSome then 1 else 0

def decimal (value : Nat) : Text := Nat.toDigits 10 value

def lookupType : Nat → TypeIndex → Except Failure TypeResult
  | 0, _ => throw .outOfFuel
  | fuel + 1, typeIndex => do
      match ← getInfo info (info.symTag typeIndex) with
      | .baseType => return ⟨← getBasicType info typeIndex, []⟩
      | .pointerType =>
          let underlying ← getInfo info (info.typeId typeIndex)
          let isRef ← getInfo info (info.isReference typeIndex)
          let className ← (classParent info typeIndex).mapM fun parent => TypeResult.text <$> lookupType fuel parent
          return pointerResult (punctuator isRef className) (← lookupType fuel underlying)
      | .arrayType =>
          let underlying ← getInfo info (info.typeId typeIndex)
          let length ← getInfo info (info.count typeIndex)
          let type ← lookupType fuel underlying
          return ⟨type.base, "[".toList ++ decimal length.toNat ++ "]".toList ++ type.extent⟩
      | .functionType =>
          let returnTypeId ← getInfo info (info.typeId typeIndex)
          let returnType ← lookupType fuel returnTypeId
          if childCount info typeIndex = 0 then return ⟨returnType.base, "()".toList ++ returnType.extent⟩
          else
            let (start, childId) ← getInfo info (info.findChildren typeIndex (childCount info typeIndex))
            -- the children are the types of the parameters
            if start ≠ 0 then throw (.internalError "Error: children->Start == 0".toList)
            let types ← (List.range (childCount info typeIndex).toNat).mapM fun i =>
              TypeResult.text <$> lookupType fuel (childId i)
            return ⟨returnType.base, "(".toList ++ listed types ++ ")".toList ++ returnType.extent⟩
      | .functionArgType =>
          let underlying ← getInfo info (info.typeId typeIndex)
          return ⟨← TypeResult.text <$> lookupType fuel underlying, []⟩
      | .typedef | .enum | .udt | .baseClass => return ⟨← getInfo info (info.symName typeIndex), []⟩
      | .other tag => return ⟨"<unknown type ".toList ++ decimal tag ++ ">".toList, []⟩

def resolveType (fuel : Nat) (typeIndex : TypeIndex) : Except Failure Text :=
  TypeResult.text <$> lookupType info fuel typeIndex

end Types

section Meaning

structure PointerOperator where
  isReference : Bool
  ofClass : Option Text
  deriving DecidableEq, Repr

abbrev DebugType := CType Text PointerOperator UInt32

abbrev DebugToken := Token Text PointerOperator UInt32

variable (info : TypeInfo)

def nameOf : DebugType → Option Text
  | .name name => some name
  | _ => none

end Meaning

section Writing

def PointerOperator.text (operator : PointerOperator) : Text := punctuator operator.isReference operator.ofClass

def tokenText : DebugToken → Text
  | .name name => name
  | .operator operator => operator.text
  | .length length => "[".toList ++ decimal length.toNat ++ "]".toList
  | .opens => "(".toList
  | .closes => ")".toList
  | .comma => ",".toList

/-- A text is the tokens, with blanks between some of them. -/
inductive Writes : List DebugToken → Text → Prop where
  | nil : Writes [] []
  | token {tokens : List DebugToken} {text : Text} (token : DebugToken) (rest : Writes tokens text) :
      Writes (token :: tokens) (tokenText token ++ text)
  | blank {tokens : List DebugToken} {text : Text} (rest : Writes tokens text) : Writes tokens (' ' :: text)

theorem Writes.append {tokens others : List DebugToken} {text further : Text} (first : Writes tokens text)
    (second : Writes others further) : Writes (tokens ++ others) (text ++ further) := by
  induction first with
  | nil => exact second
  | token token _ ih =>
    rw [List.cons_append, List.append_assoc]
    exact .token token ih
  | blank _ ih => exact .blank ih

theorem Writes.single (token : DebugToken) : Writes [token] (tokenText token) := by
  have written := Writes.token token .nil
  rwa [List.append_nil] at written

/-- The parts of a written type. Nothing stands right of the middle exactly if nothing is written there. -/
structure Written (type : DebugType) (result : TypeResult) : Prop where
  parts : ∃ name left right, Around type name left right ∧ Writes (.name name :: left) result.base ∧
    Writes right result.extent ∧ (right = [] ↔ result.extent = [])
  named : ∀ name, type = .name name → result = ⟨name, []⟩

def WrittenAs (type : DebugType) (text : Text) : Prop := ∃ tokens, Spells tokens type ∧ Writes tokens text

theorem Written.text {type : DebugType} {result : TypeResult} (written : Written type result) :
    WrittenAs type result.text := by
  obtain ⟨name, left, right, around, base, extent, -⟩ := written.parts
  exact ⟨.name name :: left ++ right, around.spells, base.append extent⟩

end Writing

section Lists

end Lists

section Lookup

variable (info : TypeInfo)

def LooksUp (typeIndex : TypeIndex) (type : DebugType) : Prop :=
  ∃ result, EndsIn (fun fuel => lookupType info fuel typeIndex) (.ok result) ∧ Written type result

variable {info} {typeIndex : TypeIndex}

theorem LooksUp.text {type : DebugType} (looksUp : LooksUp info typeIndex type) :
    ∃ text, EndsIn (fun fuel => TypeResult.text <$> lookupType info fuel typeIndex) (.ok text) ∧
      WrittenAs type text := by
  obtain ⟨result, ends, written⟩ := looksUp
  exact ⟨result.text, ends.bind_ok (EndsIn.const _), written.text⟩

end Lookup

section Signatures

variable (info : TypeInfo)

structure FunctionInfo where
  counter : Int
  nChildren : Int
  nIgnore : Int
  str : Text

def enumeratorCallback (fuel : Nat) (symbol : TypeIndex) (ctx : FunctionInfo) :
    Except Failure (Bool × FunctionInfo) := do
  let counted := { ctx with counter := ctx.counter + 1 }
  if ctx.counter ≥ ctx.nChildren then return (false, counted)
  let counted := { counted with nIgnore := ctx.nIgnore - 1 }
  if ctx.nIgnore > 0 then return (true, counted)
  let str := ctx.str ++ (← resolveType info fuel symbol)
  return (true, { counted with str := if counted.counter < ctx.nChildren then str ++ ", ".toList else str })

/-- `SymEnumSymbols` -/
def enumerate (fuel : Nat) : List TypeIndex → FunctionInfo → Except Failure FunctionInfo
  | [], ctx => return ctx
  | symbol :: rest, ctx => do
      let (goOn, ctx) ← enumeratorCallback info fuel symbol ctx
      if goOn then enumerate fuel rest ctx else return ctx

/-- `std::isspace`, of the characters that `\S` leaves out. -/
def isSpace (c : Char) : Bool := c.toNat = 32 || 9 ≤ c.toNat && c.toNat ≤ 13

/-- A blank after each comma that something follows. -/
def separateCommas : Text → Text
  | [] => []
  | c :: rest =>
      if c = ',' && rest.head?.any (!isSpace ·) then c :: ' ' :: separateCommas rest else c :: separateCommas rest

/-- The signature that `resolve_frame` gives a function, whose symbols are its parameters and then its variables. -/
def signature (fuel : Nat) (name : Text) (typeIndex : TypeIndex) (symbols : List TypeIndex) : Except Failure Text := do
  let nChildren := getInfoFailable (info.count typeIndex)
  let nIgnore := if (classParent info typeIndex).isSome then 1 else 0
  let ctx ← enumerate info fuel symbols ⟨0, nChildren.toInt32.toInt, nIgnore, []⟩
  return separateCommas (name ++ "(".toList ++ ctx.str ++ ")".toList)

variable {info}

/-- The symbols whose types a signature lists: as many as the function counts, without its object. -/
def parameters (info : TypeInfo) (typeIndex : TypeIndex) (count : UInt32) (symbols : List TypeIndex) : List TypeIndex :=
  (symbols.take count.toNat).drop (if (classParent info typeIndex).isSome then 1 else 0)

end Signatures

end Cpptrace.Symbols.Dbghelp
