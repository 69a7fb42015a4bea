import Mathlib.Order.Defs.LinearOrder

/-! Values that every stage of a trace shares: text, addresses and frames.

Fixed-width integers are `UInt64` and `UInt32`; sizes are natural numbers, with
the width written out where the code can wrap.
-/

set_option autoImplicit false

namespace Cpptrace

/-- A `std::string` or `string_view`: one `Char` for each `char`. -/
abbrev Text := List Char

/-- `frame_ptr`, a 64-bit `std::uintptr_t`. -/
abbrev FramePtr := UInt64

instance instLinearOrderUInt64 : LinearOrder UInt64 where
  le_refl _ := UInt64.le_refl _
  le_trans _ _ _ := UInt64.le_trans
  le_antisymm _ _ := UInt64.le_antisymm
  le_total := UInt64.le_total
  lt_iff_le_not_ge _ _ := ⟨fun below => ⟨UInt64.le_of_lt below, UInt64.not_le.mpr below⟩,
    fun below => UInt64.not_le.mp below.2⟩
  toDecidableLE := inferInstance
  toDecidableLT := inferInstance
  toDecidableEq := inferInstance

def sizeModulus : Nat := 0x10000000000000000

inductive AssertType where
  | assert
  | verify
  | panic
  deriving DecidableEq, Repr

/-- What the modelled code throws. `internalError` is a failed `ASSERT`, `VERIFY`
or `PANIC`; its text also holds the source location, which nothing reads. -/
inductive Exception where
  | internalError (type : AssertType) (expression : String) (message : Option String)
  | lengthError
  deriving DecidableEq, Repr

/-- `assert_impl`, for a build without `NDEBUG`. -/
def assertImpl (condition : Bool) (type : AssertType) (expression : String)
    (message : Option String) : Except Exception Unit :=
  if condition then pure () else throw (.internalError type expression message)

/-- `nullable<std::uint32_t>`: the largest value of the type stands for null. -/
structure Nullable where
  rawValue : UInt32
  deriving DecidableEq, Repr

namespace Nullable

def nullValue : UInt32 := 0xFFFFFFFF

def null : Nullable := ⟨nullValue⟩

def hasValue (value : Nullable) : Bool := value.rawValue != nullValue

end Nullable

structure ObjectFrame where
  rawAddress : FramePtr
  objectAddress : FramePtr
  objectPath : Text
  deriving DecidableEq, Repr

structure StacktraceFrame where
  rawAddress : FramePtr
  objectAddress : FramePtr
  line : Nullable
  column : Nullable
  filename : Text
  symbol : Text
  isInline : Bool
  deriving DecidableEq, Repr

/-- `stacktrace_frame::operator==`, which does not look at `is_inline`. -/
def StacktraceFrame.equals (frame other : StacktraceFrame) : Bool :=
  frame.rawAddress == other.rawAddress
    && frame.objectAddress == other.objectAddress
    && frame.line == other.line
    && frame.column == other.column
    && frame.filename == other.filename
    && frame.symbol == other.symbol

def nullFrame : StacktraceFrame :=
  ⟨0, 0, .null, .null, [], [], false⟩

structure FrameWithInlines where
  frame : StacktraceFrame
  inlines : List StacktraceFrame
  deriving DecidableEq, Repr

end Cpptrace
