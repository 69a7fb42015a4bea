import Cpptrace.Basic
import Cpptrace.Library.Numerals
import Cpptrace.Library.Command

/-! `base_file` with its two kinds, `file` and `memory_file_view`.

Offsets are computed as `std::uint64_t` and passed as `off_t`, which is signed. A
read is told where to put the bytes; to put more of them there than it has room
for is undefined, and so is to read a memory image beyond its end.
-/

set_option autoImplicit false

namespace Cpptrace.Utils

open Library Library.Outcome

/-- What ends a query without a value: an error `Result`, an exception of a container that gets no
memory, a read or write of a buffer beyond its end, or a string from beyond the end of its table. -/
inductive Failure where
  | internalError (what : String)
  | allocation
  | undefined
  | outsideTable
  deriving DecidableEq, Repr

def internalError (message : String) : Failure := .internalError ("Cpptrace internal error: " ++ message)

def IsInternalError (failure : Failure) : Prop := ∃ what, failure = .internalError what

theorem isInternalError_internalError (message : String) : IsInternalError (internalError message) := ⟨_, rfl⟩

inductive Medium where
  | disk
  | memory
  deriving DecidableEq, Repr

/-- A file as it is on the disk, or an image in memory. Neither reaches the end of the `off_t`. -/
structure BaseFile where
  medium : Medium
  objectPath : String
  data : Bytes
  small : data.length < 0x8000000000000000

namespace BaseFile

def path (file : BaseFile) : String :=
  match file.medium with
  | .disk => file.objectPath
  | .memory => "<memory file>"

def offT (offset : UInt64) : Int := offset.toBitVec.toInt

/-- `fread` takes what there is, and succeeds only with all of a size that is not zero. -/
def readDisk (file : BaseFile) (room size : Nat) (offset : UInt64) : Except Failure Bytes :=
  let position := offT offset
  if position < 0 then throw (internalError s!"fseek error in {file.path} at offset {position}")
  else
    let bytes := (file.data.drop offset.toNat).take size
    if room < bytes.length then throw .undefined
    else if size = 0 || bytes.length < size then
      throw (internalError s!"fread error in {file.path} at offset {position} for {size} bytes")
    else pure bytes

/-- The end of the read is compared as a `std::size_t`, which can wrap. -/
def readMemory (file : BaseFile) (room size : Nat) (offset : UInt64) : Except Failure Bytes :=
  let position := offT offset
  let length := file.data.length
  if position < 0 then throw (internalError s!"Illegal read in memory file {file.path}: offset {position}")
  else if length < (offset.toNat + size) % sizeModulus then
    throw (internalError
      s!"Illegal read in memory file {file.path}: offset = {position}, size = {size}, file size = {length}")
  else if room < size || length < offset.toNat + size then throw .undefined
  else pure ((file.data.drop offset.toNat).take size)

def readBytes (file : BaseFile) (room size : Nat) (offset : UInt64) : Except Failure Bytes :=
  match file.medium with
  | .disk => file.readDisk room size offset
  | .memory => file.readMemory room size offset

def read (file : BaseFile) (size : Nat) (offset : UInt64) : Except Failure Bytes := file.readBytes size size offset

variable {file : BaseFile} {room size : Nat} {offset : UInt64}

theorem offT_neg_iff (offset : UInt64) : offT offset < 0 ↔ 0x8000000000000000 ≤ offset.toNat := by
  have bound := offset.toNat_lt
  unfold offT
  rw [BitVec.toInt_eq_toNat_cond, UInt64.toNat_toBitVec]
  split <;> omega

theorem length_slice (data : Bytes) (start size : Nat) :
    ((data.drop start).take size).length = min size (data.length - start) := by
  rw [List.length_take, List.length_drop]

theorem readBytes_inside (fits : size ≤ room) (positive : 0 < size) (inside : offset.toNat + size ≤ file.data.length) :
    file.readBytes room size offset = .ok ((file.data.drop offset.toNat).take size) := by
  have small := file.small
  have slice := length_slice file.data offset.toNat size
  have nonnegative : ¬ offT offset < 0 := by
    rw [offT_neg_iff]
    omega
  unfold readBytes
  cases file.medium with
  | disk =>
    simp only [readDisk, if_neg nonnegative]
    rw [if_neg (by omega), if_neg (by simp; omega)]
    rfl
  | memory =>
    simp only [readMemory, if_neg nonnegative]
    rw [Nat.mod_eq_of_lt (by unfold sizeModulus; omega), if_neg (by omega), if_neg (by simp; omega)]
    rfl

/-- A read of bytes that are in two files of one kind goes wrong in both or in neither. -/
theorem readBytes_alike {other : BaseFile} (medium : file.medium = other.medium) (path : file.path = other.path)
    (fits : size ≤ room) (inside : offset.toNat + size ≤ file.data.length)
    (insideOther : offset.toNat + size ≤ other.data.length) :
    (∃ failure, file.readBytes room size offset = .error failure ∧ other.readBytes room size offset = .error failure) ∨
      file.readBytes room size offset = .ok ((file.data.drop offset.toNat).take size) ∧
        other.readBytes room size offset = .ok ((other.data.drop offset.toNat).take size) := by
  by_cases positive : 0 < size
  · exact .inr ⟨readBytes_inside fits positive inside, readBytes_inside fits positive insideOther⟩
  · obtain rfl : size = 0 := by omega
    have small := file.small
    have nonnegative : ¬ offT offset < 0 := by
      rw [offT_neg_iff]
      omega
    unfold readBytes
    rw [← medium]
    cases file.medium with
    | disk =>
      left
      simp only [readDisk, if_neg nonnegative, List.take_zero, List.length_nil, path]
      rw [if_neg (Nat.not_lt_zero room), if_pos (by simp)]
      exact ⟨_, rfl, rfl⟩
    | memory =>
      right
      have fewer : ¬ file.data.length < (offset.toNat + 0) % sizeModulus := by unfold sizeModulus; omega
      have fewerOther : ¬ other.data.length < (offset.toNat + 0) % sizeModulus := by unfold sizeModulus; omega
      simp only [readMemory, if_neg nonnegative, if_neg fewer, if_neg fewerOther]
      rw [if_neg (by simp; omega), if_neg (by simp; omega)]
      exact ⟨rfl, rfl⟩

/-- A read into a buffer that is large enough goes wrong only with an error. -/
theorem readBytes_failsOnly (fits : size ≤ room) (small : size < 0x8000000000000000) :
    FailsOnly IsInternalError (file.readBytes room size offset) := by
  have bound := offset.toNat_lt
  have slice := length_slice file.data offset.toNat size
  unfold readBytes
  cases file.medium with
  | disk =>
    unfold readDisk
    dsimp only
    split
    · exact failsOnly_error (isInternalError_internalError _)
    · rw [if_neg (by omega)]
      split
      · exact failsOnly_error (isInternalError_internalError _)
      · exact failsOnly_ok _ _
  | memory =>
    unfold readMemory
    dsimp only
    split
    · exact failsOnly_error (isInternalError_internalError _)
    next nonnegative =>
      rw [offT_neg_iff] at nonnegative
      split
      · exact failsOnly_error (isInternalError_internalError _)
      next within =>
        rw [Nat.mod_eq_of_lt (by unfold sizeModulus; omega)] at within
        rw [if_neg (by simp; omega)]
        exact failsOnly_ok _ _

/-- Whatever the buffer, a read goes wrong with an error or beyond an end. -/
theorem readBytes_failsOnly_either : FailsOnly (fun failure => IsInternalError failure ∨ failure = .undefined)
    (file.readBytes room size offset) := by
  have error (message : String) : FailsOnly (fun failure => IsInternalError failure ∨ failure = .undefined)
      (throw (internalError message) : Except Failure Bytes) :=
    failsOnly_error (.inl (isInternalError_internalError message))
  unfold readBytes
  cases file.medium with
  | disk =>
    unfold readDisk
    dsimp only
    split
    · exact error _
    · split
      · exact failsOnly_error (.inr rfl)
      · split
        · exact error _
        · exact failsOnly_ok _ _
  | memory =>
    unfold readMemory
    dsimp only
    split
    · exact error _
    · split
      · exact error _
      · split
        · exact failsOnly_error (.inr rfl)
        · exact failsOnly_ok _ _

end BaseFile

end Cpptrace.Utils
