import Cpptrace.Platform.MemoryMapping
import Mathlib.Order.Bounds.Basic
import Mathlib.Algebra.Order.Ring.Int

/-! `perform_typeinfo_surgery`: the vtable of a `type_info` is replaced by a copy.

The page that the pointer to the vtable lies on is made writable meanwhile. Its size
is an `int`, its address comes from a mask that is made from that size.
-/

set_option autoImplicit false

namespace Cpptrace.FromCurrent

open Library Platform

section Pages

structure ProtectCall where
  address : FramePtr
  length : UInt64
  protections : UInt32
  deriving DecidableEq, Repr

/-- What the operating system answers. An error comes with its text. -/
structure System where
  /-- What `sysconf` says, as an `int`. -/
  pageSize : Int32
  mmap : (length : UInt64) → Except Text FramePtr
  /-- No mapping is as large as half of all addresses. -/
  mmap_large : ∀ length, 0x8000000000000000 ≤ length → ∃ error, mmap length = .error error
  mprotect : ProtectCall → Except Text Unit
  maps : Maps

/-- The process as far as it matters here. Memory is read and written in whole pointers. -/
structure Process where
  memory : FramePtr → FramePtr
  regions : RegionCache
  calls : List ProtectCall

variable (system : System)

def memoryReadonly : UInt32 := protRead
def memoryReadwrite : UInt32 := protRead ||| protWrite

/-- An `int` as a `size_t` or `uintptr_t`. -/
def extended (value : Int32) : UInt64 := value.toInt64.toUInt64

def mprotectPage (page : FramePtr) (pageSize : Int32) (protections : UInt32) : Command Failure Process Unit := do
  let call : ProtectCall := ⟨page, extended pageSize, protections⟩
  modify fun process => { process with calls := process.calls ++ [call] }
  match system.mprotect call with
  | .ok () => return ()
  | .error error => throw (.internalError (Microfmt.format "mprotect call failed: {}".toList [.string error]).text)

def mprotectPageAndReturnOldProtections (page : FramePtr) (pageSize : Int32) (protections : UInt32) :
    Command Failure Process UInt32 := do
  let oldProtections ← onPart Process.regions (fun process regions => { process with regions := regions })
    (getPageProtections system.maps page)
  mprotectPage system page pageSize protections
  return oldProtections

def allocatePage (pageSize : Int32) : Command Failure Process FramePtr :=
  match system.mmap (extended pageSize) with
  | .ok page => return page
  | .error error => throw (.internalError (Microfmt.format "mmap call failed: {}".toList [.string error]).text)

end Pages

section Surgery

inductive StandardLibrary where
  | libstdcxx
  | libcxx
  | unrecognized
  deriving DecidableEq, Repr

/-- The number of pointers in the vtable of a `type_info`. -/
def StandardLibrary.vtableSize : StandardLibrary → Nat
  | libstdcxx => 11
  | libcxx => 10
  | unrecognized => 0

/-- `is_positive_power_of_two`, for unsigned values. -/
def isPositivePowerOfTwoUnsigned (value : UInt32) : Bool := value ≠ 0 && (value &&& (value - 1)) = 0

def isPositivePowerOfTwo (value : Int32) : Bool :=
  if value < 0 then false else isPositivePowerOfTwoUnsigned value.toUInt32

def pageAddr (pageSize : Int32) (address : FramePtr) : FramePtr := address &&& extended (~~~(pageSize - 1))

/-- The check that a pointer is within its page. The size is an `unsigned` here. -/
def crossesPage (pageSize : Int32) (address : FramePtr) : Bool :=
  pageSize.toUInt32.toUInt64 < address - pageAddr pageSize address + 8

variable (library : StandardLibrary) (system : System)

/-- The first check joins what should make it fail by an `and`, so that it never does. -/
def checkPageSize (pageSize : Int32) : Except Failure Unit := do
  if pageSize ≤ 0 && isPositivePowerOfTwo pageSize then
    throw (.internalError (Microfmt.format "getpagesize() is not a power of 2 greater than zero (was {})".toList
      [.int64 pageSize.toInt64]).text)
  if (extended pageSize).toNat < library.vtableSize * 8 then
    throw (.internalError (Microfmt.format "Page size isn't big enough for a vtable: Needed {}, got {}".toList
      [.uint64 (.ofNat (library.vtableSize * 8)), .int64 pageSize.toInt64]).text)

/-- `std::memcpy` for a number of pointers, and what stands elsewhere. -/
def copyPointers (source target : FramePtr) (count : Nat) (memory : FramePtr → FramePtr) (address : FramePtr) :
    FramePtr :=
  match (List.range count).find? fun i => target + 8 * .ofNat i = address with
  | some i => memory (source + 8 * .ofNat i)
  | none => memory address

def store (address value : FramePtr) (process : Process) : Process :=
  { process with memory := Function.update process.memory address value }

/-- The part that makes the new vtable, with `do_catch_function` in it. -/
def makeVtable (vtable doCatchFunction : FramePtr) : Command Failure Process FramePtr := do
  let newVtablePage ← allocatePage system system.pageSize
  if newVtablePage &&& (8 - 1) ≠ 0 then
    throw (.internalError (Microfmt.format "Bad allocation alignment: {}".toList [.uint64 newVtablePage]).text)
  modify fun process =>
    { process with memory := copyPointers vtable newVtablePage library.vtableSize process.memory }
  modify (store (newVtablePage + 8 * 6) doCatchFunction)
  mprotectPage system newVtablePage system.pageSize memoryReadonly
  return newVtablePage

/-- The part that lets a `type_info` point to the new vtable. -/
def redirect (info newVtable : FramePtr) : Command Failure Process Unit := do
  if crossesPage system.pageSize info then throw (.internalError "pointer crosses page boundaries".toList)
  let page := pageAddr system.pageSize info
  let oldProtections ← mprotectPageAndReturnOldProtections system page system.pageSize memoryReadwrite
  modify (store info (newVtable + 8 * 2))
  mprotectPage system page system.pageSize oldProtections

def performTypeinfoSurgery (info doCatchFunction : FramePtr) : Command Failure Process Unit :=
  if library.vtableSize = 0 then return ()
  else do
    let vtable := (← get).memory info - 8 * 2
    MonadExcept.ofExcept (checkPageSize library system.pageSize)
    let newVtable ← makeVtable library system vtable doCatchFunction
    redirect system info newVtable

end Surgery

section Masks

/-- The bits of an address below a page size. For a power of two they are the remainder. -/
def lowBits (pageSize : Int32) (address : FramePtr) : Nat := address.toNat &&& (pageSize.toInt.toNat - 1)

theorem toInt_of_extended (value : Int32) :
    value.toInt = if 2 * (extended value).toNat < 2 ^ 64 then ((extended value).toNat : Int)
      else (extended value).toNat - (2 ^ 64 : Nat) :=
  (Int32.toInt_toInt64 value).symm.trans (BitVec.toInt_eq_toNat_cond (extended value).toBitVec)

theorem toInt_of_unsigned (value : Int32) :
    value.toInt = if 2 * value.toUInt32.toNat < 2 ^ 32 then (value.toUInt32.toNat : Int)
      else value.toUInt32.toNat - (2 ^ 32 : Nat) :=
  BitVec.toInt_eq_toNat_cond value.toBitVec

theorem extended_toNat {value : Int32} (positive : 0 ≤ value.toInt) : (extended value).toNat = value.toInt.toNat := by
  have bits := toInt_of_extended value
  have small := (extended value).toNat_lt
  omega

theorem extended_negative {value : Int32} (negative : value.toInt < 0) : 0x8000000000000000 ≤ extended value := by
  have bits := toInt_of_extended value
  rw [UInt64.le_iff_toNat_le]
  show 0x8000000000000000 ≤ (extended value).toNat
  omega

theorem extended_not (value : Int32) : extended (~~~value) = ~~~ extended value := by
  apply UInt64.toBitVec_inj.mp
  exact BitVec.signExtend_not (by decide)

theorem toInt_pred {pageSize : Int32} (positive : 0 < pageSize.toInt) : (pageSize - 1).toInt = pageSize.toInt - 1 := by
  have below := pageSize.toInt_lt
  rw [Int32.toInt_sub]
  exact Int.bmod_eq_of_le (by change _ ≤ pageSize.toInt - 1; omega) (by change pageSize.toInt - 1 < _; omega)

theorem and_not_eq_sub (address low : UInt64) : address &&& ~~~low = address - (address &&& low) := by
  have apart : (address.toBitVec &&& ~~~low.toBitVec) &&& (address.toBitVec &&& low.toBitVec) = 0 := by
    ext i
    simp only [BitVec.getElem_and, BitVec.getElem_not]
    cases low.toBitVec[i] <;> simp
  have whole : (address.toBitVec &&& ~~~low.toBitVec) ||| (address.toBitVec &&& low.toBitVec) = address.toBitVec := by
    ext i
    simp only [BitVec.getElem_or, BitVec.getElem_and, BitVec.getElem_not]
    cases low.toBitVec[i] <;> simp
  have sum := BitVec.add_eq_or_of_and_eq_zero _ _ apart
  apply UInt64.toBitVec_inj.mp
  exact BitVec.eq_sub_iff_add_eq.mpr (sum.trans whole)

theorem lowBits_le (pageSize : Int32) (address : FramePtr) : lowBits pageSize address ≤ address.toNat := Nat.and_le_left

theorem pageAddr_toNat {pageSize : Int32} (positive : 0 < pageSize.toInt) (address : FramePtr) :
    (pageAddr pageSize address).toNat = address.toNat - lowBits pageSize address := by
  have pred := toInt_pred positive
  have mask : (extended (pageSize - 1)).toNat = pageSize.toInt.toNat - 1 := by
    rw [extended_toNat (by omega)]
    omega
  have low : (address &&& extended (pageSize - 1)).toNat = lowBits pageSize address := by
    rw [UInt64.toNat_and, mask, lowBits]
  rw [pageAddr, extended_not, and_not_eq_sub, UInt64.toNat_sub_of_le, low]
  rw [UInt64.le_iff_toNat_le, low]
  exact lowBits_le pageSize address

theorem crossesPage_iff {pageSize : Int32} (positive : 0 < pageSize.toInt) (address : FramePtr) :
    crossesPage pageSize address = true ↔ pageSize.toInt < lowBits pageSize address + 8 := by
  have below := pageSize.toInt_lt
  have low : lowBits pageSize address ≤ pageSize.toInt.toNat - 1 := Nat.and_le_right
  have within := lowBits_le pageSize address
  have page := pageAddr_toNat positive address
  -- neither the difference nor the sum wraps, since the low bits are fewer than an `int` can count
  have offset : (address - pageAddr pageSize address).toNat = lowBits pageSize address := by
    rw [UInt64.toNat_sub_of_le _ _ (by rw [UInt64.le_iff_toNat_le]; omega), page]
    omega
  have reach : (address - pageAddr pageSize address + 8).toNat = lowBits pageSize address + 8 := by
    rw [UInt64.toNat_add, offset]
    exact Nat.mod_eq_of_lt (by change _ + 8 < _; omega)
  have size : pageSize.toUInt32.toUInt64.toNat = pageSize.toInt.toNat := by
    have bits := toInt_of_unsigned pageSize
    have small := pageSize.toUInt32.toNat_lt
    rw [UInt32.toNat_toUInt64]
    omega
  rw [crossesPage, decide_eq_true_iff, UInt64.lt_iff_toNat_lt, reach, size]
  omega

theorem isPositivePowerOfTwoUnsigned_iff (value : UInt32) :
    isPositivePowerOfTwoUnsigned value = true ↔ value.toNat.isPowerOfTwo := by
  rw [← Nat.ne_zero_and_sub_one_eq_zero_iff_isPowerOfTwo, isPositivePowerOfTwoUnsigned, Bool.and_eq_true,
    decide_eq_true_iff, decide_eq_true_iff, ne_eq, ← UInt32.toNat_inj, UInt32.toNat_zero]
  refine and_congr_right fun nonzero => ?_
  have one : (1 : UInt32) ≤ value := by
    rw [UInt32.le_iff_toNat_le]
    exact Nat.pos_of_ne_zero nonzero
  have pred : (value - 1).toNat = value.toNat - 1 := UInt32.toNat_sub_of_le _ _ one
  rw [← UInt32.toNat_inj, UInt32.toNat_and, pred, UInt32.toNat_zero]

theorem isPositivePowerOfTwo_iff (pageSize : Int32) :
    isPositivePowerOfTwo pageSize = true ↔ ∃ exponent : Nat, pageSize.toInt = 2 ^ exponent := by
  have bits := toInt_of_unsigned pageSize
  have small := pageSize.toUInt32.toNat_lt
  rw [isPositivePowerOfTwo]
  split
  next negative =>
    rw [Int32.lt_iff_toInt_lt, Int32.toInt_zero] at negative
    refine ⟨nofun, ?_⟩
    rintro ⟨exponent, size⟩
    have positive : (0 : Int) < 2 ^ exponent := pow_pos (by decide) exponent
    omega
  next nonnegative =>
    rw [Int32.lt_iff_toInt_lt, Int32.toInt_zero] at nonnegative
    have natural : pageSize.toInt = pageSize.toUInt32.toNat := by omega
    have power : (∃ exponent : Nat, pageSize.toInt = 2 ^ exponent) ↔ pageSize.toUInt32.toNat.isPowerOfTwo := by
      rw [natural, Nat.isPowerOfTwo]
      exact exists_congr fun exponent => by exact_mod_cast Iff.rfl
    rw [power, isPositivePowerOfTwoUnsigned_iff]

structure RightPage (pageSize : Int32) (address page : FramePtr) : Prop where
  power : ∃ exponent : Nat, pageSize.toInt = 2 ^ exponent
  largest : IsGreatest {multiple : Nat | pageSize.toInt.toNat ∣ multiple ∧ multiple ≤ address.toNat} page.toNat
  within : address.toNat + 8 ≤ page.toNat + pageSize.toInt.toNat

theorem isGreatest_sub_mod (size value : Nat) :
    IsGreatest {multiple : Nat | size ∣ multiple ∧ multiple ≤ value} (value - value % size) := by
  refine ⟨⟨Nat.dvd_sub_mod value, Nat.sub_le ..⟩, ?_⟩
  rintro multiple ⟨divides, below⟩
  obtain ⟨count, rfl⟩ := divides
  have whole := Nat.div_add_mod value size
  have most : size * count ≤ size * (value / size) := by
    rcases Nat.eq_zero_or_pos size with rfl | positive
    · simp
    · exact Nat.mul_le_mul_left size ((Nat.le_div_iff_mul_le positive).mpr (by rwa [Nat.mul_comm]))
  omega

theorem rightPage {pageSize : Int32} {address : FramePtr} (power : ∃ exponent : Nat, pageSize.toInt = 2 ^ exponent)
    (stays : crossesPage pageSize address = false) : RightPage pageSize address (pageAddr pageSize address) := by
  obtain ⟨exponent, size⟩ := power
  have positive : 0 < pageSize.toInt := size ▸ pow_pos (by decide) exponent
  have natural : pageSize.toInt.toNat = 2 ^ exponent := by
    rw [size]
    exact Int.toNat_natCast (2 ^ exponent)
  have low : lowBits pageSize address = address.toNat % pageSize.toInt.toNat := by
    rw [lowBits, natural, Nat.and_two_pow_sub_one_eq_mod]
  have page := pageAddr_toNat positive address
  have within := lowBits_le pageSize address
  have uncrossed : ¬ pageSize.toInt < lowBits pageSize address + 8 := by
    rw [← crossesPage_iff positive, stays]
    exact Bool.false_ne_true
  refine ⟨⟨exponent, size⟩, ?_, by omega⟩
  rw [page, low]
  exact isGreatest_sub_mod _ _

end Masks

section Runs

variable {α β : Type}

/-- The calls of `mprotect` that a command adds, whether it fails or not. -/
def Adds (allowed : ProtectCall → Prop) (command : Command Failure Process α) : Prop :=
  ∀ process, ∃ more, (command process).2.calls = process.calls ++ more ∧ ∀ call ∈ more, allowed call

namespace Adds

variable {allowed : ProtectCall → Prop}

theorem pure (value : α) : Adds allowed (Pure.pure value : Command Failure Process α) :=
  fun _ => ⟨[], (List.append_nil _).symm, nofun⟩

theorem throw (failure : Failure) : Adds allowed (MonadExcept.throw failure : Command Failure Process α) :=
  fun _ => ⟨[], (List.append_nil _).symm, nofun⟩

theorem changes {change : Process → Process} (kept : ∀ process, (change process).calls = process.calls) :
    Adds allowed (modify change : Command Failure Process Unit) :=
  fun process => ⟨[], by rw [List.append_nil]; exact kept process, nofun⟩

theorem ofExcept (outcome : Except Failure α) :
    Adds allowed (MonadExcept.ofExcept outcome : Command Failure Process α) := by
  cases outcome with
  | ok value => exact pure value
  | error failure => exact throw failure

theorem ite {condition : Prop} [Decidable condition] {command other : Command Failure Process α}
    (first : condition → Adds allowed command) (second : ¬ condition → Adds allowed other) :
    Adds allowed (if condition then command else other) := by
  split
  next holds => exact first holds
  next fails => exact second fails

theorem bind {command : Command Failure Process α} {next : α → Command Failure Process β} (first : Adds allowed command)
    (second : ∀ value process, (command process).1 = .ok value → Adds allowed (next value)) :
    Adds allowed (command >>= next) := by
  intro process
  obtain ⟨more, added, each⟩ := first process
  rw [Command.bind_apply]
  cases outcome : (command process).1 with
  | error failure => exact ⟨more, added, each⟩
  | ok value =>
    obtain ⟨further, after, others⟩ := second value process outcome (command process).2
    refine ⟨more ++ further, ?_, fun call member => (List.mem_append.mp member).elim (each call) (others call)⟩
    rw [← List.append_assoc, ← added]
    exact after

end Adds

variable (library : StandardLibrary) (system : System) {allowed : ProtectCall → Prop}

theorem mprotectPage_adds {page : FramePtr} {pageSize : Int32} {protections : UInt32}
    (allows : allowed ⟨page, extended pageSize, protections⟩) :
    Adds allowed (mprotectPage system page pageSize protections) := by
  intro process
  refine ⟨[⟨page, extended pageSize, protections⟩], ?_, fun call member => List.mem_singleton.mp member ▸ allows⟩
  simp only [mprotectPage, Command.bind_apply, Command.modify_apply]
  cases system.mprotect ⟨page, extended pageSize, protections⟩ <;> rfl

theorem getPageProtections_adds (page : FramePtr) :
    Adds allowed (onPart Process.regions (fun process regions => { process with regions := regions })
      (getPageProtections system.maps page)) :=
  fun _ => ⟨[], (List.append_nil _).symm, nofun⟩

theorem allocatePage_adds (pageSize : Int32) : Adds allowed (allocatePage system pageSize) := by
  unfold allocatePage
  split
  · exact .pure _
  · exact .throw _

theorem makeVtable_adds (vtable doCatchFunction : FramePtr)
    (allows : ∀ page, allowed ⟨page, extended system.pageSize, memoryReadonly⟩) :
    Adds allowed (makeVtable library system vtable doCatchFunction) := by
  refine (allocatePage_adds system system.pageSize).bind fun page _ _ => ?_
  have readonly := (mprotectPage_adds system (allows page)).bind fun _ _ _ => Adds.pure page
  refine .ite (fun _ => (Adds.throw _).bind nofun) fun _ => ?_
  exact Adds.bind (.changes fun _ => rfl) fun _ _ _ => Adds.bind (.changes fun _ => rfl) fun _ _ _ => readonly

theorem redirect_adds (info newVtable : FramePtr)
    (allows : crossesPage system.pageSize info = false →
      ∀ protections, allowed ⟨pageAddr system.pageSize info, extended system.pageSize, protections⟩) :
    Adds allowed (redirect system info newVtable) := by
  refine .ite (fun _ => (Adds.throw _).bind nofun) fun stays => ?_
  have allowed := allows (Bool.eq_false_iff.mpr stays)
  have changed := (getPageProtections_adds system (pageAddr system.pageSize info)).bind fun old _ _ =>
    (mprotectPage_adds system (allowed memoryReadwrite)).bind fun _ _ _ => Adds.pure old
  exact changed.bind fun old _ _ => Adds.bind (.changes fun _ => rfl) fun _ _ _ =>
    mprotectPage_adds system (allowed old)

theorem makeVtable_positive {vtable doCatchFunction page : FramePtr} {process : Process}
    (made : (makeVtable library system vtable doCatchFunction process).1 = .ok page) : 0 ≤ system.pageSize.toInt := by
  by_contra negative
  obtain ⟨error, fails⟩ := system.mmap_large _ (extended_negative (Int.not_le.mp negative))
  obtain ⟨failure, stopped⟩ : ∃ failure, (allocatePage system system.pageSize process).1 = .error failure := by
    rw [allocatePage, fails]
    exact ⟨_, rfl⟩
  rw [makeVtable, Command.bind_apply, stopped] at made
  cases made

theorem le_of_checkPageSize {pageSize : Int32} (checked : checkPageSize library pageSize = .ok ()) :
    library.vtableSize * 8 ≤ (extended pageSize).toNat := by
  by_contra small
  simp only [checkPageSize] at checked
  split at checked
  · cases checked
  · rw [if_pos (Nat.not_le.mp small)] at checked
    cases checked

def Justified (info : FramePtr) (call : ProtectCall) : Prop :=
  call.protections = memoryReadonly ∨
    call.address = pageAddr system.pageSize info ∧ crossesPage system.pageSize info = false ∧
      library.vtableSize ≠ 0 ∧ (library.vtableSize * 8 : Nat) ≤ system.pageSize.toInt

theorem performTypeinfoSurgery_adds (info doCatchFunction : FramePtr) :
    Adds (Justified library system info) (performTypeinfoSurgery library system info doCatchFunction) := by
  refine .ite (fun _ => .pure _) fun nonempty => ?_
  refine Adds.bind (fun _ => ⟨[], (List.append_nil _).symm, nofun⟩) fun process _ _ => ?_
  -- a size that passes the checks is large as a `size_t`, and one that can be allocated is not negative
  refine (Adds.ofExcept _).bind fun _ first checked => ?_
  have large : library.vtableSize * 8 ≤ (extended system.pageSize).toNat := by
    rw [Command.ofExcept_apply] at checked
    exact le_of_checkPageSize library checked
  refine (makeVtable_adds library system _ _ fun _ => .inl rfl).bind fun newVtable second made => ?_
  have positive := makeVtable_positive library system made
  rw [extended_toNat positive] at large
  exact redirect_adds system info newVtable fun stays _ => .inr ⟨rfl, stays, nonempty, by omega⟩

end Runs

section Reaching

def granting (pageSize : Int32) : System where
  pageSize := pageSize
  mmap length := if 0x8000000000000000 ≤ length then .error [] else .ok 0x10000
  mmap_large _ large := ⟨[], if_pos large⟩
  mprotect _ := .ok ()
  maps _ := none

def mapped : Process := ⟨fun _ => 0, ⟨[⟨0, 0xFFFFFFFFFFFFFFFF, memoryReadonly⟩], true⟩, []⟩

theorem getPageProtections_mapped (maps : Maps) (page : FramePtr) :
    getPageProtections maps page mapped.regions = (.ok memoryReadonly, mapped.regions) := by
  have found : firstLessThanOrEqual AddressRange.low page mapped.regions.regions =
      some ⟨0, 0xFFFFFFFFFFFFFFFF, memoryReadonly⟩ := by
    have low : (0 : FramePtr) ≤ page := UInt64.zero_le
    simp [firstLessThanOrEqual, mapped, low]
  have loaded : loadMappedRegionInfo maps mapped.regions = (.ok mapped.regions.regions, mapped.regions) := rfl
  simp only [getPageProtections, Command.bind_apply, loaded, found, Command.pure_apply]

variable (library : StandardLibrary) {pageSize : Int32}

theorem mprotectPage_granting (page : FramePtr) (protections : UInt32) (process : Process) :
    mprotectPage (granting pageSize) page pageSize protections process =
      (.ok (), { process with calls := process.calls ++ [⟨page, extended pageSize, protections⟩] }) := rfl

theorem exchange_granting (page : FramePtr) (protections : UInt32) {process : Process}
    (known : process.regions = mapped.regions) :
    mprotectPageAndReturnOldProtections (granting pageSize) page pageSize protections process =
      (.ok memoryReadonly, { process with calls := process.calls ++ [⟨page, extended pageSize, protections⟩] }) := by
  have old : onPart Process.regions (fun process regions => { process with regions := regions })
      (getPageProtections (granting pageSize).maps page) process = (.ok memoryReadonly, process) := by
    rw [onPart, known, getPageProtections_mapped, ← known]
  simp only [mprotectPageAndReturnOldProtections, Command.bind_apply, old, mprotectPage_granting, Command.pure_apply]

theorem redirect_granting {info newVtable : FramePtr} {process : Process} (known : process.regions = mapped.regions)
    (stays : crossesPage pageSize info = false) :
    ⟨pageAddr pageSize info, extended pageSize, memoryReadwrite⟩ ∈
      (redirect (granting pageSize) info newVtable process).2.calls := by
  have size : (granting pageSize).pageSize = pageSize := rfl
  rw [redirect]
  simp only [size, stays, Bool.false_eq_true, if_false, Command.bind_apply, exchange_granting _ _ known,
    Command.modify_apply, mprotectPage_granting, store]
  simp

theorem makeVtable_granting (vtable doCatchFunction : FramePtr) (process : Process) (positive : 0 ≤ pageSize.toInt) :
    (makeVtable library (granting pageSize) vtable doCatchFunction process).1 = .ok 0x10000 ∧
      (makeVtable library (granting pageSize) vtable doCatchFunction process).2.regions = process.regions := by
  have size : (granting pageSize).pageSize = pageSize := rfl
  have below := pageSize.toInt_lt
  have small : ¬ 0x8000000000000000 ≤ extended pageSize := by
    rw [UInt64.le_iff_toNat_le, extended_toNat positive]
    change ¬ 0x8000000000000000 ≤ pageSize.toInt.toNat
    omega
  have allocated : allocatePage (granting pageSize) pageSize process = (.ok 0x10000, process) := by
    simp only [allocatePage, granting, if_neg small, Command.pure_apply]
  have aligned : ¬ (0x10000 : FramePtr) &&& (8 - 1) ≠ 0 := by decide
  simp only [makeVtable, size, Command.bind_apply, allocated, if_neg aligned, Command.modify_apply,
    mprotectPage_granting, Command.pure_apply, store]
  trivial

theorem performTypeinfoSurgery_granting {info : FramePtr} (doCatchFunction : FramePtr)
    (nonempty : library.vtableSize ≠ 0)
    (large : (library.vtableSize * 8 : Nat) ≤ pageSize.toInt) (stays : crossesPage pageSize info = false) :
    ⟨pageAddr pageSize info, extended pageSize, memoryReadwrite⟩ ∈
      (performTypeinfoSurgery library (granting pageSize) info doCatchFunction mapped).2.calls := by
  have size : (granting pageSize).pageSize = pageSize := rfl
  have positive : 0 < pageSize.toInt := by omega
  have nonnegative : ¬ pageSize ≤ 0 := by
    rw [Int32.le_iff_toInt_le, Int32.toInt_zero]
    omega
  have checked : checkPageSize library pageSize = .ok () := by
    have enough : ¬ (extended pageSize).toNat < library.vtableSize * 8 := by
      rw [extended_toNat (by omega)]
      omega
    simp only [checkPageSize, nonnegative, decide_false, Bool.false_and, Bool.false_eq_true, if_false, if_neg enough]
    rfl
  obtain ⟨made, kept⟩ := makeVtable_granting library (mapped.memory info - 8 * 2) doCatchFunction mapped positive.le
  simp only [performTypeinfoSurgery, if_neg nonempty, Command.bind_apply, Command.get_apply, size, checked,
    Command.ofExcept_apply, made]
  exact redirect_granting kept stays

end Reaching

/-- In each run, what is made writable is the page that the pointer to the vtable lies on. -/
def RightPageOnly (library : StandardLibrary) (pageSize : Int32) (info : FramePtr) : Prop :=
  ∀ (system : System) doCatchFunction process, system.pageSize = pageSize → process.calls = [] →
    ∀ call ∈ (performTypeinfoSurgery library system info doCatchFunction process).2.calls,
      call.protections = memoryReadwrite → RightPage pageSize info call.address

/-- The page is the right one for a size that is a power of two, and where a later check fails. -/
theorem rightPageOnly_iff (library : StandardLibrary) (pageSize : Int32) (info : FramePtr) :
    RightPageOnly library pageSize info ↔
      isPositivePowerOfTwo pageSize = true ∨ library.vtableSize = 0 ∨
        pageSize.toInt < (library.vtableSize * 8 : Nat) ∨ pageSize.toInt < lowBits pageSize info + 8 := by
  rw [isPositivePowerOfTwo_iff]
  constructor
  · intro right
    by_contra neither
    simp only [not_or] at neither
    -- no check is in the way, so that some system lets the call happen
    obtain ⟨other, nonempty, large, within⟩ := neither
    have stays : crossesPage pageSize info = false := by
      rw [← Bool.not_eq_true, crossesPage_iff (by omega)]
      exact within
    have reached := performTypeinfoSurgery_granting library 0 nonempty (Int.not_lt.mp large) stays
    exact other (right (granting pageSize) 0 mapped rfl rfl _ reached rfl).power
  · rintro condition system doCatchFunction process rfl fresh call member writable
    obtain ⟨more, added, each⟩ := performTypeinfoSurgery_adds library system info doCatchFunction process
    rw [fresh, List.nil_append] at added
    rw [added] at member
    rcases each call member with readonly | ⟨page, stays, nonempty, large⟩
    · exact absurd (readonly.symm.trans writable) (by decide)
    · rw [page]
      refine rightPage ?_ stays
      have within : ¬ system.pageSize.toInt < lowBits system.pageSize info + 8 := by
        rw [← crossesPage_iff (by omega), stays]
        exact Bool.false_ne_true
      exact condition.resolve_right (by omega)

/-- With a page size of 12288 the page at 0x5000 is made writable, which is at no multiple of it. -/
theorem surgery_wrong_page :
    ⟨0x5000, 12288, memoryReadwrite⟩ ∈
        (performTypeinfoSurgery .libstdcxx (granting 12288) 0x5000 0 mapped).2.calls ∧
      ¬ 12288 ∣ (0x5000 : FramePtr).toNat ∧ ¬ RightPageOnly .libstdcxx 12288 0x5000 := by
  have stays : crossesPage 12288 0x5000 = false := by decide
  have reached := performTypeinfoSurgery_granting .libstdcxx 0 (by decide) (by decide) stays
  refine ⟨reached, by decide, fun right => ?_⟩
  -- 0x5000 is 0x3000 and 0x2000 more
  have multiple := (right (granting 12288) 0 mapped rfl rfl _ reached rfl).largest.1.1
  exact absurd multiple (by decide)

end Cpptrace.FromCurrent
