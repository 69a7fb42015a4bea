import Cpptrace.Basic

/-! `get_safe_object_frame` and `get_frame_object_info`, where there is `_dl_find_object`.

The first writes into an array that the caller owns, for use in a signal handler; the
second works with strings. Both ask the loader once and `readlink` at most once, and get
the same answers.
-/

set_option autoImplicit false

namespace Cpptrace.Binary

def pathMax : Nat := 4096

section Strings

structure CharArray (n : Nat) where
  chars : Text
  size : chars.length = n
  deriving DecidableEq, Repr

/-- What a `char` pointer that is not null points to, up to the NUL. -/
structure CString where
  text : Text
  noNul : '\x00' ∉ text

/-- The `std::string` from a pointer into a text. Without a NUL it is read beyond the end. -/
def stringOf (chars : Text) : Option Text :=
  if '\x00' ∈ chars then some (chars.takeWhile (· ≠ '\x00')) else none

namespace CharArray

variable {n : Nat}

def memcpy (array : CharArray n) (bytes : Text) (fits : bytes.length ≤ n) : CharArray n where
  chars := bytes ++ array.chars.drop bytes.length
  size := by rw [List.length_append, List.length_drop, array.size]; omega

def zero (n : Nat) : CharArray n := ⟨List.replicate n '\x00', List.length_replicate⟩

def setFirst (array : CharArray n) (c : Char) : CharArray n where
  chars := array.chars.set 0 c
  size := by rw [List.length_set, array.size]

end CharArray

end Strings

structure SafeObjectFrame where
  rawAddress : FramePtr
  addressRelativeToObjectStart : FramePtr
  objectPath : CharArray (pathMax + 1)
  deriving DecidableEq, Repr

structure LinkMap where
  lAddr : FramePtr
  lName : Option CString

/-- A link target for which there is room in a buffer. -/
structure LinkTarget extends CString where
  short : text.length < pathMax

structure Process where
  dlFindObject : FramePtr → Option LinkMap
  exe : Option LinkTarget

section Frames

variable (process : Process)

/-- `l_name != nullptr && l_name[0] != 0`. -/
def namedBy (linkMap : LinkMap) : Option CString := linkMap.lName.filter fun name => name.text ≠ []

/-- `readlink("/proc/self/exe", ..)`, which writes no NUL and nothing where it fails. -/
def readlink (buffer : CharArray (pathMax + 1)) : CharArray (pathMax + 1) :=
  match process.exe with
  | none => buffer
  | some target => buffer.memcpy (target.text.take pathMax) (by rw [List.length_take]; omega)

def getSafeObjectFrame (address : FramePtr) (out : SafeObjectFrame) : SafeObjectFrame :=
  match process.dlFindObject address with
  | none => ⟨address, 0, out.objectPath.setFirst '\x00'⟩
  | some linkMap =>
      let objectPath :=
        match namedBy linkMap with
        | some name =>
            -- name and NUL are cut to the size of the array, whichever of them comes last
            let pathLength := name.text.length
            out.objectPath.memcpy ((name.text ++ ['\x00']).take (min (pathLength + 1) (pathMax + 1)))
              (by rw [List.length_take]; omega)
        | none => readlink process (.zero (pathMax + 1))
      ⟨address, address - linkMap.lAddr, objectPath⟩

/-- `resolve_l_name`. There is a NUL in the buffer, as no more than `pathMax` characters are read. -/
def resolveLName (linkMap : LinkMap) : Text :=
  match namedBy linkMap with
  | some name => name.text
  | none =>
      match process.exe with
      | none => []
      | some _ => (stringOf (readlink process (.zero (pathMax + 1))).chars).getD []

def getFrameObjectInfo (address : FramePtr) : ObjectFrame :=
  match process.dlFindObject address with
  | none => ⟨address, 0, []⟩
  | some linkMap => ⟨address, address - linkMap.lAddr, resolveLName process linkMap⟩

/-- `resolve_safe_object_frame`; no result where the path has no end. -/
def resolveSafeObjectFrame (frame : SafeObjectFrame) : Option ObjectFrame := do
  let objectPath ← stringOf frame.objectPath.chars
  if objectPath.isEmpty then return ⟨frame.rawAddress, 0, []⟩
  else return ⟨frame.rawAddress, frame.addressRelativeToObjectStart, objectPath⟩

end Frames

section Agreement

/-- The same frame, with paths compared as far as an array keeps them. -/
def SameFrame (frame other : ObjectFrame) : Prop :=
  frame.rawAddress = other.rawAddress ∧ frame.objectAddress = other.objectAddress ∧
    frame.objectPath.take pathMax = other.objectPath.take pathMax

/-- The safe frame has a path with an end, and resolves to the ordinary frame. -/
def AgreesAt (process : Process) (address : FramePtr) (out : SafeObjectFrame) : Prop :=
  '\x00' ∈ (getSafeObjectFrame process address out).objectPath.chars ∧
    ∃ frame, resolveSafeObjectFrame (getSafeObjectFrame process address out) = some frame ∧
      SameFrame frame (getFrameObjectInfo process address)

/-- A name of an object has to fit into the array. The executable has to have a path, since a frame
without one resolves to no object, or else to be loaded where the address is. -/
def Representable (process : Process) (address : FramePtr) : Prop :=
  match process.dlFindObject address with
  | none => True
  | some linkMap =>
      match namedBy linkMap with
      | some name => name.text.length ≤ pathMax
      | none => (∃ target, process.exe = some target ∧ target.text ≠ []) ∨ address = linkMap.lAddr

theorem stringOf_append (text rest : Text) (noNul : '\x00' ∉ text) : stringOf (text ++ '\x00' :: rest) = some text := by
  have ended : (text ++ '\x00' :: rest).takeWhile (· ≠ '\x00') = text := by
    rw [List.takeWhile_append_of_pos]
    · simp
    · intro c member
      simpa using fun same : c = '\x00' => noNul (same ▸ member)
  rw [stringOf, if_pos (by simp), ended]

theorem readlink_zero_none {process : Process} (unknown : process.exe = none) :
    (readlink process (.zero (pathMax + 1))).chars = [] ++ '\x00' :: List.replicate pathMax '\x00' := by
  rw [readlink, unknown]
  rfl

/-- The zeros behind a path that is shorter than the buffer end it. -/
theorem readlink_zero_some {process : Process} {target : LinkTarget} (known : process.exe = some target) :
    (readlink process (.zero (pathMax + 1))).chars =
      target.text ++ '\x00' :: List.replicate (pathMax - target.text.length) '\x00' := by
  have whole : target.text.take pathMax = target.text := List.take_of_length_le (Nat.le_of_lt target.short)
  have zeros : pathMax + 1 - target.text.length = pathMax - target.text.length + 1 := by have := target.short; omega
  simp only [readlink, known, CharArray.memcpy, CharArray.zero, whole]
  rw [List.drop_replicate, zeros, List.replicate_succ]

section Found

variable {process : Process} {address : FramePtr} {linkMap : LinkMap} (out : SafeObjectFrame)

theorem objectAddress_eq_zero_iff (address base : FramePtr) : 0 = address - base ↔ address = base := by
  refine ⟨fun none => ?_, fun same => ?_⟩
  · have whole := UInt64.sub_add_cancel address base
    rw [← none, UInt64.zero_add] at whole
    exact whole.symm
  · rw [same, UInt64.sub_self]

/-- A path that the array keeps with its end, and that the ordinary frame has too. -/
theorem agreesAt_iff_of_path {path rest : Text} (found : process.dlFindObject address = some linkMap)
    (kept : (getSafeObjectFrame process address out).objectPath.chars = path ++ '\x00' :: rest)
    (noNul : '\x00' ∉ path) (resolved : resolveLName process linkMap = path) :
    AgreesAt process address out ↔ path ≠ [] ∨ address = linkMap.lAddr := by
  have ended : '\x00' ∈ (getSafeObjectFrame process address out).objectPath.chars := by
    rw [kept]
    simp
  have addresses : (getSafeObjectFrame process address out).rawAddress = address ∧
      (getSafeObjectFrame process address out).addressRelativeToObjectStart = address - linkMap.lAddr := by
    rw [getSafeObjectFrame, found]
    exact ⟨rfl, rfl⟩
  have ordinary : getFrameObjectInfo process address = ⟨address, address - linkMap.lAddr, path⟩ := by
    simp only [getFrameObjectInfo, found, resolved]
  rw [AgreesAt, and_iff_right ended, resolveSafeObjectFrame, kept, stringOf_append path rest noNul, ordinary,
    addresses.1, addresses.2]
  -- a frame without a path resolves to the object address 0, whatever address it holds
  cases path with
  | nil => simp [SameFrame, objectAddress_eq_zero_iff]
  | cons c path => simp [SameFrame]

theorem namedBy_some {name : CString} (named : namedBy linkMap = some name) : name.text ≠ [] := by
  simpa using (Option.filter_eq_some_iff.mp named).2

theorem agreesAt_of_fits {name : CString} (found : process.dlFindObject address = some linkMap)
    (named : namedBy linkMap = some name) (fits : name.text.length ≤ pathMax) : AgreesAt process address out := by
  have whole : (name.text ++ ['\x00']).take (min (name.text.length + 1) (pathMax + 1)) = name.text ++ ['\x00'] := by
    apply List.take_of_length_le
    simp only [List.length_append, List.length_singleton]
    omega
  have kept : (getSafeObjectFrame process address out).objectPath.chars =
      name.text ++ '\x00' :: out.objectPath.chars.drop (name.text.length + 1) := by
    simp only [getSafeObjectFrame, found, named, CharArray.memcpy, whole]
    simp
  have resolved : resolveLName process linkMap = name.text := by rw [resolveLName, named]
  exact (agreesAt_iff_of_path out found kept name.noNul resolved).mpr (.inl (namedBy_some named))

/-- A longer name fills the array and leaves no place for its end. -/
theorem not_agreesAt_of_long {name : CString} (found : process.dlFindObject address = some linkMap)
    (named : namedBy linkMap = some name) (long : pathMax < name.text.length) : ¬ AgreesAt process address out := by
  have cut : (name.text ++ ['\x00']).take (min (name.text.length + 1) (pathMax + 1)) =
      name.text.take (pathMax + 1) := by
    rw [Nat.min_eq_right (by omega), List.take_append_of_le_length (by omega)]
  have full : out.objectPath.chars.drop (name.text.take (pathMax + 1)).length = [] := by
    rw [List.length_take, Nat.min_eq_left long]
    exact List.drop_of_length_le (Nat.le_of_eq out.objectPath.size)
  intro agrees
  have ended := agrees.1
  simp only [getSafeObjectFrame, found, named, CharArray.memcpy, cut, full, List.append_nil] at ended
  exact name.noNul (List.mem_of_mem_take ended)

theorem agreesAt_iff_of_unnamed (found : process.dlFindObject address = some linkMap)
    (unnamed : namedBy linkMap = none) :
    AgreesAt process address out ↔ (∃ target, process.exe = some target ∧ target.text ≠ []) ∨
      address = linkMap.lAddr := by
  have kept : (getSafeObjectFrame process address out).objectPath = readlink process (.zero (pathMax + 1)) := by
    simp only [getSafeObjectFrame, found, unnamed]
  cases known : process.exe with
  | none =>
    have resolved : resolveLName process linkMap = [] := by rw [resolveLName, unnamed, known]
    rw [agreesAt_iff_of_path out found (kept ▸ readlink_zero_none known) List.not_mem_nil resolved]
    simp
  | some target =>
    have resolved : resolveLName process linkMap = target.text := by
      rw [resolveLName, unnamed, known, readlink_zero_some known, stringOf_append _ _ target.noNul, Option.getD_some]
    rw [agreesAt_iff_of_path out found (kept ▸ readlink_zero_some known) target.noNul resolved]
    simp

end Found

/-- The two lookups agree just where the path of the object can be represented. -/
theorem agreesAt_iff (process : Process) (address : FramePtr) (out : SafeObjectFrame) :
    AgreesAt process address out ↔ Representable process address := by
  rw [Representable]
  cases found : process.dlFindObject address with
  | none =>
    -- only the first character is written, and it ends the path
    have first : (getSafeObjectFrame process address out).objectPath.chars =
        [] ++ '\x00' :: out.objectPath.chars.drop 1 := by
      have size := out.objectPath.size
      simp only [getSafeObjectFrame, found, CharArray.setFirst]
      cases chars : out.objectPath.chars with
      | nil => simp [chars] at size
      | cons c rest => rfl
    have ended : '\x00' ∈ (getSafeObjectFrame process address out).objectPath.chars := by
      rw [first]
      simp
    rw [AgreesAt, and_iff_right ended, resolveSafeObjectFrame, first, stringOf_append _ _ List.not_mem_nil]
    simp [SameFrame, getFrameObjectInfo, getSafeObjectFrame, found]
  | some linkMap =>
    dsimp only
    cases named : namedBy linkMap with
    | none => exact agreesAt_iff_of_unnamed out found named
    | some name =>
      dsimp only
      refine ⟨fun agrees => ?_, agreesAt_of_fits out found named⟩
      exact Nat.le_of_not_lt fun long => not_agreesAt_of_long out found named long agrees

section Long

def longName : CString := ⟨List.replicate (pathMax + 1) 'a', by simp⟩

def longProcess : Process := ⟨fun _ => some ⟨0, some longName⟩, none⟩

theorem agreesAt_fails : ¬ AgreesAt longProcess 0 ⟨0, 0, .zero (pathMax + 1)⟩ := by
  have named : namedBy ⟨0, some longName⟩ = some longName := by
    rw [namedBy, Option.filter_some, if_pos]
    simp [longName]
  exact not_agreesAt_of_long _ rfl named (by simp [longName])

end Long

end Agreement

end Cpptrace.Binary
