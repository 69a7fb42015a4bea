import Cpptrace.Library.Memo
import Mathlib.Data.Fintype.Card
import Mathlib.Data.Finset.Card

/-! Objects in named cells of memory, under manual control of their lifetimes.

A cell is raw memory until an object is made in it. To make an object over another
one, to destroy one that is not there or to use it is misuse. The cells count what
was made and destroyed, and the counts differ by the objects that live.
-/

set_option autoImplicit false

namespace Cpptrace.Library

inductive Misuse where
  | constructsOverLive
  | destroysDead
  | usesDead
  deriving DecidableEq, Repr

/-- How code on cells ends without a result: it is undefined, it throws, or the process is ended. -/
inductive Ending where
  | misuse (misuse : Misuse)
  | thrown
  | terminated
  deriving DecidableEq, Repr

structure Cells (Name V : Type) where
  object : Name → Option V
  constructed : Nat
  destroyed : Nat

/-- A type of objects: what throws when it is copied or moved, and what a move leaves. -/
structure Payload (V : Type) where
  copyThrows : V → Bool
  moveThrows : V → Bool
  movedFrom : V → V

namespace Cells

variable {Name V : Type} [DecidableEq Name]

def raw : Cells Name V := ⟨fun _ => none, 0, 0⟩

def construct (name : Name) (value : V) : Command Ending (Cells Name V) Unit := fun cells =>
  match cells.object name with
  | some _ => (.error (.misuse .constructsOverLive), cells)
  | none => (.ok (), ⟨Function.update cells.object name (some value), cells.constructed + 1, cells.destroyed⟩)

def destroy (name : Name) : Command Ending (Cells Name V) Unit := fun cells =>
  match cells.object name with
  | none => (.error (.misuse .destroysDead), cells)
  | some _ => (.ok (), ⟨Function.update cells.object name none, cells.constructed, cells.destroyed + 1⟩)

def look (name : Name) : Command Ending (Cells Name V) (Option V) := fun cells => (.ok (cells.object name), cells)

def use (name : Name) : Command Ending (Cells Name V) V := fun cells =>
  match cells.object name with
  | none => (.error (.misuse .usesDead), cells)
  | some value => (.ok value, cells)

def assign (name : Name) (value : V) : Command Ending (Cells Name V) Unit := fun cells =>
  match cells.object name with
  | none => (.error (.misuse .usesDead), cells)
  | some _ => (.ok (), { cells with object := Function.update cells.object name (some value) })

def constructCopy (payload : Payload V) (name other : Name) : Command Ending (Cells Name V) Unit := do
  let value ← use other
  if payload.copyThrows value then throw .thrown else construct name value

def constructMove (payload : Payload V) (name other : Name) : Command Ending (Cells Name V) Unit := do
  let value ← use other
  if payload.moveThrows value then throw .thrown
  else do
    construct name value
    assign other (payload.movedFrom value)

section Rules

variable {payload : Payload V} {object : Name → Option V} {name other : Name} {value : V}

def Holding (object : Name → Option V) (cells : Cells Name V) : Prop := cells.object = object

theorem returns_construct (raw : object name = none) (value : V) :
    Returns (Holding object) (construct name value) () (Holding (Function.update object name (some value))) := by
  rintro cells rfl
  exact ⟨by rw [construct, raw], by rw [construct, raw]; rfl⟩

theorem returns_destroy (lives : object name = some value) :
    Returns (Holding object) (destroy name) () (Holding (Function.update object name none)) := by
  rintro cells rfl
  exact ⟨by rw [destroy, lives], by rw [destroy, lives]; rfl⟩

omit [DecidableEq Name] in
theorem returns_use (lives : object name = some value) :
    Returns (Holding object) (use name) value (Holding object) := by
  rintro cells rfl
  exact ⟨by rw [use, lives], by rw [use, lives]; rfl⟩

omit [DecidableEq Name] in
theorem fails_use (raw : object name = none) :
    Fails (Holding object) (use name) (.misuse .usesDead) (Holding object) := by
  rintro cells rfl
  exact ⟨by rw [use, raw], by rw [use, raw]; rfl⟩

omit [DecidableEq Name] in
theorem returns_look (object : Name → Option V) (name : Name) :
    Returns (Holding object) (look name) (object name) (Holding object) := by
  rintro cells rfl
  exact ⟨rfl, rfl⟩

theorem returns_assign (lives : object name = some value) (next : V) :
    Returns (Holding object) (assign name next) () (Holding (Function.update object name (some next))) := by
  rintro cells rfl
  exact ⟨by rw [assign, lives], by rw [assign, lives]; rfl⟩

theorem returns_constructCopy (raw : object name = none) (lives : object other = some value)
    (quiet : payload.copyThrows value = false) :
    Returns (Holding object) (constructCopy payload name other) ()
      (Holding (Function.update object name (some value))) := by
  refine (returns_use lives).bind ?_
  rw [quiet]
  exact returns_construct raw value

theorem fails_constructCopy (lives : object other = some value) (throws : payload.copyThrows value = true) :
    Fails (Holding object) (constructCopy payload name other) .thrown (Holding object) := by
  refine Fails.second (returns_use lives) ?_
  rw [throws]
  exact .throw _ _

theorem returns_constructMove (raw : object name = none) (lives : object other = some value)
    (quiet : payload.moveThrows value = false) :
    Returns (Holding object) (constructMove payload name other) ()
      (Holding (Function.update (Function.update object name (some value)) other
        (some (payload.movedFrom value)))) := by
  have apart : other ≠ name := by
    rintro rfl
    simp [raw] at lives
  refine (returns_use lives).bind ?_
  rw [quiet]
  exact (returns_construct raw value).bind (returns_assign ((Function.update_of_ne apart ..).trans lives) _)

theorem fails_constructMove (lives : object other = some value) (throws : payload.moveThrows value = true) :
    Fails (Holding object) (constructMove payload name other) .thrown (Holding object) := by
  refine Fails.second (returns_use lives) ?_
  rw [throws]
  exact .throw _ _

end Rules

section Counting

variable [Fintype Name]

def live (object : Name → Option V) : Finset Name := Finset.univ.filter fun name => (object name).isSome

def Balanced (cells : Cells Name V) : Prop := cells.constructed = cells.destroyed + (live cells.object).card

omit [DecidableEq Name] in
theorem Balanced.eq_of_raw {cells : Cells Name V} (balanced : Balanced cells)
    (empty : ∀ name, cells.object name = none) :
    cells.constructed = cells.destroyed := by
  have none_lives : live cells.object = ∅ := by
    ext name
    simp [live, empty name]
  rw [Balanced, none_lives, Finset.card_empty, Nat.add_zero] at balanced
  exact balanced

omit [DecidableEq Name] in
theorem balanced_raw : Balanced (raw : Cells Name V) := by simp [Balanced, raw, live]

theorem live_update_some {object : Name → Option V} {name : Name} (value : V) :
    live (Function.update object name (some value)) = insert name (live object) := by
  ext other
  by_cases same : other = name
  · simp [live, same]
  · simp [live, same]

theorem live_update_none {object : Name → Option V} {name : Name} :
    live (Function.update object name none) = (live object).erase name := by
  ext other
  by_cases same : other = name
  · simp [live, same]
  · simp [live, same]

omit [DecidableEq Name] in
theorem mem_live {object : Name → Option V} {name : Name} : name ∈ live object ↔ (object name).isSome := by
  simp [live]

abbrev KeepsBalance {α : Type} (command : Command Ending (Cells Name V) α) : Prop :=
  Stays Balanced (fun _ => True) command fun _ => True

theorem keepsBalance_construct (name : Name) (value : V) : KeepsBalance (construct name value) := by
  intro cells balanced
  cases there : cells.object name with
  | some other => simp [construct, there, balanced]
  | none =>
    have absent : name ∉ live cells.object := by simp [mem_live, there]
    have counted := Finset.card_insert_of_notMem absent
    unfold Balanced at balanced
    simp only [construct, there, and_true, Balanced, live_update_some]
    omega

theorem keepsBalance_destroy (name : Name) : KeepsBalance (destroy name : Command Ending (Cells Name V) Unit) := by
  intro cells balanced
  cases there : cells.object name with
  | none => simp [destroy, there, balanced]
  | some value =>
    have present : name ∈ live cells.object := by simp [mem_live, there]
    have counted := Finset.card_erase_add_one present
    unfold Balanced at balanced
    simp only [destroy, there, and_true, Balanced, live_update_none]
    omega

omit [DecidableEq Name] in
theorem keepsBalance_use (name : Name) : KeepsBalance (use name : Command Ending (Cells Name V) V) := by
  intro cells balanced
  cases there : cells.object name <;> simp [use, there, balanced]

theorem keepsBalance_assign (name : Name) (value : V) : KeepsBalance (assign name value) := by
  intro cells balanced
  cases there : cells.object name with
  | none => simp [assign, there, balanced]
  | some other =>
    have present : name ∈ live cells.object := by simp [mem_live, there]
    simp only [assign, there, and_true]
    rw [Balanced, live_update_some, Finset.insert_eq_self.mpr present, balanced]

theorem keepsBalance_constructCopy (payload : Payload V) (name other : Name) :
    KeepsBalance (constructCopy payload name other) :=
  (keepsBalance_use other).bind fun value _ => (Stays.throw trivial).ite (keepsBalance_construct name value)

theorem keepsBalance_constructMove (payload : Payload V) (name other : Name) :
    KeepsBalance (constructMove payload name other) :=
  (keepsBalance_use other).bind fun value _ => (Stays.throw trivial).ite <|
    (keepsBalance_construct name value).bind fun _ _ => keepsBalance_assign other (payload.movedFrom value)

end Counting

section Keeping

abbrev Keeps (sound : Cells Name V → Prop) {α : Type} (command : Command Ending (Cells Name V) α) : Prop :=
  Stays sound (fun _ => True) command fun _ => True

structure Kept (sound : Cells Name V → Prop) (may : Name → Prop) : Prop where
  construct : ∀ name value, may name → Keeps sound (construct name value)
  destroy : ∀ name, Keeps sound (destroy name)
  use : ∀ name, Keeps sound (use name)
  look : ∀ name, Keeps sound (look name)
  assign : ∀ name value, Keeps sound (assign name value)

theorem kept_balanced [Fintype Name] : Kept (Balanced : Cells Name V → Prop) fun _ => True where
  construct name value _ := keepsBalance_construct name value
  destroy := keepsBalance_destroy
  use := keepsBalance_use
  look _ _ balanced := ⟨balanced, trivial⟩
  assign := keepsBalance_assign

theorem kept_raw (name : Name) :
    Kept (fun cells : Cells Name V => cells.object name = none) fun other => other ≠ name where
  construct other value apart cells raw := by
    cases there : cells.object other with
    | some _ => simp [construct, there, raw]
    | none => simp [construct, there, raw, Function.update_of_ne apart.symm]
  destroy other cells raw := by
    cases there : cells.object other with
    | none => simp [destroy, there, raw]
    | some _ =>
      by_cases same : name = other
      · simp [destroy, there, same]
      · simp [destroy, there, raw, Function.update_of_ne same]
  use other cells raw := by
    cases there : cells.object other <;> simp [use, there, raw]
  look _ _ raw := ⟨raw, trivial⟩
  assign other value cells raw := by
    cases there : cells.object other with
    | none => simp [assign, there, raw]
    | some _ =>
      have apart : name ≠ other := by
        rintro rfl
        simp [raw] at there
      simp [assign, there, raw, Function.update_of_ne apart]

end Keeping

end Cells

/-- Cells with a tag beside each, which says what is in the cell. -/
structure Tagged (Name V Tag : Type) where
  cells : Cells Name V
  tag : Name → Tag

namespace Tagged

variable {Name V Tag α : Type} [DecidableEq Name]

abbrev Using (Name V Tag : Type) := Command Ending (Tagged Name V Tag)

def onCells (command : Command Ending (Cells Name V) α) : Using Name V Tag α :=
  onPart Tagged.cells (fun tagged cells => { tagged with cells := cells }) command

def readTag (name : Name) : Using Name V Tag Tag := fun tagged => (.ok (tagged.tag name), tagged)

def setTag (name : Name) (tag : Tag) : Using Name V Tag Unit :=
  modify fun tagged => { tagged with tag := Function.update tagged.tag name tag }

def At (object : Name → Option V) (tag : Name → Tag) (tagged : Tagged Name V Tag) : Prop :=
  tagged.cells.object = object ∧ tagged.tag = tag

section Rules

variable {object next : Name → Option V} {tag : Name → Tag} {name : Name} {command : Command Ending (Cells Name V) α}
  {result : α} {ending : Ending}

omit [DecidableEq Name] in
theorem returns_readTag : Returns (At object tag) (readTag name) (tag name) (At object tag) := by
  rintro tagged ⟨held, rfl⟩
  exact ⟨rfl, held, rfl⟩

theorem returns_setTag (given : Tag) :
    Returns (At object tag) (setTag name given) () (At object (Function.update tag name given)) :=
  .modify fun _ at_ => ⟨at_.1, by rw [at_.2]⟩

omit [DecidableEq Name] in
theorem returns_onCells (valid : Returns (Cells.Holding object) command result (Cells.Holding next)) :
    Returns (At object tag) (onCells command) result (At next tag) :=
  valid.onPart (fun _ at_ => at_.1) fun _ _ at_ held => ⟨held, at_.2⟩

omit [DecidableEq Name] in
theorem fails_onCells (failed : Fails (Cells.Holding object) command ending (Cells.Holding next)) :
    Fails (At object tag) (onCells command) ending (At next tag) :=
  failed.onPart (fun _ at_ => at_.1) fun _ _ at_ held => ⟨held, at_.2⟩

end Rules

section Keeping

abbrev Keeps (sound : Cells Name V → Prop) (command : Using Name V Tag α) : Prop :=
  Stays (fun tagged => sound tagged.cells) (fun _ => True) command fun _ => True

variable {sound : Cells Name V → Prop} {name : Name}

omit [DecidableEq Name] in
theorem keeps_onCells {command : Command Ending (Cells Name V) α}
    (keeps : Stays sound (fun _ => True) command fun _ => True) :
    Keeps sound (onCells command : Using Name V Tag α) :=
  keeps.onPart (fun _ holds => holds) fun _ _ _ holds => holds

omit [DecidableEq Name] in
theorem keeps_readTag : Keeps sound (readTag name : Using Name V Tag Tag) := fun _ holds => ⟨holds, trivial⟩

theorem keeps_setTag (tag : Tag) : Keeps sound (setTag name tag : Using Name V Tag Unit) :=
  .modify (fun _ holds => holds) trivial

omit [DecidableEq Name] in
theorem keeps_return (value : α) : Keeps sound (return value : Using Name V Tag α) := .pure trivial

omit [DecidableEq Name] in
theorem keeps_throw (ending : Ending) : Keeps sound (throw ending : Using Name V Tag α) := .throw trivial

omit [DecidableEq Name] in
theorem keeps_forM {Index : Type} {command : Index → Using Name V Tag Unit}
    (keeps : ∀ index, Keeps sound (command index))
    (indices : List Index) : Keeps sound (indices.forM command) := by
  induction indices with
  | nil => exact keeps_return ()
  | cons index rest ih => exact (keeps index).bind fun _ _ => ih

abbrev Counted [Fintype Name] (tagged : Tagged Name V Tag) : Prop := tagged.cells.Balanced

end Keeping

end Tagged

end Cpptrace.Library
