import Cpptrace.Basic
import Cpptrace.Exceptions.LazyTraceHolder

/-! `lazy_exception`: a trace that is resolved, and a text that is made, when they are asked for.

The text is made once, of the message and the trace. Exceptions are copied and moved
with their holders and texts as those stand, some resolved and some not.
-/

set_option autoImplicit false

namespace Cpptrace.Exceptions

open Cpptrace.Library Tagged

structure LazyExceptions (count : Nat) (Frame : Type) where
  traceHolder : Holders count Frame
  whatString : Fin count → Text
  userMessage : Fin count → Text

inductive ExceptionOp (count : Nat) where
  | what (name : Fin count)
  | message (name : Fin count)
  | trace (name : Fin count)
  | copyAssign (name other : Fin count)
  | moveAssign (name other : Fin count)

inductive ExceptionAnswer (Frame : Type) where
  | assigned
  | text (text : Text)
  | frames (frames : List Frame)

namespace LazyException

variable {count : Nat} {Frame : Type}

abbrev Using (count : Nat) (Frame : Type) := Command Ending (LazyExceptions count Frame)

def onHolder {α : Type} (command : LazyTraceHolder.Using count Frame α) : Using count Frame α :=
  onPart LazyExceptions.traceHolder (fun exceptions holder => { exceptions with traceHolder := holder }) command

def readWhat (name : Fin count) :
    Using count Frame Text := fun exceptions => (.ok (exceptions.whatString name), exceptions)

def setWhat (name : Fin count) (text : Text) : Using count Frame Unit :=
  modify fun exceptions => { exceptions with whatString := Function.update exceptions.whatString name text }

def setMessage (name : Fin count) (text : Text) : Using count Frame Unit :=
  modify fun exceptions => { exceptions with userMessage := Function.update exceptions.userMessage name text }

variable (copyThrows : Held Frame → Bool) (resolve : RawTrace → Except Unit (List Frame)) (toText : List Frame → Text)

def message (name : Fin count) : Using count Frame Text := fun exceptions =>
  (.ok (exceptions.userMessage name), exceptions)

def framesOf : Held Frame → List Frame
  | .inl _ => []
  | .inr frames => frames

def trace (name : Fin count) : Using count Frame (List Frame) := do
  return framesOf (← onHolder (LazyTraceHolder.getResolvedTrace copyThrows resolve (some name)))

/-- What `what` says of an exception with that message and that trace. -/
def whatOf (message : Text) (frames : List Frame) : Text := message ++ ":\n".toList ++ toText frames

def makeWhat (name : Fin count) : Using count Frame Unit := do
  let text ← message name
  let frames ← trace copyThrows resolve name
  setWhat name (whatOf toText text frames)

def ensureWhat (name : Fin count) : Using count Frame Unit := do
  let text ← readWhat name
  if text.isEmpty then makeWhat copyThrows resolve toText name else return ()

def what (name : Fin count) : Using count Frame Text := do
  ensureWhat copyThrows resolve toText name
  readWhat name

def copyAssign (name other : Fin count) : Using count Frame Unit := do
  onHolder (LazyTraceHolder.copyAssign copyThrows (some name) (some other))
  setWhat name (← readWhat other)
  setMessage name (← message other)

def moveAssign (name other : Fin count) : Using count Frame Unit := do
  onHolder (LazyTraceHolder.moveAssign copyThrows (some name) (some other))
  setWhat name (← readWhat other)
  setWhat other []
  setMessage name (← message other)
  setMessage other []

def perform : ExceptionOp count → Using count Frame (ExceptionAnswer Frame)
  | .what name => do return .text (← what copyThrows resolve toText name)
  | .message name => do return .text (← message name)
  | .trace name => do return .frames (← trace copyThrows resolve name)
  | .copyAssign name other => do copyAssign copyThrows name other; return .assigned
  | .moveAssign name other => do moveAssign copyThrows name other; return .assigned

def thrown (messages : Fin count → Text) (traces : Fin count → RawTrace) : LazyExceptions count Frame :=
  ⟨initial LazyTraceHolder.isResolvedKind false fun name => .inl (traces name), fun _ => [], messages⟩

section Eager

structure Eager (Frame : Type) where
  message : Text
  frames : List Frame

def eagerWhat (exception : Eager Frame) : Text := whatOf toText exception.message exception.frames

/-- What exceptions are for: each has a message and a trace. -/
def eagerPerform (op : ExceptionOp count) (exceptions : Fin count → Eager Frame) :
    Except Ending (ExceptionAnswer Frame) × (Fin count → Eager Frame) :=
  match op with
  | .what name => (.ok (.text (eagerWhat toText (exceptions name))), exceptions)
  | .message name => (.ok (.text (exceptions name).message), exceptions)
  | .trace name => (.ok (.frames (exceptions name).frames), exceptions)
  | .copyAssign name other => (.ok .assigned, Function.update exceptions name (exceptions other))
  | .moveAssign name other =>
      (.ok .assigned, Function.update (Function.update exceptions other ⟨[], []⟩) name (exceptions other))

def AssignsOther : ExceptionOp count → Prop
  | .copyAssign name other | .moveAssign name other => name ≠ other
  | _ => True

end Eager

section Refinement

variable {resolve toText} {contents next : Fin count → Held Frame} {whats messages : Fin count → Text}
  {name other : Fin count}

def Holds (contents : Fin count → Held Frame) (whats messages : Fin count → Text)
    (exceptions : LazyExceptions count Frame) : Prop :=
  Represents LazyTraceHolder.isResolvedKind contents exceptions.traceHolder ∧ exceptions.whatString = whats ∧
    exceptions.userMessage = messages

theorem returns_onHolder {α : Type} {command : LazyTraceHolder.Using count Frame α} {answer : α}
    (performed : Performs LazyTraceHolder.isResolvedKind contents command (.ok answer) next) :
    Returns (Holds contents whats messages) (onHolder command) answer (Holds next whats messages) := by
  rintro exceptions ⟨represents, texts⟩
  obtain ⟨returned, represents⟩ := performed exceptions.traceHolder represents
  exact ⟨returned, represents, texts⟩

theorem returns_readWhat (name : Fin count) :
    Returns (Holds contents whats messages) (readWhat name) (whats name) (Holds contents whats messages) := by
  rintro exceptions ⟨represents, rfl, rfl⟩
  exact ⟨rfl, represents, rfl, rfl⟩

theorem returns_message (name : Fin count) :
    Returns (Holds contents whats messages) (message name) (messages name) (Holds contents whats messages) := by
  rintro exceptions ⟨represents, rfl, rfl⟩
  exact ⟨rfl, represents, rfl, rfl⟩

theorem returns_setWhat (name : Fin count) (text : Text) :
    Returns (Holds contents whats messages) (setWhat name text) ()
      (Holds contents (Function.update whats name text) messages) :=
  .modify fun _ ⟨represents, same, kept⟩ => ⟨represents, by rw [same], kept⟩

theorem returns_setMessage (name : Fin count) (text : Text) :
    Returns (Holds contents whats messages) (setMessage name text) ()
      (Holds contents whats (Function.update messages name text)) :=
  .modify fun _ ⟨represents, kept, same⟩ => ⟨represents, kept, by rw [same]⟩

abbrev never : Held Frame → Bool := fun _ => false

open LazyTraceHolder (traceOf)

theorem returns_trace (name : Fin count) :
    Returns (Holds contents whats messages) (trace never resolve name) (traceOf resolve (contents name))
      (Holds (Function.update contents name (.inr (traceOf resolve (contents name)))) whats messages) :=
  (returns_onHolder (LazyTraceHolder.performs_getResolvedTrace name)).bind (.pure _ _)

/-- The eager exceptions that exceptions stand for. A text that was made is the one of the message and the trace. -/
def Stands (resolve : RawTrace → Except Unit (List Frame)) (toText : List Frame → Text)
    (exceptions : LazyExceptions count Frame) (eager : Fin count → Eager Frame) : Prop :=
  ∃ contents whats messages, Holds contents whats messages exceptions ∧
    (eager = fun name => ⟨messages name, traceOf resolve (contents name)⟩) ∧
    ∀ name, whats name = [] ∨ whats name = eagerWhat toText (eager name)

theorem traceOf_resolved (contents : Fin count → Held Frame) (name other : Fin count) :
    traceOf resolve (Function.update contents name (.inr (traceOf resolve (contents name))) other) =
      traceOf resolve (contents other) := by
  by_cases same : other = name
  · subst same
    rw [Function.update_self]
    rfl
  · rw [Function.update_of_ne same]

theorem returns_makeWhat (name : Fin count) :
    Returns (Holds contents whats messages) (makeWhat never resolve toText name) ()
      (Holds (Function.update contents name (.inr (traceOf resolve (contents name))))
        (Function.update whats name (whatOf toText (messages name) (traceOf resolve (contents name)))) messages) :=
  (returns_message name).bind ((returns_trace name).bind (returns_setWhat name _))

variable {exceptions : LazyExceptions count Frame} {eager : Fin count → Eager Frame}

theorem stands_what (name : Fin count) (stands : Stands resolve toText exceptions eager) :
    (what never resolve toText name exceptions).1 = .ok (eagerWhat toText (eager name)) ∧
      Stands resolve toText (what never resolve toText name exceptions).2 eager := by
  obtain ⟨contents, whats, messages, holds, same, made⟩ := stands
  -- an empty text counts as not made, so it is made again
  by_cases empty : whats name = []
  · have ensured : Returns (Holds contents whats messages) (ensureWhat never resolve toText name) ()
        (Holds (Function.update contents name (.inr (traceOf resolve (contents name))))
          (Function.update whats name (whatOf toText (messages name) (traceOf resolve (contents name)))) messages) := by
      refine (returns_readWhat name).bind ?_
      rw [empty]
      exact returns_makeWhat name
    have whole : Returns (Holds contents whats messages) (what never resolve toText name) _ _ :=
      ensured.bind (returns_readWhat name)
    obtain ⟨returned, holds⟩ := whole exceptions holds
    rw [Function.update_self] at returned
    refine ⟨by rw [returned, same]; rfl, _, _, _, holds, ?_, fun other => ?_⟩
    · rw [same]
      funext other
      rw [traceOf_resolved]
    · by_cases equal : other = name
      · right
        rw [equal, Function.update_self, same]
        rfl
      · rw [Function.update_of_ne equal]
        exact made other
  · have ensured : Returns (Holds contents whats messages) (ensureWhat never resolve toText name) ()
        (Holds contents whats messages) := by
      refine (returns_readWhat name).bind ?_
      rw [if_neg (mt List.isEmpty_iff.mp empty)]
      exact .pure _ _
    have whole : Returns (Holds contents whats messages) (what never resolve toText name) _ _ :=
      ensured.bind (returns_readWhat name)
    obtain ⟨returned, holds⟩ := whole exceptions holds
    exact ⟨by rw [returned, (made name).resolve_left empty], _, _, _, holds, same, made⟩

theorem stands_trace (name : Fin count) (stands : Stands resolve toText exceptions eager) :
    (trace never resolve name exceptions).1 = .ok (eager name).frames ∧
      Stands resolve toText (trace never resolve name exceptions).2 eager := by
  obtain ⟨contents, whats, messages, holds, same, made⟩ := stands
  obtain ⟨returned, holds⟩ := returns_trace name exceptions holds
  refine ⟨by rw [returned, same], _, _, _, holds, ?_, made⟩
  rw [same]
  funext other
  rw [traceOf_resolved]

theorem stands_copyAssign {name other : Fin count} (apart : name ≠ other)
    (stands : Stands resolve toText exceptions eager) :
    (copyAssign never name other exceptions).1 = .ok () ∧
      Stands resolve toText (copyAssign never name other exceptions).2 (Function.update eager name (eager other)) := by
  obtain ⟨contents, whats, messages, holds, same, made⟩ := stands
  have assigned : Returns (Holds contents whats messages) (copyAssign never name other) ()
      (Holds (Function.update contents name (contents other)) (Function.update whats name (whats other))
        (Function.update messages name (messages other))) :=
    (returns_onHolder (LazyTraceHolder.performs_copyAssign apart rfl)).bind ((returns_readWhat other).bind
      ((returns_setWhat name _).bind ((returns_message other).bind (returns_setMessage name _))))
  obtain ⟨returned, holds⟩ := assigned exceptions holds
  refine ⟨returned, _, _, _, holds, ?_, fun third => ?_⟩
  · rw [same]
    funext third
    by_cases equal : third = name
    · simp [equal]
    · simp [equal]
  · by_cases equal : third = name
    · rw [equal, Function.update_self, Function.update_self]
      exact made other
    · rw [Function.update_of_ne equal, Function.update_of_ne equal]
      exact made third

theorem stands_moveAssign {name other : Fin count} (apart : name ≠ other)
    (stands : Stands resolve toText exceptions eager) :
    (moveAssign never name other exceptions).1 = .ok () ∧
      Stands resolve toText (moveAssign never name other exceptions).2
        (Function.update (Function.update eager other ⟨[], []⟩) name (eager other)) := by
  obtain ⟨contents, whats, messages, holds, same, made⟩ := stands
  have assigned : Returns (Holds contents whats messages) (moveAssign never name other) ()
      (Holds (Function.update (LazyTraceHolder.movedOut contents other) name (contents other))
        (Function.update (Function.update whats name (whats other)) other [])
        (Function.update (Function.update messages name (messages other)) other [])) :=
    (returns_onHolder (LazyTraceHolder.performs_moveAssign apart)).bind ((returns_readWhat other).bind
      ((returns_setWhat name _).bind ((returns_setWhat other _).bind ((returns_message other).bind
        ((returns_setMessage name _).bind (returns_setMessage other _))))))
  obtain ⟨returned, holds⟩ := assigned exceptions holds
  rw [Function.update_comm apart, Function.update_comm apart] at holds
  -- what was moved from still resolves, to nothing
  have emptied : traceOf resolve (Sum.map (fun _ => []) (fun _ => []) (contents other)) = [] := by
    cases contents other <;> rfl
  refine ⟨returned, _, _, _, holds, ?_, fun third => ?_⟩
  · rw [same]
    funext third
    by_cases equal : third = name
    · simp [equal]
    · by_cases moved : third = other
      · subst moved
        simp [equal, LazyTraceHolder.movedOut, emptied]
      · simp [equal, moved, LazyTraceHolder.movedOut]
  · by_cases equal : third = name
    · rw [equal, Function.update_self, Function.update_self]
      exact made other
    · rw [Function.update_of_ne equal, Function.update_of_ne equal]
      by_cases moved : third = other
      · rw [moved, Function.update_self]
        exact .inl rfl
      · rw [Function.update_of_ne moved, Function.update_of_ne moved]
        exact made third

theorem perform_simulates (op : ExceptionOp count) (exceptions : LazyExceptions count Frame)
    (eager : Fin count → Eager Frame)
    (stands : Stands resolve toText exceptions eager) (others : AssignsOther op) :
    (perform never resolve toText op exceptions).1 = (eagerPerform toText op eager).1 ∧
      Stands resolve toText (perform never resolve toText op exceptions).2 (eagerPerform toText op eager).2 := by
  cases op with
  | what name =>
    obtain ⟨returned, stands⟩ := stands_what name stands
    rw [perform, Command.bind_apply, returned]
    exact ⟨rfl, stands⟩
  | message name =>
    refine ⟨?_, stands⟩
    obtain ⟨contents, whats, messages, ⟨_, _, rfl⟩, same, _⟩ := stands
    rw [eagerPerform, same]
    rfl
  | trace name =>
    obtain ⟨returned, stands⟩ := stands_trace name stands
    rw [perform, Command.bind_apply, returned]
    exact ⟨rfl, stands⟩
  | copyAssign name other =>
    obtain ⟨returned, stands⟩ := stands_copyAssign others stands
    rw [perform, Command.bind_apply, returned]
    exact ⟨rfl, stands⟩
  | moveAssign name other =>
    obtain ⟨returned, stands⟩ := stands_moveAssign others stands
    rw [perform, Command.bind_apply, returned]
    exact ⟨rfl, stands⟩

end Refinement

section Runs

variable (resolve : RawTrace → Except Unit (List Frame)) (toText : List Frame → Text)

/-- As long as no exception is assigned to itself, exceptions answer as if their traces were resolved when they
were made: when they are resolved, and before or after which copy, does not show. -/
theorem runs_answer_eagerly (messages : Fin count → Text) (traces : Fin count → RawTrace)
    (ops : List (ExceptionOp count))
    (others : ∀ op ∈ ops, AssignsOther op) :
    (run (perform never resolve toText) ops (thrown messages traces)).1 =
      (run (eagerPerform toText) ops fun name =>
        ⟨messages name, LazyTraceHolder.resolution resolve (traces name)⟩).1 := by
  have stands : Stands resolve toText (thrown messages traces)
      fun name => ⟨messages name, LazyTraceHolder.resolution resolve (traces name)⟩ :=
    ⟨fun name => .inl (traces name), fun _ => [], messages, ⟨represents_initial false _, rfl, rfl⟩, rfl,
      fun _ => .inl rfl⟩
  exact (run_refines_while perform_simulates ops _ _ stands (everyStep_of_forall ops _ others)).1

end Runs

/-- Two exceptions: the text of the first is made, its copy is moved back over it, and both are asked again. -/
def askedAndMoved : List (ExceptionOp 2) := [.what 0, .copyAssign 1 0, .moveAssign 0 1, .what 0, .what 1, .trace 0]

theorem runs_answer_eagerly_at_askedAndMoved :
    (∀ op ∈ askedAndMoved, AssignsOther op) ∧
      (run (perform never (fun raw => .ok raw) fun frames => frames.map Char.ofNat) askedAndMoved
        (thrown (fun _ => "m".toList) fun _ => [65, 66])).1 =
      (run (eagerPerform fun frames => frames.map Char.ofNat) askedAndMoved fun _ => ⟨"m".toList, [65, 66]⟩).1 :=
  have others : ∀ op ∈ askedAndMoved, AssignsOther op := by simp [askedAndMoved, AssignsOther]
  ⟨others, runs_answer_eagerly (fun raw => .ok raw) (fun frames => frames.map Char.ofNat) (fun _ => "m".toList)
    (fun _ => [65, 66]) askedAndMoved others⟩

end LazyException

end Cpptrace.Exceptions
