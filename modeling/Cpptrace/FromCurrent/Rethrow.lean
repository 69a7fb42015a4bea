import Cpptrace.Basic

/-! The two traces that `from_current` keeps for a thread, and what led to them.

The search phase of a throw calls `maybe_collect_trace` for handlers on its way. What
`save_current_trace` makes of a trace depends on a switch, which is on while a rethrow
searches; the guard that turns it off runs when the unwinding starts. A capture that
fails is absorbed.
-/

set_option autoImplicit false

namespace Cpptrace.FromCurrent

abbrev RawTrace := List FramePtr

inductive LazyTraceHolder where
  | unresolved (trace : RawTrace)
  | resolved (trace : List StacktraceFrame)
  deriving DecidableEq, Repr

structure ThreadTraces where
  currentExceptionTrace : LazyTraceHolder
  savedRethrowTrace : LazyTraceHolder
  rethrowSwitch : Bool
  deriving DecidableEq, Repr

def ThreadTraces.new : ThreadTraces := ⟨.unresolved [], .unresolved [], false⟩

section Collecting

def saveCurrentTrace (trace : RawTrace) (traces : ThreadTraces) : ThreadTraces :=
  if traces.rethrowSwitch then { traces with savedRethrowTrace := .unresolved trace }
  -- a new throw forgets the rethrow before it
  else { traces with currentExceptionTrace := .unresolved trace, savedRethrowTrace := .unresolved [] }

/-- `collect_current_trace`, with what `capture_frames` gives. -/
def collectCurrentTrace (captured : Except Exception RawTrace) (traces : ThreadTraces) : ThreadTraces :=
  match captured with
  | .ok trace => saveCurrentTrace trace traces
  | .error _ => traces

/-- What a search phase finds at an interceptor: whether the type of its handler matches, and what a
capture there would give. -/
structure Visit where
  canCatch : Bool
  captured : Except Exception RawTrace

def maybeCollectTrace (visit : Visit) (traces : ThreadTraces) : ThreadTraces :=
  if visit.canCatch then collectCurrentTrace visit.captured traces else traces

def searchPhase (visits : List Visit) (traces : ThreadTraces) : ThreadTraces :=
  visits.foldl (fun traces visit => maybeCollectTrace visit traces) traces

end Collecting

section Rethrowing

/-- `scope_guard`, without its function. -/
structure ScopeGuard where
  active : Bool
  deriving DecidableEq, Repr

namespace ScopeGuard

def scopeExit : ScopeGuard := ⟨true⟩

def move (guard : ScopeGuard) : ScopeGuard × ScopeGuard := (guard, ⟨false⟩)

def destroy (f : ThreadTraces → ThreadTraces) (guard : ScopeGuard) (traces : ThreadTraces) : ThreadTraces :=
  if guard.active then f traces else traces

end ScopeGuard

def rethrowScopeCleanup (traces : ThreadTraces) : ThreadTraces := { traces with rethrowSwitch := false }

def setupRethrow (traces : ThreadTraces) : ScopeGuard × ThreadTraces :=
  -- the moved-from guard is not active, so its destructor leaves the switch on
  let (returned, temporary) := ScopeGuard.scopeExit.move
  (returned, temporary.destroy rethrowScopeCleanup { traces with rethrowSwitch := true })

/-- `rethrow`: the search phase is over when the guard is destroyed. -/
def rethrow (visits : List Visit) (traces : ThreadTraces) : ThreadTraces :=
  let (guard, traces) := setupRethrow traces
  guard.destroy rethrowScopeCleanup (searchPhase visits traces)

def clearCurrentExceptionTraces (traces : ThreadTraces) : ThreadTraces :=
  { traces with currentExceptionTrace := .unresolved [], savedRethrowTrace := .unresolved [] }

def currentExceptionWasRethrown (traces : ThreadTraces) : Bool :=
  match traces.savedRethrowTrace with
  | .resolved trace => !trace.isEmpty
  | .unresolved trace => !trace.isEmpty

end Rethrowing

section Histories

inductive Event where
  | throwing (visits : List Visit)
  | rethrowing (visits : List Visit)
  | failedCapture (failure : Exception)
  | clear

def Event.step : Event → ThreadTraces → ThreadTraces
  | throwing visits, traces => searchPhase visits traces
  | rethrowing visits, traces => rethrow visits traces
  | failedCapture failure, traces => collectCurrentTrace (.error failure) traces
  | clear, traces => clearCurrentExceptionTraces traces

def runEvents (events : List Event) : ThreadTraces :=
  events.foldl (fun traces event => event.step traces) ThreadTraces.new

inductive Note where
  | collected (rethrown : Bool) (trace : RawTrace)
  | cleared
  deriving DecidableEq, Repr

def Visit.notes (rethrown : Bool) (visit : Visit) : List Note :=
  match visit.canCatch, visit.captured with
  | true, .ok trace => [.collected rethrown trace]
  | _, _ => []

def Event.notes : Event → List Note
  | throwing visits => visits.flatMap (Visit.notes false)
  | rethrowing visits => visits.flatMap (Visit.notes true)
  | failedCapture _ => []
  | clear => [.cleared]

def Note.origin? : Note → Option RawTrace
  | collected false trace => some trace
  | _ => none

def Note.rethrown? : Note → Option RawTrace
  | collected true trace => some trace
  | _ => none

/-- The last trace that a throw collected since the last clear. -/
def lastOrigin (history : List Note) : RawTrace :=
  ((history.reverse.takeWhile (· ≠ .cleared)).findSome? Note.origin?).getD []

/-- The last trace that a rethrow collected since then, or since the last clear. -/
def lastRethrown (history : List Note) : RawTrace :=
  ((history.reverse.takeWhile fun note => note ≠ .cleared ∧ note.origin? = none).findSome? Note.rethrown?).getD []

end Histories

section Invariant

variable {history : List Note} {traces : ThreadTraces}

structure Follows (history : List Note) (traces : ThreadTraces) : Prop where
  origin : traces.currentExceptionTrace = .unresolved (lastOrigin history)
  rethrown : traces.savedRethrowTrace = .unresolved (lastRethrown history)

theorem lastOrigin_concat (history : List Note) (note : Note) :
    lastOrigin (history ++ [note]) =
      match note with
      | .collected false trace => trace
      | .collected true _ => lastOrigin history
      | .cleared => [] := by
  rcases note with ⟨_ | _, trace⟩ | _ <;> simp [lastOrigin, List.findSome?_cons, Note.origin?]

theorem lastRethrown_concat (history : List Note) (note : Note) :
    lastRethrown (history ++ [note]) =
      match note with
      | .collected true trace => trace
      | _ => [] := by
  rcases note with ⟨_ | _, trace⟩ | _ <;> simp [lastRethrown, List.findSome?_cons, Note.origin?, Note.rethrown?]

theorem follows_origin (history : List Note) (trace : RawTrace) (off : traces.rethrowSwitch = false) :
    Follows (history ++ [.collected false trace]) (saveCurrentTrace trace traces) := by
  constructor
  · simp [saveCurrentTrace, off, lastOrigin_concat]
  · simp [saveCurrentTrace, off, lastRethrown_concat]

theorem follows_rethrown (follows : Follows history traces) (trace : RawTrace) (on : traces.rethrowSwitch = true) :
    Follows (history ++ [.collected true trace]) (saveCurrentTrace trace traces) := by
  constructor
  · simpa [saveCurrentTrace, on, lastOrigin_concat] using follows.origin
  · simp [saveCurrentTrace, on, lastRethrown_concat]

theorem follows_cleared (history : List Note) (traces : ThreadTraces) :
    Follows (history ++ [.cleared]) (clearCurrentExceptionTraces traces) := by
  constructor
  · simp [clearCurrentExceptionTraces, lastOrigin_concat]
  · simp [clearCurrentExceptionTraces, lastRethrown_concat]

theorem maybeCollectTrace_switch (visit : Visit) (traces : ThreadTraces) :
    (maybeCollectTrace visit traces).rethrowSwitch = traces.rethrowSwitch := by
  unfold maybeCollectTrace collectCurrentTrace saveCurrentTrace
  split
  · split
    · split <;> rfl
    · rfl
  · rfl

theorem maybeCollectTrace_follows (follows : Follows history traces) (visit : Visit) :
    Follows (history ++ visit.notes traces.rethrowSwitch) (maybeCollectTrace visit traces) := by
  obtain ⟨canCatch, captured⟩ := visit
  cases canCatch with
  | false =>
    cases captured <;> simpa [Visit.notes, maybeCollectTrace] using follows
  | true =>
    cases captured with
    | error failure => simpa [Visit.notes, maybeCollectTrace, collectCurrentTrace] using follows
    | ok trace =>
      -- a throw forgets the trace of a rethrow, a rethrow keeps the trace of the throw
      cases switch : traces.rethrowSwitch with
      | false => exact follows_origin history trace switch
      | true => exact follows_rethrown follows trace switch

/-- A search phase leaves the switch alone, and each trace of it is noted as the switch says. -/
theorem searchPhase_follows (follows : Follows history traces) (visits : List Visit) :
    (searchPhase visits traces).rethrowSwitch = traces.rethrowSwitch ∧
      Follows (history ++ visits.flatMap (Visit.notes traces.rethrowSwitch)) (searchPhase visits traces) := by
  induction visits generalizing history traces with
  | nil => simpa [searchPhase] using follows
  | cons visit rest ih =>
    obtain ⟨switch, later⟩ := ih (maybeCollectTrace_follows follows visit)
    rw [maybeCollectTrace_switch] at switch later
    rw [List.flatMap_cons, ← List.append_assoc]
    exact ⟨switch, later⟩

theorem rethrow_follows (follows : Follows history traces) (visits : List Visit) :
    (rethrow visits traces).rethrowSwitch = false ∧
      Follows (history ++ visits.flatMap (Visit.notes true)) (rethrow visits traces) := by
  have searching : Follows history (setupRethrow traces).2 := ⟨follows.origin, follows.rethrown⟩
  have found := (searchPhase_follows searching visits).2
  exact ⟨rfl, found.origin, found.rethrown⟩

theorem step_follows (off : traces.rethrowSwitch = false) (follows : Follows history traces) (event : Event) :
    (event.step traces).rethrowSwitch = false ∧ Follows (history ++ event.notes) (event.step traces) := by
  cases event with
  | throwing visits =>
    obtain ⟨switch, found⟩ := searchPhase_follows follows visits
    rw [off] at switch found
    exact ⟨switch, found⟩
  | rethrowing visits => exact rethrow_follows follows visits
  | failedCapture failure =>
    rw [Event.notes, List.append_nil]
    exact ⟨off, follows⟩
  | clear => exact ⟨off, follows_cleared history traces⟩

theorem foldl_follows (off : traces.rethrowSwitch = false) (follows : Follows history traces) (events : List Event) :
    (events.foldl (fun traces event => event.step traces) traces).rethrowSwitch = false ∧
      Follows (history ++ events.flatMap Event.notes)
        (events.foldl (fun traces event => event.step traces) traces) := by
  induction events generalizing history traces with
  | nil => simpa using ⟨off, follows⟩
  | cons event rest ih =>
    obtain ⟨off', follows'⟩ := step_follows off follows event
    rw [List.flatMap_cons, ← List.append_assoc]
    exact ih off' follows'

theorem follows_new : Follows [] .new :=
  ⟨rfl, rfl⟩

/-- After any events the switch is off, and the traces are those that the history names. -/
theorem runEvents_follows (events : List Event) :
    (runEvents events).rethrowSwitch = false ∧
      (runEvents events).currentExceptionTrace = .unresolved (lastOrigin (events.flatMap Event.notes)) ∧
      (runEvents events).savedRethrowTrace = .unresolved (lastRethrown (events.flatMap Event.notes)) := by
  obtain ⟨off, follows⟩ := foldl_follows rfl follows_new events
  exact ⟨off, follows.origin, follows.rethrown⟩

/-- An exception counts as rethrown if a rethrow collected a trace since the throw. -/
theorem wasRethrown_runEvents (events : List Event) :
    currentExceptionWasRethrown (runEvents events) = !(lastRethrown (events.flatMap Event.notes)).isEmpty := by
  obtain ⟨-, follows⟩ := foldl_follows rfl follows_new events
  rw [runEvents, currentExceptionWasRethrown, follows.rethrown]
  rfl

end Invariant

end Cpptrace.FromCurrent
