import Cpptrace.Library.Lifetimes
import Cpptrace.Library.Machine
import Mathlib.Data.Fintype.Option

/-! Variables that hold objects of several kinds, each with a tag that names the kind.

A program has variables, and an operation may make one more for itself. An object
may be used and destroyed as the kind it is of, which the tag has to name. As long
as nothing fails between a destructor and the constructor after it, the variables
stand for their contents.
-/

set_option autoImplicit false

namespace Cpptrace.Library.Tagged

variable {count : Nat} {V Tag α : Type}

abbrev Variables (count : Nat) (V Tag : Type) := Tagged (Option (Fin count)) V Tag

section Commands

variable {Name : Type} [DecidableEq Name] [DecidableEq Tag] (kind : V → Tag) (payload : Payload V)

def useAs (name : Name) (tag : Tag) : Using Name V Tag V := do
  let object ← onCells (Cells.use name)
  if kind object = tag then return object else throw (.misuse .usesDead)

def clear (name : Name) : Using Name V Tag Unit := do
  let tag ← readTag name
  let object ← onCells (Cells.look name)
  if object.map kind = some tag then onCells (Cells.destroy name) else throw (.misuse .destroysDead)

def copyAs (name other : Name) (tag : Tag) : Using Name V Tag Unit := do
  let object ← useAs kind other tag
  if payload.copyThrows object then throw .thrown else onCells (Cells.construct name object)

def moveAs (name other : Name) (tag : Tag) : Using Name V Tag Unit := do
  let object ← useAs kind other tag
  if payload.moveThrows object then throw .thrown
  else do
    onCells (Cells.construct name object)
    onCells (Cells.assign other (payload.movedFrom object))

def destroyAll (names : List (Fin count)) : Using (Option (Fin count)) V Tag Unit :=
  names.forM fun name => clear kind (some name)

theorem destroyAll_cons (name : Fin count) (rest : List (Fin count)) :
    destroyAll kind (name :: rest) = (do clear kind (some name); destroyAll kind rest) := rfl

def initial (stale : Tag) (contents : Fin count → V) : Variables count V Tag :=
  ⟨⟨fun name => name.map contents, count, 0⟩, fun name => name.elim stale fun name => kind (contents name)⟩

end Commands

section Rules

variable {Name : Type} [DecidableEq Name] [DecidableEq Tag] {kind : V → Tag} {payload : Payload V}
  {object : Name → Option V} {flag : Name → Tag} {name other : Name} {content : V} {tag : Tag}

omit [DecidableEq Name] in
theorem returns_useAs (lives : object name = some content) (fits : kind content = tag) :
    Returns (At object flag) (useAs kind name tag) content (At object flag) := by
  refine (returns_onCells (Cells.returns_use lives)).bind ?_
  rw [if_pos fits]
  exact .pure _ _

theorem returns_clear (lives : object name = some content) (fits : kind content = flag name) :
    Returns (At object flag) (clear kind name) () (At (Function.update object name none) flag) := by
  refine returns_readTag.bind ((returns_onCells (Cells.returns_look object name)).bind ?_)
  rw [lives, Option.map_some, fits, if_pos rfl]
  exact returns_onCells (Cells.returns_destroy lives)

theorem returns_copyAs (raw : object name = none) (lives : object other = some content) (fits : kind content = tag)
    (quiet : payload.copyThrows content = false) :
    Returns (At object flag) (copyAs kind payload name other tag) ()
      (At (Function.update object name (some content)) flag) := by
  refine (returns_useAs lives fits).bind ?_
  rw [quiet]
  exact returns_onCells (Cells.returns_construct raw content)

theorem fails_copyAs (lives : object other = some content) (fits : kind content = tag)
    (throws : payload.copyThrows content = true) :
    Fails (At object flag) (copyAs kind payload name other tag) .thrown (At object flag) := by
  refine Fails.second (returns_useAs lives fits) ?_
  rw [throws]
  exact .throw _ _

theorem returns_moveAs (raw : object name = none) (lives : object other = some content) (fits : kind content = tag)
    (quiet : payload.moveThrows content = false) :
    Returns (At object flag) (moveAs kind payload name other tag) ()
      (At (Function.update (Function.update object name (some content)) other (some (payload.movedFrom content)))
        flag) := by
  have apart : other ≠ name := by
    rintro rfl
    simp [raw] at lives
  refine (returns_useAs lives fits).bind ?_
  rw [quiet]
  exact (returns_onCells (Cells.returns_construct raw content)).bind
    (returns_onCells (Cells.returns_assign ((Function.update_of_ne apart ..).trans lives) _))

theorem fails_moveAs (lives : object other = some content) (fits : kind content = tag)
    (throws : payload.moveThrows content = true) :
    Fails (At object flag) (moveAs kind payload name other tag) .thrown (At object flag) := by
  refine Fails.second (returns_useAs lives fits) ?_
  rw [throws]
  exact .throw _ _

omit [DecidableEq Name] in
theorem fails_useAs (raw : object name = none) :
    Fails (At object flag) (useAs kind name tag) (.misuse .usesDead) (At object flag) :=
  (fails_onCells (Cells.fails_use raw)).bind _

theorem clear_raw {tagged : Tagged Name V Tag} (raw : tagged.cells.object name = none) :
    clear kind name tagged = (.error (.misuse .destroysDead), tagged) := by
  simp [clear, readTag, onCells, onPart, Cells.look, raw]

end Rules

section Places

variable {Value Content : Type} {values : Fin count → Value}

def withLocal (values : Fin count → Value) (local_ : Value) : Option (Fin count) → Value :=
  fun name => name.elim local_ values

theorem update_withLocal (name : Fin count) (local_ value : Value) :
    Function.update (withLocal values local_) (some name) value =
      withLocal (Function.update values name value) local_ := by
  funext other
  cases other with
  | none => rfl
  | some other =>
    by_cases same : other = name
    · simp [withLocal, same]
    · simp [withLocal, same]

theorem update_withLocal_none (local_ value : Value) :
    Function.update (withLocal values local_) none value = withLocal values value := by
  funext other
  cases other <;> rfl

theorem update_withLocal_comp (read : Content → Value) (contents : Fin count → Content) (name : Fin count)
    (local_ : Value)
    (content : Content) : Function.update (withLocal (read ∘ contents) local_) (some name) (read content) =
      withLocal (read ∘ Function.update contents name content) local_ := by
  rw [update_withLocal, Function.comp_update]

def Settled (objects : Fin count → Option V) (tags : Fin count → Tag) (tagged : Variables count V Tag) : Prop :=
  ∃ stale, At (withLocal objects none) (withLocal tags stale) tagged

end Places

section Contents

variable [DecidableEq Tag] {kind : V → Tag}

abbrev filled (contents : Fin count → V) (local_ : Option V) : Option (Fin count) → Option V :=
  withLocal (some ∘ contents) local_

abbrev kinds (kind : V → Tag) (contents : Fin count → V) (local_ : Tag) : Option (Fin count) → Tag :=
  withLocal (kind ∘ contents) local_

/-- The variables have these contents, and no local one is left. -/
abbrev Represents (kind : V → Tag) (contents : Fin count → V) (tagged : Variables count V Tag) : Prop :=
  Settled (some ∘ contents) (kind ∘ contents) tagged

omit [DecidableEq Tag] in
theorem represents_of_at {contents : Fin count → V} {stale : Tag} {tagged : Variables count V Tag}
    (at_ : At (filled contents none) (kinds kind contents stale) tagged) :
    Represents kind contents tagged := ⟨stale, at_⟩

variable {contents : Fin count → V}

theorem update_filled (name : Fin count) (local_ : Option V) (content : V) :
    Function.update (filled contents local_) (some name) (some content) =
      filled (Function.update contents name content) local_ :=
  update_withLocal_comp some contents name local_ content

theorem update_filled_none (local_ content : Option V) :
    Function.update (filled contents local_) none content = filled contents content :=
  update_withLocal_none local_ content

omit [DecidableEq Tag] in
theorem update_kinds (name : Fin count) (local_ : Tag) (content : V) :
    Function.update (kinds kind contents local_) (some name) (kind content) =
      kinds kind (Function.update contents name content) local_ :=
  update_withLocal_comp kind contents name local_ content

omit [DecidableEq Tag] in
theorem update_kinds_none (local_ tag : Tag) :
    Function.update (kinds kind contents local_) none tag = kinds kind contents tag :=
  update_withLocal_none local_ tag

omit [DecidableEq Tag] in
theorem kinds_update {name : Fin count} {content : V} (local_ : Tag) (same : kind content = kind (contents name)) :
    kinds kind (Function.update contents name content) local_ = kinds kind contents local_ := by
  rw [← update_kinds, same]
  exact Function.update_eq_self (some name) _

omit [DecidableEq Tag] in
theorem represents_initial (stale : Tag) (contents : Fin count → V) :
    Represents kind contents (initial kind stale contents) := by
  refine ⟨stale, ?_, ?_⟩
  · funext name
    cases name <;> rfl
  · funext name
    cases name <;> rfl

omit [DecidableEq Tag] in
theorem counted_initial (stale : Tag) (contents : Fin count → V) : (initial kind stale contents).Counted := by
  have all : Cells.live (initial kind stale contents).cells.object = Finset.univ.map Function.Embedding.some := by
    ext name
    cases name <;> simp [Cells.live, initial]
  show count = 0 + (Cells.live (initial kind stale contents).cells.object).card
  rw [all, Finset.card_map, Finset.card_fin, Nat.zero_add]

abbrev Performs (kind : V → Tag) (contents : Fin count → V) (command : Using (Option (Fin count)) V Tag α)
    (outcome : Except Ending α) (next : Fin count → V) : Prop :=
  EndsWith (Represents kind contents) command outcome (Represents kind next)

variable {command : Using (Option (Fin count)) V Tag α} {outcome : Except Ending α} {next : Fin count → V}
    {name : Fin count}
  {tag : Tag} {answer : α}

omit [DecidableEq Tag] in
theorem Performs.returns (returned : ∀ stale,
      Returns (At (filled contents none) (kinds kind contents stale)) command answer (Represents kind next)) :
    Performs kind contents command (.ok answer) next := by
  rintro tagged ⟨stale, at_⟩
  exact returned stale tagged at_

omit [DecidableEq Tag] in
theorem Performs.throws (failed : ∀ stale,
      Fails (At (filled contents none) (kinds kind contents stale)) command .thrown (Represents kind next)) :
    Performs kind contents command (.error .thrown) next := by
  rintro tagged ⟨stale, at_⟩
  exact failed stale tagged at_

omit [DecidableEq Tag] in
theorem performs_return (answer : α) :
    Performs kind contents (return answer : Using (Option (Fin count)) V Tag α) (.ok answer) contents :=
  fun _ represents => ⟨rfl, represents⟩

omit [DecidableEq Tag] in
theorem performs_throw (ending : Ending) :
    Performs kind contents (throw ending : Using (Option (Fin count)) V Tag α) (.error ending) contents :=
  fun _ represents => ⟨rfl, represents⟩

omit [DecidableEq Tag] in
theorem Performs.bind {β : Type} {following : α → Using (Option (Fin count)) V Tag β} {last : Except Ending β}
    {final : Fin count → V} (first : Performs kind contents command (.ok answer) next)
    (second : Performs kind next (following answer) last final) :
    Performs kind contents (command >>= following) last final := by
  intro tagged represents
  obtain ⟨returned, represents⟩ := first tagged represents
  rw [Command.bind_apply, returned]
  exact second _ represents

omit [DecidableEq Tag] in
theorem Performs.map {β : Type} (change : α → β) (performed : Performs kind contents command outcome next) :
    Performs kind contents (do let answer ← command; return change answer) (outcome.map change) next := by
  intro tagged represents
  obtain ⟨same, represents⟩ := performed tagged represents
  rw [Command.bind_apply, same]
  cases outcome with
  | error failure => exact ⟨rfl, represents⟩
  | ok answer => exact ⟨rfl, represents⟩

omit [DecidableEq Tag] in
theorem performs_readTag {following : Tag → Using (Option (Fin count)) V Tag α}
    (rest : Performs kind contents (following (kind (contents name))) outcome next) :
    Performs kind contents (readTag (some name) >>= following) outcome next := by
  rintro tagged ⟨stale, at_⟩
  obtain ⟨read, at_⟩ := returns_readTag tagged at_
  rw [Command.bind_apply, read]
  exact rest _ ⟨stale, at_⟩

theorem performs_useAs (fits : kind (contents name) = tag) :
    Performs kind contents (useAs kind (some name) tag) (.ok (contents name)) contents := by
  rintro tagged ⟨stale, at_⟩
  have lives : filled contents none (some name) = some (contents name) := rfl
  obtain ⟨used, at_⟩ := returns_useAs lives fits tagged at_
  exact ⟨used, stale, at_⟩

end Contents

section Keeping

variable {Name : Type} [DecidableEq Name] [DecidableEq Tag] {kind : V → Tag} {payload : Payload V}
  {sound : Cells Name V → Prop} {may : Name → Prop} {name other : Name} {tag : Tag}

theorem keeps_useAs (kept : Cells.Kept sound may) : Keeps sound (useAs kind name tag) :=
  (keeps_onCells (kept.use name)).bind fun _ _ => (keeps_return _).ite (keeps_throw _)

theorem keeps_clear (kept : Cells.Kept sound may) : Keeps sound (clear kind name) :=
  keeps_readTag.bind fun _ _ => (keeps_onCells (kept.look name)).bind fun _ _ =>
    (keeps_onCells (kept.destroy name)).ite (keeps_throw _)

theorem keeps_copyAs (kept : Cells.Kept sound may) (here : may name) :
    Keeps sound (copyAs kind payload name other tag) :=
  (keeps_useAs kept).bind fun object _ => (keeps_throw _).ite (keeps_onCells (kept.construct name object here))

theorem keeps_moveAs (kept : Cells.Kept sound may) (here : may name) :
    Keeps sound (moveAs kind payload name other tag) :=
  (keeps_useAs kept).bind fun object _ => (keeps_throw _).ite <|
    (keeps_onCells (kept.construct name object here)).bind fun _ _ => keeps_onCells (kept.assign other _)

theorem keeps_destroyAll {sound : Cells (Option (Fin count)) V → Prop} {may : Option (Fin count) → Prop}
    (kept : Cells.Kept sound may) (names : List (Fin count)) : Keeps sound (destroyAll kind names) :=
  keeps_forM (fun _ => keeps_clear kept) names

end Keeping

section Ends

variable [DecidableEq Tag] {kind : V → Tag} {contents : Fin count → V}

def Misused (outcome : Except Ending α) : Prop := ∃ misuse, outcome = .error (.misuse misuse)

def Broken (tagged : Variables count V Tag) : Prop := ∃ name : Fin count, tagged.cells.object (some name) = none

def Ends (kind : V → Tag) (tagged : Variables count V Tag) : Prop :=
  (destroyAll kind (List.finRange count) tagged).1 = .ok ()

theorem not_ends_of_broken (tagged : Variables count V Tag) (broken : Broken tagged) : ¬ Ends kind tagged := by
  obtain ⟨name, raw⟩ := broken
  have general : ∀ names : List (Fin count), name ∈ names → ∀ tagged : Variables count V Tag,
      tagged.cells.object (some name) = none → (destroyAll kind names tagged).1 ≠ .ok () := by
    intro names
    induction names with
    | nil => nofun
    | cons first rest ih =>
      intro member tagged raw
      by_cases same : first = name
      · rw [destroyAll_cons, Command.bind_apply, same, clear_raw raw]
        nofun
      · have left : (clear kind (some first) tagged).2.cells.object (some name) = none :=
          (keeps_clear (Cells.kept_raw (some name)) tagged raw).1
        rw [destroyAll_cons, Command.bind_apply]
        cases outcome : (clear kind (some first) tagged).1 with
        | error failure => nofun
        | ok _ => exact ih ((List.mem_cons.mp member).resolve_left fun equal => same equal.symm) _ left
  exact general _ (List.mem_finRange name) tagged raw

theorem returns_destroyAll (names : List (Fin count)) (distinct : names.Nodup) (object : Option (Fin count) → Option V)
    (stale : Tag) (lives : ∀ name ∈ names, object (some name) = some (contents name)) :
    Returns (At object (kinds kind contents stale)) (destroyAll kind names) ()
      (At (fun name => if ∃ gone ∈ names, name = some gone then none else object name)
        (kinds kind contents stale)) := by
  induction names generalizing object with
  | nil =>
    intro tagged at_
    simpa [destroyAll] using at_
  | cons name rest ih =>
    obtain ⟨fresh, distinct⟩ := List.nodup_cons.mp distinct
    have left : ∀ other ∈ rest, Function.update object (some name) none (some other) = some (contents other) := by
      intro other member
      have apart : other ≠ name := fun equal => fresh (equal ▸ member)
      rw [Function.update_of_ne (fun equal => apart (Option.some.inj equal))]
      exact lives other (List.mem_cons_of_mem _ member)
    refine ((returns_clear (lives name List.mem_cons_self) rfl).bind (ih distinct _ left)).weaken
      (fun _ at_ => at_) fun tagged at_ => ?_
    convert at_ using 2 with other
    by_cases same : other = some name
    · simp [same]
    · simp [same]

theorem ends_of_represents (tagged : Variables count V Tag) (represents : Represents kind contents tagged) :
    Ends kind tagged := by
  obtain ⟨stale, at_⟩ := represents
  exact (returns_destroyAll _ (List.nodup_finRange count) (filled contents none) stale (fun _ _ => rfl) tagged at_).1

theorem destroyAll_balances (tagged : Variables count V Tag) (represents : Represents kind contents tagged)
    (counted : tagged.Counted) :
    (destroyAll kind (List.finRange count) tagged).2.cells.constructed =
      (destroyAll kind (List.finRange count) tagged).2.cells.destroyed := by
  obtain ⟨stale, at_⟩ := represents
  have left := (returns_destroyAll _ (List.nodup_finRange count) (filled contents none) stale (fun _ _ => rfl) tagged
      at_).2.1
  have balanced : Tagged.Counted (destroyAll kind (List.finRange count) tagged).2 :=
    (keeps_destroyAll Cells.kept_balanced (List.finRange count) tagged counted).1
  refine Cells.Balanced.eq_of_raw balanced fun name => ?_
  rw [left]
  cases name <;> simp [withLocal]

end Ends

section Runs

variable [DecidableEq Tag] {kind : V → Tag} {Op Answer : Type}
  {step : Op → Variables count V Tag → Except Ending Answer × Variables count V Tag}
  {spec : Op → (Fin count → V) → Except Ending Answer × (Fin count → V)} {Good : Op → (Fin count → V) → Prop}

/-- Operations that do as their contents say where they are good, and break a variable where not, are defined
to the end exactly if all of them are good; and then they balance. -/
theorem run_defined_iff (stale : Tag)
    (performs : ∀ op contents, Good op contents →
      Performs kind contents (step op) (spec op contents).1 (spec op contents).2)
    (clean : ∀ op contents misuse, (spec op contents).1 ≠ .error (.misuse misuse))
    (counts : ∀ op, Keeps Cells.Balanced (step op))
    (breaks : ∀ op tagged contents, Represents kind contents tagged → ¬ Good op contents → Broken (step op tagged).2)
    (broken : ∀ op tagged, Broken tagged → Misused (step op tagged).1 ∨ Broken (step op tagged).2)
    (ops : List Op) (contents : Fin count → V) :
    let ran := run step ops (initial kind stale contents)
    let good := EveryStep spec Good ops contents
    ((∀ answer ∈ ran.1, ¬ Misused answer) ∧ Ends kind ran.2 ↔ good) ∧
      (good → ran.1 = (run spec ops contents).1 ∧
        (destroyAll kind (List.finRange count) ran.2).2.cells.constructed =
          (destroyAll kind (List.finRange count) ran.2).2.cells.destroyed) := by
  -- what each good step keeps: the variables stand for the contents, and the ledger is right
  have simulates : ∀ op tagged contents, Represents kind contents tagged ∧ tagged.Counted → Good op contents →
      (step op tagged).1 = (spec op contents).1 ∧
        Represents kind (spec op contents).2 (step op tagged).2 ∧ (step op tagged).2.Counted := by
    rintro op tagged contents ⟨represents, counted⟩ good
    obtain ⟨answer, next⟩ := performs op contents good tagged represents
    exact ⟨answer, next, (counts op tagged counted).1⟩
  have start : Represents kind contents (initial kind stale contents) ∧ (initial kind stale contents).Counted :=
    ⟨represents_initial stale contents, counted_initial stale contents⟩
  refine ⟨?_, fun good => ?_⟩
  · have clean : ∀ op tagged contents, Represents kind contents tagged ∧ tagged.Counted → Good op contents →
        ¬ Misused (step op tagged).1 ∧ Represents kind (spec op contents).2 (step op tagged).2 ∧
          (step op tagged).2.Counted := by
      intro op tagged contents related good
      obtain ⟨answer, next⟩ := simulates op tagged contents related good
      exact ⟨fun ⟨misuse, misused⟩ => clean op contents misuse (answer ▸ misused), next⟩
    have breaks : ∀ op tagged contents, Represents kind contents tagged ∧ tagged.Counted → ¬ Good op contents →
        Broken (step op tagged).2 := fun op tagged contents related loud => breaks op tagged contents related.1 loud
    exact run_clean_iff clean breaks broken (fun tagged _ related => ends_of_represents tagged related.1)
      not_ends_of_broken ops _ contents start
  · obtain ⟨answers, represents, counted⟩ := run_refines_while simulates ops _ contents start good
    exact ⟨answers, destroyAll_balances _ represents counted⟩

end Runs

end Cpptrace.Library.Tagged
