import Cpptrace.Basic
import Mathlib.Data.List.Infix
import Mathlib.Data.List.Pairwise

/-! Address ranges, and the runs they are coalesced into.

A range list is coalesced from the front: a range that starts where the one
before it ends, or one byte later, is merged onto it. The difference is taken in
64 bits, so a range that starts at 0 is also merged onto one that ends at the
last address.
-/

set_option autoImplicit false

namespace Cpptrace.Dwarf

structure Range where
  low : FramePtr
  high : FramePtr
  deriving DecidableEq, Repr

namespace Range

def contains (range : Range) (pc : FramePtr) : Bool :=
  range.low ≤ pc && pc < range.high

def Nonempty (range : Range) : Prop := range.low < range.high

def Disjoint (range other : Range) : Prop :=
  min range.high other.high ≤ max range.low other.low

instance (range : Range) : Decidable range.Nonempty :=
  inferInstanceAs (Decidable (_ < _))

instance (range other : Range) : Decidable (range.Disjoint other) :=
  inferInstanceAs (Decidable (_ ≤ _))

theorem contains_iff (range : Range) (pc : FramePtr) :
    range.contains pc = true ↔ range.low ≤ pc ∧ pc < range.high := by
  simp [contains]

theorem Nonempty.contains_low {range : Range} (nonempty : range.Nonempty) : range.contains range.low = true :=
  (range.contains_iff range.low).mpr ⟨le_refl _, nonempty⟩

theorem Disjoint.symm {range other : Range} (disjoint : range.Disjoint other) : other.Disjoint range := by
  rw [Disjoint, min_comm, max_comm]
  exact disjoint

theorem Disjoint.not_both {range other : Range} (disjoint : range.Disjoint other) {pc : FramePtr}
    (inside : range.contains pc = true) : other.contains pc = false := by
  rw [contains_iff] at inside
  rw [← Bool.not_eq_true, contains_iff]
  rintro ⟨above, below⟩
  have starts : max range.low other.low ≤ pc := max_le inside.1 above
  exact absurd (le_trans disjoint starts) (not_le.mpr (lt_min inside.2 below))

end Range

/-- Of things whose ranges are all disjoint, at most one covers an address. -/
theorem unique_of_disjoint {Thing : Type} (ranges : Thing → List Range) {things : List Thing}
    (disjoint : (things.flatMap ranges).Pairwise Range.Disjoint) {thing other : Thing}
    (member : thing ∈ things) (listed : other ∈ things) {range range' : Range}
    (mine : range ∈ ranges thing) (theirs : range' ∈ ranges other) {pc : FramePtr}
    (inside : range.contains pc = true) (within : range'.contains pc = true) : thing = other := by
  by_contra differ
  have symmetric : Std.Symm fun thing other : Thing =>
      ∀ range ∈ ranges thing, ∀ range' ∈ ranges other, range.Disjoint range' :=
    ⟨fun _ _ apart range' theirs range mine => (apart range mine range' theirs).symm⟩
  have apart := (List.pairwise_flatMap.mp disjoint).2.forall member listed differ
  rw [(apart range mine range' theirs).not_both inside] at within
  cases within

/-- A range that starts at `low` is merged onto one that ends at `high`. -/
def merges (high low : FramePtr) : Prop := low - high ≤ 1

instance (high low : FramePtr) : Decidable (merges high low) := inferInstanceAs (Decidable (_ ≤ _))

theorem merges_iff (high low : FramePtr) : merges high low ↔ low = high ∨ low = high + 1 := by
  simp only [merges]
  grind

/-- The callback of `get_rangelist_entries`. -/
def pushRange (vec : List Range) (range : Range) : List Range :=
  match vec.getLast? with
  | some back => if merges back.high range.low then vec.dropLast ++ [⟨back.low, range.high⟩] else vec ++ [range]
  | none => vec ++ [range]

def coalesce (ranges : List Range) : List Range :=
  ranges.foldl pushRange []

/-- The addresses at which runs start, behind a range that ends at `high`. -/
def runStartsFrom : FramePtr → List Range → List FramePtr
  | _, [] => []
  | high, range :: rest =>
      if merges high range.low then runStartsFrom range.high rest
      else range.low :: runStartsFrom range.high rest

def runStarts : List Range → List FramePtr
  | [] => []
  | range :: rest => range.low :: runStartsFrom range.high rest

theorem foldl_pushRange_lows (vec : List Range) (back : Range) (ranges : List Range) :
    (ranges.foldl pushRange (vec ++ [back])).map Range.low =
      (vec ++ [back]).map Range.low ++ runStartsFrom back.high ranges := by
  induction ranges generalizing vec back with
  | nil => simp [runStartsFrom]
  | cons range rest ih =>
    simp only [List.foldl_cons, pushRange, List.getLast?_concat, List.dropLast_concat, runStartsFrom]
    split
    · rw [ih]
      simp
    · rw [ih]
      simp

theorem coalesce_lows (ranges : List Range) : (coalesce ranges).map Range.low = runStarts ranges := by
  cases ranges with
  | nil => rfl
  | cons range rest => exact foldl_pushRange_lows [] range rest

theorem coalesce_eq_nil_iff (ranges : List Range) : coalesce ranges = [] ↔ ranges = [] := by
  rw [← List.map_eq_nil_iff (f := Range.low), coalesce_lows]
  cases ranges <;> simp [runStarts]

theorem runStartsFrom_append (high : FramePtr) (before : List Range) (range : Range) (rest : List Range) :
    runStartsFrom high (before ++ range :: rest) =
      runStartsFrom high (before ++ [range]) ++ runStartsFrom range.high rest := by
  induction before generalizing high with
  | nil =>
    simp only [List.nil_append, runStartsFrom]
    split <;> rfl
  | cons first before ih =>
    simp only [List.cons_append, runStartsFrom, ih]
    split <;> rfl

theorem runStarts_append (before : List Range) (range : Range) (rest : List Range) :
    runStarts (before ++ range :: rest) = runStarts (before ++ [range]) ++ runStartsFrom range.high rest := by
  cases before with
  | nil => rfl
  | cons first before =>
    simp only [List.cons_append, runStarts, runStartsFrom_append first.high before range rest]

theorem mem_runStartsFrom (high : FramePtr) (ranges : List Range) (start : FramePtr)
    (member : start ∈ runStartsFrom high ranges) : ∃ range ∈ ranges, range.low = start := by
  induction ranges generalizing high with
  | nil => cases member
  | cons range rest ih =>
    simp only [runStartsFrom] at member
    split at member
    · obtain ⟨other, within, same⟩ := ih range.high member
      exact ⟨other, List.mem_cons_of_mem _ within, same⟩
    · rcases List.mem_cons.mp member with rfl | later
      · exact ⟨range, List.mem_cons_self, rfl⟩
      · obtain ⟨other, within, same⟩ := ih range.high later
        exact ⟨other, List.mem_cons_of_mem _ within, same⟩

theorem mem_runStarts (ranges : List Range) (start : FramePtr) (member : start ∈ runStarts ranges) :
    ∃ range ∈ ranges, range.low = start := by
  cases ranges with
  | nil => cases member
  | cons range rest =>
    rcases List.mem_cons.mp member with rfl | later
    · exact ⟨range, List.mem_cons_self, rfl⟩
    · obtain ⟨other, within, same⟩ := mem_runStartsFrom range.high rest start later
      exact ⟨other, List.mem_cons_of_mem _ within, same⟩

/-- A range that is merged onto the one before it starts no run of its own. -/
theorem runStarts_of_merged (before : List Range) (range next : Range) (after : List Range)
    (merged : merges range.high next.low) (start : FramePtr)
    (member : start ∈ runStarts (before ++ range :: next :: after)) :
    ∃ other ∈ before ++ range :: after, other.low = start := by
  rw [runStarts_append, runStartsFrom, if_pos merged] at member
  rcases List.mem_append.mp member with front | back
  · obtain ⟨other, within, same⟩ := mem_runStarts _ start front
    refine ⟨other, ?_, same⟩
    rcases List.mem_append.mp within with within | within <;> simp_all
  · obtain ⟨other, within, same⟩ := mem_runStartsFrom _ _ start back
    exact ⟨other, by simp [within], same⟩

def NoWrap (ranges : List Range) : Prop :=
  ∀ range next, [range, next] <:+: ranges → ¬ (range.high + 1 = 0 ∧ next.low = 0)

def IsGap (ranges : List Range) (gap : FramePtr) : Prop :=
  ∃ range next, [range, next] <:+: ranges ∧ range.high = gap ∧ next.low = gap + 1

/-- From the start of its run up to a range there are only ranges and gaps of one byte. -/
theorem exists_runStart (before : List Range) (range : Range) (after : List Range)
    (noWrap : NoWrap (before ++ range :: after))
    (nonempty : ∀ other ∈ before ++ range :: after, other.Nonempty) :
    ∃ start ∈ runStarts (before ++ range :: after), start ≤ range.low ∧
      ∀ address, start ≤ address → address < range.high →
        (∃ other ∈ before ++ range :: after, other.contains address = true) ∨
        IsGap (before ++ range :: after) address := by
  induction before using List.reverseRecOn generalizing range after with
  | nil =>
    refine ⟨range.low, List.mem_cons_self, le_refl _, fun address above below => ?_⟩
    exact .inl ⟨range, List.mem_cons_self, (range.contains_iff address).mpr ⟨above, below⟩⟩
  | append_singleton before last ih =>
    rw [List.append_assoc, List.singleton_append] at noWrap nonempty ⊢
    have within : ∀ address, range.low ≤ address → address < range.high →
        ∃ other ∈ before ++ last :: range :: after, other.contains address = true := fun address above below =>
      ⟨range, by simp, (range.contains_iff address).mpr ⟨above, below⟩⟩
    by_cases merged : merges last.high range.low
    · obtain ⟨start, member, le, covered⟩ := ih last (range :: after) noWrap nonempty
      have linked : [last, range] <:+: before ++ last :: range :: after := ⟨before, after, by simp⟩
      have ascending : range.low = last.high ∨ (range.low = last.high + 1 ∧ last.high < range.low) := by
        have unwrapped := noWrap last range linked
        rcases (merges_iff ..).mp merged with same | next
        · exact .inl same
        · refine .inr ⟨next, ?_⟩
          rw [next] at unwrapped ⊢
          grind
      have lower : last.low < last.high := nonempty last (by simp)
      refine ⟨start, member, by rcases ascending with same | ⟨-, above⟩ <;> grind, fun address above below => ?_⟩
      -- an address beyond the range before is in this one, or is the byte between them
      by_cases inside : address < last.high
      · exact covered address above inside
      · rcases ascending with same | ⟨next, -⟩
        · exact .inl (within address (by grind) below)
        · by_cases reached : range.low ≤ address
          · exact .inl (within address reached below)
          · have between : address = last.high := by grind
            exact .inr ⟨last, range, linked, between.symm, by rw [between, next]⟩
    · refine ⟨range.low, ?_, le_refl _, fun address above below => .inl (within address above below)⟩
      rw [runStarts_append, runStartsFrom, if_neg merged]
      simp

structure Separate (ranges : List Range) : Prop where
  nonempty : ∀ range ∈ ranges, range.Nonempty
  disjoint : ranges.Pairwise Range.Disjoint

theorem Separate.not_runStart {ranges : List Range} (separate : Separate ranges) {range next : Range}
    (linked : [range, next] <:+: ranges) (merged : merges range.high next.low) :
    next.low ∉ runStarts ranges := by
  obtain ⟨before, after, rfl⟩ := linked
  intro member
  rw [List.append_assoc, List.cons_append, List.singleton_append] at member
  obtain ⟨other, within, same⟩ := runStarts_of_merged before range next after merged _ member
  have inside : next.contains next.low = true := (separate.nonempty next (by simp)).contains_low
  have touching : other.contains next.low = true := same ▸ (separate.nonempty other (by
    rcases List.mem_append.mp within with within | within
    · simp [within]
    · rcases List.mem_cons.mp within with rfl | within
      · simp
      · simp [within])).contains_low
  have pairwise := separate.disjoint
  rw [List.append_assoc, List.cons_append, List.singleton_append, List.pairwise_append] at pairwise
  have apart : other.Disjoint next := by
    rcases List.mem_append.mp within with front | back
    · exact pairwise.2.2 other front next (by simp)
    · obtain ⟨first, others⟩ := List.pairwise_cons.mp pairwise.2.1
      rcases List.mem_cons.mp back with rfl | back
      · exact first next (by simp)
      · exact ((List.pairwise_cons.mp others).1 other back).symm
  rw [apart.not_both touching] at inside
  cases inside

end Cpptrace.Dwarf
