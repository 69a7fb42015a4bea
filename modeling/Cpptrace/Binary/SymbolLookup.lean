import Cpptrace.Binary.Elf

/-! The search of `elf::lookup_symbol` against the extents of the symbols.

The search looks at one entry, one with the greatest start up to the address; among
several, the sort decides which. The end of its extent counts as inside.
-/

set_option autoImplicit false

namespace Cpptrace.Binary

open Library Utils

def SymtabEntry.stEnd (entry : SymtabEntry) : Nat := entry.stValue.toNat + entry.stSize.toNat

/-- The symbols of a table as they are in the file, each with an extent and a name. -/
structure SymbolTable where
  strtab : Bytes
  entries : List SymtabEntry
  sized : ∀ entry ∈ entries, entry.stSize ≠ 0
  fits : ∀ entry ∈ entries, entry.stEnd < 2 ^ 64
  named : ∀ entry ∈ entries, entry.stName.toNat < strtab.length

def Covers (pc : FramePtr) (entry : SymtabEntry) : Prop := entry.stValue ≤ pc ∧ pc.toNat < entry.stEnd

namespace SymbolTable

variable (table : SymbolTable)

abbrev Built : Type := Sorting SymtabEntry.stValue (table.entries.filter fun entry => entry.stSize ≠ 0)

def nameOf (entry : SymtabEntry) : Text :=
  ((table.strtab.drop entry.stName.toNat).takeWhile (· ≠ 0)).map fun byte => Char.ofNat byte.toNat

/-- A name that is found is that of a symbol around the address, and one is found if there is such a symbol. -/
def LooksUp (pc : FramePtr) (built : table.Built) : Prop :=
  (∀ name, findSymbol pc built.sorted table.strtab = .ok (some name) →
    ∃ entry ∈ table.entries, Covers pc entry ∧ table.nameOf entry = name) ∧
  ((∃ entry ∈ table.entries, Covers pc entry) → ∃ name, findSymbol pc built.sorted table.strtab = .ok (some name))

/-- The symbols that start nearest below an address decide about it: each is around the address, or ends
at it and has its name from one that is, or ends below it where no symbol is around it. -/
def NearestDecides (pc : FramePtr) : Prop :=
  ∀ entry, Greatest SymtabEntry.stValue pc table.entries entry →
    Covers pc entry ∨
    (pc.toNat = entry.stEnd ∧ ∃ other ∈ table.entries, Covers pc other ∧ table.nameOf other = table.nameOf entry) ∨
    (entry.stEnd < pc.toNat ∧ ∀ other ∈ table.entries, ¬ Covers pc other)

variable {table} {pc : FramePtr}

theorem filter_sized : (table.entries.filter fun entry => entry.stSize ≠ 0) = table.entries := by
  simpa using table.sized

theorem findSymbol_none {sorted : List SymtabEntry} {strtab : Bytes}
    (missing : firstLessThanOrEqual SymtabEntry.stValue pc sorted = none) :
    findSymbol pc sorted strtab = .ok none := by
  rw [findSymbol, missing]
  rfl

theorem findSymbol_some {sorted : List SymtabEntry} {entry : SymtabEntry} (member : entry ∈ table.entries)
    (found : firstLessThanOrEqual SymtabEntry.stValue pc sorted = some entry) :
    findSymbol pc sorted table.strtab =
      .ok (if pc.toNat ≤ entry.stEnd then some (table.nameOf entry) else none) := by
  -- the end of a named entry does not wrap
  have sum : (entry.stValue + entry.stSize).toNat = entry.stEnd := by
    rw [UInt64.toNat_add]
    exact Nat.mod_eq_of_lt (table.fits entry member)
  rw [findSymbol, found]
  simp only [UInt64.le_iff_toNat_le, sum]
  split
  · rw [stringAt, if_pos (table.named entry member)]
    rfl
  · rfl

theorem looksUp_iff_of_found {built : table.Built} {entry : SymtabEntry}
    (nearest : Greatest SymtabEntry.stValue pc table.entries entry)
    (found : firstLessThanOrEqual SymtabEntry.stValue pc built.sorted = some entry) :
    table.LooksUp pc built ↔
      Covers pc entry ∨
      (pc.toNat = entry.stEnd ∧ ∃ other ∈ table.entries, Covers pc other ∧ table.nameOf other = table.nameOf entry) ∨
      (entry.stEnd < pc.toNat ∧ ∀ other ∈ table.entries, ¬ Covers pc other) := by
  have search := findSymbol_some nearest.member found
  -- the code compares with `<=`, so an address at the end is answered like one inside
  rcases lt_trichotomy pc.toNat entry.stEnd with inside | atEnd | behind
  · have covers : Covers pc entry := ⟨nearest.le, inside⟩
    rw [if_pos (le_of_lt inside)] at search
    refine ⟨fun _ => .inl covers, fun _ => ⟨fun name same => ?_, fun _ => ⟨_, search⟩⟩⟩
    rw [search] at same
    exact ⟨entry, nearest.member, covers, Option.some.inj (Except.ok.inj same)⟩
  · rw [if_pos (le_of_eq atEnd)] at search
    constructor
    · intro looks
      obtain ⟨other, member, covers, named⟩ := looks.1 _ search
      exact .inr (.inl ⟨atEnd, other, member, covers, named⟩)
    · rintro (covers | ⟨-, other, member, covers, named⟩ | ⟨behind, -⟩)
      · exact absurd atEnd (ne_of_lt covers.2)
      · refine ⟨fun name same => ?_, fun _ => ⟨_, search⟩⟩
        rw [search] at same
        exact ⟨other, member, covers, named.trans (Option.some.inj (Except.ok.inj same))⟩
      · exact absurd atEnd.symm (ne_of_lt behind)
  · rw [if_neg (not_le.mpr behind)] at search
    constructor
    · intro looks
      refine .inr (.inr ⟨behind, fun other member covers => ?_⟩)
      obtain ⟨name, found'⟩ := looks.2 ⟨other, member, covers⟩
      rw [search] at found'
      cases found'
    · rintro (covers | ⟨atEnd, -⟩ | ⟨-, none⟩)
      · exact absurd covers.2 (not_lt.mpr (le_of_lt behind))
      · exact absurd atEnd.symm (ne_of_lt behind)
      · refine ⟨fun name same => ?_, fun ⟨other, member, covers⟩ => absurd covers (none other member)⟩
        rw [search] at same
        cases same

theorem looksUp_of_missing {built : table.Built}
    (missing : firstLessThanOrEqual SymtabEntry.stValue pc built.sorted = none) :
    table.LooksUp pc built := by
  have search : findSymbol pc built.sorted table.strtab = .ok none := findSymbol_none missing
  have above := (built.found_none_iff pc).mp missing
  rw [filter_sized] at above
  refine ⟨fun name same => ?_, fun ⟨entry, member, covers⟩ => absurd covers.1 (above entry member)⟩
  rw [search] at same
  cases same

end SymbolTable

/-- Whatever the sort does with symbols of one start, the search is right about an address just where the
nearest symbols below decide about it. -/
theorem looksUp_iff (table : SymbolTable) (pc : FramePtr) :
    (∀ built, table.LooksUp pc built) ↔ table.NearestDecides pc := by
  constructor
  · intro looks entry nearest
    have nearest' : Greatest SymtabEntry.stValue pc (table.entries.filter fun entry => entry.stSize ≠ 0) entry := by
      rw [SymbolTable.filter_sized]
      exact nearest
    -- some order that the sort may leave puts this entry where the search looks
    obtain ⟨built, found⟩ := Sorting.exists_found pc entry nearest'
    exact (SymbolTable.looksUp_iff_of_found nearest found).mp (looks built)
  · intro decides built
    cases found : firstLessThanOrEqual SymtabEntry.stValue pc built.sorted with
    | none => exact SymbolTable.looksUp_of_missing found
    | some entry =>
      have nearest := built.found_greatest pc entry found
      rw [SymbolTable.filter_sized] at nearest
      exact (SymbolTable.looksUp_iff_of_found nearest found).mpr (decides entry nearest)

def oneSymbol : SymbolTable where
  strtab := [0x66, 0]
  entries := [⟨0, 0x12, 0, 1, 0x1000, 0x10⟩]
  sized := by decide
  fits := by decide
  named := by decide

theorem looksUp_fails : ¬ oneSymbol.LooksUp 0x1010 (Sorting.inserted SymtabEntry.stValue _) := by
  intro looks
  obtain ⟨entry, member, covers, -⟩ := looks.1 "f".toList (by decide)
  rw [List.mem_singleton.mp member] at covers
  revert covers
  unfold Covers
  decide

end Cpptrace.Binary
