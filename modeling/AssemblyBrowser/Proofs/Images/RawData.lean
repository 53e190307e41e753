import AssemblyBrowser.Image.Basic
import AssemblyBrowser.Proofs.Outcomes

/-!
# Addresses and raw data

An address belongs to the first section that takes it in memory, and stands as far
behind the section's place in the file as behind its place in memory. What a
section takes in memory may be more than its raw data, and the two sizes are not
compared. So an offset is inside the raw data exactly for the addresses that the
raw data reach; only of these are different ones told apart by their offsets.
-/

namespace AssemblyBrowser

/-- The numbers from `first` on, as many as `size`. -/
structure Range where
  first : Nat
  size : Nat

namespace Range

def Holds (range : Range) (n : Nat) : Prop := range.first ≤ n ∧ n < range.first + range.size

def Apart (range other : Range) : Prop := ∀ n, range.Holds n → ¬ other.Holds n

instance (range : Range) (n : Nat) : Decidable (range.Holds n) :=
  inferInstanceAs (Decidable (_ ∧ _))

theorem apart_of_le {range other : Range} (h : range.first + range.size ≤ other.first) :
    range.Apart other := by
  intro n hn hother
  exact absurd (Nat.le_trans h hother.1) (Nat.not_le.mpr hn.2)

end Range

namespace Section

variable (s : Section)

/-- The addresses that a section takes in memory. -/
def memory : Range := ⟨s.virtualAddress.toNat, s.virtualSize.toNat⟩

/-- The offsets of a section's raw data in the file. -/
def raw : Range := ⟨s.rawPointer.toNat, s.rawSize.toNat⟩

/-- Whether the addresses of a section are addresses of 32 bits. -/
def Ends : Prop := s.memory.first + s.memory.size < UInt32.size

/-- The offset that belongs to an address of the section. -/
def offsetOf (rva : Nat) : Nat := s.raw.first + (rva - s.memory.first)

/-- Whether the raw data reach as far behind their beginning as the address is. -/
def Reaches (rva : Nat) : Prop := rva - s.memory.first < s.raw.size

instance : Decidable s.Ends := inferInstanceAs (Decidable (_ < _))

instance (rva : Nat) : Decidable (s.Reaches rva) := inferInstanceAs (Decidable (_ < _))

variable {s}

theorem raw_holds_offsetOf_iff {rva : Nat} : s.raw.Holds (s.offsetOf rva) ↔ s.Reaches rva := by
  unfold Range.Holds offsetOf Reaches
  constructor
  · rintro ⟨_, hlast⟩
    exact Nat.lt_of_add_lt_add_left hlast
  · intro hreaches
    exact ⟨Nat.le_add_right .., Nat.add_lt_add_left hreaches _⟩

/-- Inside one section, different addresses have different offsets. -/
theorem offsetOf_injective {first second : Nat} (hfirst : s.memory.Holds first)
    (hsecond : s.memory.Holds second) (h : s.offsetOf first = s.offsetOf second) :
    first = second := by
  have hle : s.memory.first ≤ first := hfirst.1
  have hle' : s.memory.first ≤ second := hsecond.1
  unfold offsetOf at h
  omega

theorem offsetOf_lt_positions {rva : Nat} (h : rva < UInt32.size) :
    rva - s.memory.first + s.raw.first < Bounded.positions := by
  have hraw : s.raw.first < UInt32.size := s.rawPointer.toNat_lt
  have hroom : 2 * UInt32.size < Bounded.positions := by decide
  omega

end Section

namespace Image

/-!
## The section of an address
-/

/-- The first section of a list that takes an address. Neither it nor those in front of it go
beyond the addresses of 32 bits. -/
inductive FirstSpanning (rva : Nat) (s : Section) : List Section → Prop where
  | here {rest : List Section} (hends : s.Ends) (hholds : s.memory.Holds rva) :
      FirstSpanning rva s (s :: rest)
  | later {first : Section} {rest : List Section} (hends : first.Ends)
      (hnot : ¬ first.memory.Holds rva) (hrest : FirstSpanning rva s rest) :
      FirstSpanning rva s (first :: rest)

variable {rva : Nat} {s : Section} {sections : List Section}

theorem FirstSpanning.mem (h : FirstSpanning rva s sections) : s ∈ sections := by
  induction h with
  | here => exact List.mem_cons_self
  | later _ _ _ ih => exact List.mem_cons_of_mem _ ih

theorem FirstSpanning.holds (h : FirstSpanning rva s sections) : s.memory.Holds rva := by
  induction h with
  | here _ hholds => exact hholds
  | later _ _ _ ih => exact ih

theorem firstSpanning_cons_iff {first : Section} {rest : List Section} :
    FirstSpanning rva s (first :: rest) ↔
      first.Ends ∧ (first.memory.Holds rva ∧ s = first ∨
        ¬ first.memory.Holds rva ∧ FirstSpanning rva s rest) := by
  constructor
  · intro h
    cases h with
    | here hends hholds => exact ⟨hends, .inl ⟨hholds, rfl⟩⟩
    | later hends hnot hrest => exact ⟨hends, .inr ⟨hnot, hrest⟩⟩
  · rintro ⟨hends, ⟨hholds, rfl⟩ | ⟨hnot, hrest⟩⟩
    · exact .here hends hholds
    · exact .later hends hnot hrest

theorem offsetIn_eq_ok {offset : Nat} (hrva : rva < UInt32.size) :
    offsetIn rva sections = .ok offset ↔
      ∃ s, FirstSpanning rva s sections ∧ offset = s.offsetOf rva := by
  induction sections with
  | nil =>
      constructor
      · intro h
        cases h
      · rintro ⟨s, hs, _⟩
        cases hs
  | cons first rest ih =>
      simp only [firstSpanning_cons_iff, offsetIn]
      split
      case isTrue hover =>
        constructor
        · intro h
          cases h
        · rintro ⟨s, ⟨hends, _⟩, _⟩
          exact absurd hends (Nat.not_lt.mpr hover)
      case isFalse hover =>
        have hends : first.Ends := Nat.not_le.mp hover
        split
        case isTrue hholds =>
          have hbegun : first.virtualAddress.toNat ≤ rva := hholds.1
          have hholds : first.memory.Holds rva := hholds
          have hroom := first.offsetOf_lt_positions hrva
          have hoffset : (do
              Bounded.add Bounded.positions (← Bounded.subtract rva first.virtualAddress.toNat)
                first.rawPointer.toNat) = .ok (first.offsetOf rva) := by
            rw [Bounded.subtract_eq_ok hbegun, Outcome.ok_bind]
            exact (Bounded.add_eq_ok hroom).trans (congrArg _ (Nat.add_comm ..))
          rw [hoffset, Except.ok.injEq]
          constructor
          · intro h
            exact ⟨first, ⟨hends, .inl ⟨hholds, rfl⟩⟩, h.symm⟩
          · rintro ⟨s, ⟨_, ⟨_, rfl⟩ | ⟨hnot, _⟩⟩, hs⟩
            · exact hs.symm
            · exact absurd hholds hnot
        case isFalse hnot =>
          have hnot : ¬ first.memory.Holds rva := hnot
          simp only [ih, hends, hnot, true_and, false_and, false_or, not_false_eq_true]

theorem rvaToOffset_eq_ok (image : Image) {offset : Nat} :
    image.rvaToOffset rva = .ok offset ↔
      rva < UInt32.size ∧ ∃ s, FirstSpanning rva s image.sections ∧ offset = s.offsetOf rva := by
  unfold rvaToOffset
  split
  case isTrue hlarge =>
    constructor
    · intro h
      cases h
    · rintro ⟨hrva, _⟩
      exact absurd hrva (Nat.not_lt.mpr hlarge)
  case isFalse hsmall =>
    have hrva : rva < UInt32.size := Nat.not_le.mp hsmall
    rw [offsetIn_eq_ok hrva, and_iff_right hrva]

/-!
## Offsets inside raw data
-/

/-- Where raw data do not overlap, two addresses that raw data reach share an offset only if they
are the same. -/
theorem FirstSpanning.eq_of_offsetOf_eq
    (hraw : sections.Pairwise fun s other => s.raw.Apart other.raw) {first second : Nat}
    {other : Section} (hfirst : FirstSpanning first s sections)
    (hsecond : FirstSpanning second other sections) (hreached : s.Reaches first)
    (hreached' : other.Reaches second) (h : s.offsetOf first = other.offsetOf second) :
    first = second := by
  have hin : s.raw.Holds (s.offsetOf first) := Section.raw_holds_offsetOf_iff.mpr hreached
  have hin' : other.raw.Holds (s.offsetOf first) := by
    rw [h]
    exact Section.raw_holds_offsetOf_iff.mpr hreached'
  induction sections with
  | nil => cases hfirst
  | cons head rest ih =>
      rw [List.pairwise_cons] at hraw
      cases hfirst with
      | here _ hholds =>
          cases hsecond with
          | here _ hholds' => exact Section.offsetOf_injective hholds hholds' h
          | later _ _ hrest => exact absurd hin' (hraw.1 other hrest.mem _ hin)
      | later _ _ hrest =>
          cases hsecond with
          | here => exact absurd hin (hraw.1 s hrest.mem _ hin')
          | later _ _ hrest' => exact ih hraw.2 hrest hrest'

/-- An address has an offset exactly if a section takes it and all sections up to the first such one
end within 32 bits; it is the offset in that section. The offset is inside the section's raw data
exactly if these reach the address. Where the raw data of different sections do not overlap, no two
addresses that raw data reach have the same offset. -/
theorem offset_in_raw_data_iff (image : Image) :
    (∀ rva offset, image.rvaToOffset rva = .ok offset ↔
      rva < UInt32.size ∧ ∃ s, FirstSpanning rva s image.sections ∧ offset = s.offsetOf rva) ∧
    (∀ rva s, FirstSpanning rva s image.sections →
      s ∈ image.sections ∧ s.memory.Holds rva ∧
        (s.raw.Holds (s.offsetOf rva) ↔ s.Reaches rva)) ∧
    (image.sections.Pairwise (fun s other => s.raw.Apart other.raw) →
      ∀ first second offset, image.rvaToOffset first = .ok offset →
        image.rvaToOffset second = .ok offset →
        (∀ s, FirstSpanning first s image.sections → s.Reaches first) →
        (∀ s, FirstSpanning second s image.sections → s.Reaches second) → first = second) := by
  refine ⟨fun rva offset => image.rvaToOffset_eq_ok, ?_, ?_⟩
  · intro rva s hs
    exact ⟨hs.mem, hs.holds, Section.raw_holds_offsetOf_iff⟩
  · intro hraw first second offset hfirst hsecond hreached hreached'
    rcases image.rvaToOffset_eq_ok.mp hfirst with ⟨_, s, hs, hoffset⟩
    rcases image.rvaToOffset_eq_ok.mp hsecond with ⟨_, other, hother, hoffset'⟩
    exact hs.eq_of_offsetOf_eq hraw hother (hreached s hs) (hreached' other hother)
      (hoffset.symm.trans hoffset')

/-- Code that takes more in memory than in the file, and data behind it. -/
def twoSections : Image where
  data := #[]
  sections := [⟨0x2000, 0x300, 0x200, 0x200⟩, ⟨0x4000, 0x100, 0x400, 0x200⟩]
  runtimeHeader := ⟨0x2000, 72⟩

theorem twoSections_apart :
    twoSections.sections.Pairwise (fun s other => s.memory.Apart other.memory) ∧
      twoSections.sections.Pairwise fun s other => s.raw.Apart other.raw := by
  have hmemory : Range.Apart ⟨0x2000, 0x300⟩ ⟨0x4000, 0x100⟩ := Range.apart_of_le (by decide)
  have hraw : Range.Apart ⟨0x200, 0x200⟩ ⟨0x400, 0x200⟩ := Range.apart_of_le (by decide)
  unfold twoSections
  rw [List.pairwise_pair, List.pairwise_pair]
  exact ⟨hmemory, hraw⟩

/-- The last address that the code's raw data reach is the only one with its offset among those that
raw data reach. -/
theorem offset_in_raw_data_iff_last :
    twoSections.rvaToOffset 0x21FF = .ok 0x3FF ∧
      ∀ rva, twoSections.rvaToOffset rva = .ok 0x3FF →
        (∀ s, FirstSpanning rva s twoSections.sections → s.Reaches rva) → rva = 0x21FF := by
  have hlast : twoSections.rvaToOffset 0x21FF = .ok 0x3FF := by decide
  refine ⟨hlast, fun rva hrva hreached => ?_⟩
  refine (offset_in_raw_data_iff twoSections).2.2 twoSections_apart.2 rva 0x21FF 0x3FF hrva hlast
    hreached ?_
  intro s hs
  cases hs with
  | here => decide
  | later _ hnot _ => exact absurd (by decide) hnot

/-- Behind the raw data of a section, its addresses have the offsets of the next section's. -/
theorem address_beyond_raw_data :
    twoSections.sections.Pairwise (fun s other => s.memory.Apart other.memory) ∧
      twoSections.sections.Pairwise (fun s other => s.raw.Apart other.raw) ∧
      twoSections.rvaToOffset 0x2200 = .ok 0x400 ∧
      (∀ s ∈ twoSections.sections, s.memory.Holds 0x2200 → ¬ s.raw.Holds 0x400) ∧
      twoSections.rvaToOffset 0x4000 = .ok 0x400 := by
  refine ⟨twoSections_apart.1, twoSections_apart.2, by decide, by decide, by decide⟩

end Image
end AssemblyBrowser
