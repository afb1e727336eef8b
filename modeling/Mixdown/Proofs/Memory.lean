import Mixdown.Memory

/-!
A range of guest memory is reached through the first pool that holds it. Looking it up has a result
except when the address that the signal processor would see it at lies beyond the address space.
-/

namespace Mixdown

namespace MemoryPool

/-- A range lies in a pool when it begins and ends there, in numbers that have no end. -/
def Holds (pool : MemoryPool) (address size : Nat) : Prop :=
  pool.cpuAddress ≤ address ∧ address + size ≤ pool.cpuAddress + pool.size

instance {pool : MemoryPool} {address size : Nat} : Decidable (pool.Holds address size) :=
  inferInstanceAs (Decidable (_ ∧ _))

/-- Where the signal processor sees an address of a pool, in numbers that have no end. -/
def image (pool : MemoryPool) (address : Nat) : Nat :=
  pool.dspAddress + (address - pool.cpuAddress)

/-- A pool is the first one in a list that holds a range. -/
def IsFirst (pool : MemoryPool) (regions : List MemoryPool) (address size : Nat) : Prop :=
  ∃ before behind, regions = before ++ pool :: behind ∧ pool.Holds address size ∧
    ∀ earlier ∈ before, ¬earlier.Holds address size

variable {pool : MemoryPool} {address size : Nat}

/-- A pool contains a range that it holds when the range ends inside the address space. -/
theorem contains_iff : pool.contains address size ↔
    address + size < addressSpace ∧ pool.Holds address size := by
  simp only [contains, Holds, Bool.and_eq_true, decide_eq_true_eq, Nat.le_min]
  -- A range that ends inside the address space does not meet the bound on the pool's own end.
  omega

/-- What a pool holds is seen inside the pool's image. -/
theorem Holds.image_inside (holds : pool.Holds address size) :
    pool.dspAddress ≤ pool.image address ∧
      pool.image address + size ≤ pool.dspAddress + pool.size := by
  obtain ⟨begins, ends⟩ := holds
  simp only [image]
  omega

end MemoryPool

namespace AddressMap

variable {regions : List MemoryPool} {pool : MemoryPool} {address size : Nat}

/-- A range that ends inside the address space is found in the first pool that holds it. -/
theorem find?_eq_some : regions.find? (·.contains address size) = some pool ↔
    address + size < addressSpace ∧ pool.IsFirst regions address size := by
  rw [List.find?_eq_some_iff_append, MemoryPool.contains_iff]
  -- A pool is found when it contains the range and none before it does.
  constructor
  · rintro ⟨⟨inside, holds⟩, before, behind, split, passed⟩
    refine ⟨inside, before, behind, split, holds, fun earlier among held => ?_⟩
    -- An earlier pool that holds the range would have been found instead.
    have contained := MemoryPool.contains_iff.mpr ⟨inside, held⟩
    simpa [contained] using passed earlier among
  · rintro ⟨inside, before, behind, split, holds, passed⟩
    refine ⟨⟨inside, holds⟩, before, behind, split, fun earlier among => ?_⟩
    rw [Bool.not_eq_eq_eq_not, Bool.not_true, ← Bool.not_eq_true, MemoryPool.contains_iff]
    exact fun contained => passed earlier among contained.2

/-- A range is found in no pool just when it leaves the address space or no pool holds it. -/
theorem find?_eq_none : regions.find? (·.contains address size) = none ↔
    addressSpace ≤ address + size ∨ ∀ pool ∈ regions, ¬pool.Holds address size := by
  simp only [List.find?_eq_none, MemoryPool.contains_iff, not_and]
  rcases Nat.lt_or_ge (address + size) addressSpace with inside | outside
  · simp only [inside, forall_const, Nat.not_le.mpr inside, false_or]
  · simp only [outside, true_or, Nat.not_lt.mpr outside, false_implies, implies_true]

/-- A range that is empty or begins at zero has no address. -/
theorem locate_empty (empty : address = 0 ∨ size = 0) :
    (pools regions).locate address size = .ok none := if_pos empty

/-- Any other range is looked up in the first pool that contains it. -/
theorem locate_eq (begins : address ≠ 0) (filled : size ≠ 0) :
    (pools regions).locate address size =
      match regions.find? (·.contains address size) with
      | none => .ok none
      | some pool => some <$> checkedSize (pool.image address) :=
  if_neg (not_or.mpr ⟨begins, filled⟩)

/-- A range that leaves the address space or that no pool holds has no address. -/
theorem locate_missed (missed : addressSpace ≤ address + size ∨
    ∀ pool ∈ regions, ¬pool.Holds address size) :
    (pools regions).locate address size = .ok none := by
  -- An empty range is not looked up at all.
  by_cases empty : address = 0 ∨ size = 0
  · exact locate_empty empty
  · obtain ⟨begins, filled⟩ := not_or.mp empty
    rw [locate_eq begins filled, find?_eq_none.mpr missed]

/-- In the first pool that holds it, a range has the address of its image, or overflows. -/
theorem locate_first (begins : address ≠ 0) (filled : size ≠ 0)
    (inside : address + size < addressSpace) (first : pool.IsFirst regions address size) :
    (pools regions).locate address size =
      if pool.image address < addressSpace then .ok (some (pool.image address))
      else .error .overflow := by
  rw [locate_eq begins filled, find?_eq_some.mpr ⟨inside, first⟩]
  simp only [checkedSize]
  split
  · rfl
  · rfl

/-- A range is held by a pool, and its image in the first such pool begins beyond the address space. -/
def Overruns (regions : List MemoryPool) (address size : Nat) : Prop :=
  address ≠ 0 ∧ size ≠ 0 ∧ address + size < addressSpace ∧
    ∃ pool : MemoryPool, pool.IsFirst regions address size ∧ addressSpace ≤ pool.image address

/-- Looking up a range in pools faults just when it overruns, and then by an overflow. -/
theorem locate_eq_error (fault : Fault) : (pools regions).locate address size = .error fault ↔
    fault = .overflow ∧ Overruns regions address size := by
  constructor
  · intro failed
    -- The only check that can fail is that of the image's address.
    by_cases empty : address = 0 ∨ size = 0
    · rw [locate_empty empty] at failed
      cases failed
    obtain ⟨begins, filled⟩ := not_or.mp empty
    cases found : regions.find? (·.contains address size) with
    | none =>
      rw [locate_missed (find?_eq_none.mp found)] at failed
      cases failed
    | some pool =>
      obtain ⟨inside, first⟩ := find?_eq_some.mp found
      rw [locate_first begins filled inside first] at failed
      split at failed
      · cases failed
      · next beyond =>
        cases failed
        exact ⟨rfl, begins, filled, inside, pool, first, Nat.not_lt.mp beyond⟩
  · rintro ⟨rfl, begins, filled, inside, pool, first, beyond⟩
    rw [locate_first begins filled inside first, if_neg (Nat.not_lt.mpr beyond)]

/-- No range overruns pools whose images all end inside the address space. -/
theorem not_overruns (images : ∀ pool ∈ regions, pool.dspAddress + pool.size ≤ addressSpace) :
    ¬Overruns regions address size := by
  rintro ⟨-, filled, -, pool, ⟨before, behind, rfl, holds, -⟩, beyond⟩
  -- The range is not empty, so its image begins before the image of the pool ends.
  have below := holds.image_inside.2
  have ends := images pool (by simp)
  omega

/-- A range that some pool holds is held by a first one. -/
theorem exists_first (inside : address + size < addressSpace)
    (held : ∃ pool ∈ regions, pool.Holds address size) :
    ∃ pool : MemoryPool, pool.IsFirst regions address size := by
  -- The search finds a first pool unless none holds the range.
  cases found : regions.find? (·.contains address size) with
  | none =>
    obtain ⟨pool, among, holds⟩ := held
    rcases find?_eq_none.mp found with outside | missed
    · exact absurd outside (Nat.not_le.mpr inside)
    · exact absurd holds (missed pool among)
  | some pool => exact ⟨pool, (find?_eq_some.mp found).2⟩

/--
A range has no address when it is empty, begins at zero, leaves the address space or is held by no pool.
Any other range is seen inside the image of the first pool that holds it, and that is its address unless
the address space ends before. Nothing else faults, and nothing does when the images of all pools end
inside the address space.
-/
theorem pools_locate (regions : List MemoryPool) (address size : Nat) :
    (address = 0 ∨ size = 0 ∨ addressSpace ≤ address + size ∨
        (∀ pool ∈ regions, ¬pool.Holds address size) →
        (pools regions).locate address size = .ok none) ∧
      (address ≠ 0 → size ≠ 0 → address + size < addressSpace →
        (∃ pool ∈ regions, pool.Holds address size) →
        ∃ pool : MemoryPool, pool.IsFirst regions address size ∧
          pool.dspAddress ≤ pool.image address ∧
          pool.image address + size ≤ pool.dspAddress + pool.size ∧
          (pools regions).locate address size =
            if pool.image address < addressSpace then .ok (some (pool.image address))
            else .error .overflow) ∧
      (∀ fault, (pools regions).locate address size = .error fault ↔
        fault = .overflow ∧ Overruns regions address size) ∧
      ((∀ pool ∈ regions, pool.dspAddress + pool.size ≤ addressSpace) →
        ∃ found, (pools regions).locate address size = .ok found) := by
  -- Whether a pool holds the range decides between no address and the image's.
  refine ⟨?_, fun begins filled inside held => ?_, locate_eq_error, fun images => ?_⟩
  · rintro (zero | zero | missed)
    · exact locate_empty (.inl zero)
    · exact locate_empty (.inr zero)
    · exact locate_missed missed
  · obtain ⟨pool, first⟩ := exists_first inside held
    have ⟨_, _, _, holds, _⟩ := first
    exact ⟨pool, first, holds.image_inside.1, holds.image_inside.2,
      locate_first begins filled inside first⟩
  · cases ran : (pools regions).locate address size with
    | ok found => exact ⟨found, rfl⟩
    | error fault => exact absurd ((locate_eq_error fault).mp ran).2 (not_overruns images)

/-- A pool that the signal processor sees at the end of the address space has no room there for all
that it holds. -/
theorem pools_locate_overflows :
    let pool : MemoryPool := ⟨1, addressSpace - 1, 2⟩
    (2 + 1 < addressSpace ∧ pool.Holds 2 1) ∧
      (pools [pool]).locate 2 1 = .error .overflow :=
  ⟨by decide, rfl⟩

/-- Of two pools that hold a range the first one decides, up to the last address of the space. -/
theorem pools_locate_last :
    let regions : List MemoryPool :=
      [⟨1, 7, 1⟩, ⟨0x1000, addressSpace - 0x1000, 0x1000⟩, ⟨0x1800, 0, addressSpace⟩]
    (0x1FFF ≠ 0 ∧ 1 ≠ 0 ∧ 0x1FFF + 1 < addressSpace ∧
        (∃ pool ∈ regions, pool.Holds 0x1FFF 1) ∧
        ∀ pool ∈ regions, pool.dspAddress + pool.size ≤ addressSpace) ∧
      (∃ pool : MemoryPool, pool.IsFirst regions 0x1FFF 1 ∧
        pool.image 0x1FFF + 1 ≤ pool.dspAddress + pool.size) ∧
      (∃ found, (pools regions).locate 0x1FFF 1 = .ok found) ∧
      (pools regions).locate 0x1FFF 1 = .ok (some (addressSpace - 1)) ∧
      ((∀ pool ∈ regions, ¬pool.Holds 2 1) ∧ (pools regions).locate 2 1 = .ok none) := by
  intro regions
  have held : ∃ pool ∈ regions, pool.Holds 0x1FFF 1 := by decide
  have images : ∀ pool ∈ regions, pool.dspAddress + pool.size ≤ addressSpace := by decide
  have missed : ∀ pool ∈ regions, ¬pool.Holds 2 1 := by decide
  obtain ⟨-, first, -, ends⟩ := pools_locate regions 0x1FFF 1
  obtain ⟨pool, isFirst, -, below, -⟩ := first (by decide) (by decide) (by decide) held
  exact ⟨⟨by decide, by decide, by decide, held, images⟩, ⟨pool, isFirst, below⟩, ends images, rfl,
    missed, (pools_locate regions 2 1).1 (.inr (.inr (.inr missed)))⟩

end AddressMap

end Mixdown
