import Mixdown.Fault

/-! Guest memory and the addresses at which the signal processor reaches it. -/

namespace Mixdown

/-- A region of guest memory and where the signal processor sees it. -/
structure MemoryPool where
  cpuAddress : Nat
  dspAddress : Nat
  size : Nat
  deriving DecidableEq, Repr

/-- A range lies in a pool when it ends inside the address space and inside the pool. -/
def MemoryPool.contains (pool : MemoryPool) (address size : Nat) : Bool :=
  -- The pool's own end is held below the end of the address space.
  address + size < addressSpace &&
    pool.cpuAddress ≤ address &&
    address + size ≤ min (pool.cpuAddress + pool.size) (addressSpace - 1)

/-- How guest addresses are mapped to those of the signal processor. -/
structure AddressMap where
  /-- The address of a range for the signal processor, if it reaches the range. -/
  locate (address size : Nat) : Except Fault (Option Nat)

namespace AddressMap

/-- Every address stands for itself; an empty range has none. -/
def identity : AddressMap where
  locate address size := .ok (if address = 0 ∨ size = 0 then none else some address)

/-- An address is looked up in the first pool that contains its range; an empty range has none. -/
def pools (regions : List MemoryPool) : AddressMap where
  locate address size :=
    if address = 0 ∨ size = 0 then .ok none
    -- The first pool that contains the range decides, even if its shifted address overflows.
    else match regions.find? (·.contains address size) with
      | none => .ok none
      | some pool => some <$> checkedSize (pool.dspAddress + (address - pool.cpuAddress))

end AddressMap

end Mixdown
