/-! Faults end a computation whose arithmetic or indexing leaves its domain. -/

namespace Mixdown

/-- The reasons for which a computation can stop without an answer. -/
inductive Fault where
  /-- An integer result does not fit its machine type. -/
  | overflow
  /-- An index or a range lies outside the data it selects from. -/
  | outOfBounds
  /-- A divisor is zero. -/
  | zeroDivisor
  /-- Rows that must have one length have several. -/
  | unequalRows
  /-- A chain of links does not end within the pool it runs through. -/
  | endlessChain
  deriving DecidableEq, Repr

/-- Sizes and addresses are numbers below this bound. -/
def addressSpace : Nat := UInt64.size

/-- A size, which faults when it leaves the address space. -/
def checkedSize (size : Nat) : Except Fault Nat :=
  if size < addressSpace then .ok size else .error .overflow

/-- A signed word of 64 bits, which faults when the value needs more. -/
def checkedWord (value : Int) : Except Fault Int64 :=
  if Int64.minValue.toInt ≤ value ∧ value ≤ Int64.maxValue.toInt then .ok (Int64.ofInt value)
  else .error .overflow

/-- A signed buffer index of 16 bits, which faults when the value needs more. -/
def checkedIndex (value : Int) : Except Fault Int16 :=
  if Int16.minValue.toInt ≤ value ∧ value ≤ Int16.maxValue.toInt then .ok (Int16.ofInt value)
  else .error .overflow

/-- The least multiple of the alignment that is not below the value. -/
def alignUp (value alignment : Nat) : Except Fault Nat := do
  -- The sum is formed before one is taken away, so it is the sum that can overflow.
  let sum ← checkedSize (value + alignment)
  if sum = 0 then .error .overflow
  else if alignment = 0 then .error .zeroDivisor
  else checkedSize ((sum - 1) / alignment * alignment)

/-- The element at an index, which faults when there is none. -/
def fetch (items : Array α) (index : Nat) : Except Fault α :=
  if inside : index < items.size then .ok items[index] else .error .outOfBounds

/-- The array with one element replaced, which faults when there is none at the index. -/
def store (items : Array α) (index : Nat) (item : α) : Except Fault (Array α) :=
  if inside : index < items.size then .ok (items.set index item) else .error .outOfBounds

/-- A computation goes on with the value it has found. -/
@[simp] theorem ok_bind (value : α) (next : α → Except ε β) :
    (Except.ok value >>= next) = next value := rfl

/-- A fault ends the computation. -/
@[simp] theorem error_bind (fault : ε) (next : α → Except ε β) :
    (Except.error fault >>= next) = .error fault := rfl

/-- A value alone is a computation that finds it. -/
@[simp] theorem pure_eq_ok (value : α) : (pure value : Except ε α) = .ok value := rfl

/-- A function is applied to the value that was found. -/
@[simp] theorem map_ok (change : α → β) (value : α) :
    change <$> (Except.ok value : Except ε α) = .ok (change value) := rfl

/-- A computation in two parts finds a value when the second part finds it from the first one's. -/
theorem bind_eq_ok {first : Except ε α} {next : α → Except ε β} {value : β} :
    (first >>= next) = .ok value ↔ ∃ found, first = .ok found ∧ next found = .ok value := by
  -- A fault in the first part is the fault of the whole.
  cases first with
  | error fault => simp
  | ok found => simp

/-- Rounding up succeeds when there is room for the alignment above the value. -/
theorem alignUp_eq_ok {value alignment : Nat} (room : value + alignment < addressSpace)
    (positive : 0 < alignment) :
    alignUp value alignment = .ok ((value + alignment - 1) / alignment * alignment) := by
  -- Rounding up stays below the sum that was checked.
  have below := Nat.div_mul_le_self (value + alignment - 1) alignment
  have fits : (value + alignment - 1) / alignment * alignment < addressSpace := by omega
  have sum : value + alignment ≠ 0 := by omega
  have divisor : alignment ≠ 0 := by omega
  simp only [alignUp, checkedSize, room, sum, divisor, fits, if_true, if_false, ok_bind]

/-- An element that is there is fetched. -/
theorem fetch_eq_ok {items : Array α} {index : Nat} {item : α} (held : items[index]? = some item) :
    fetch items index = .ok item := by
  -- Looking the element up proves that its index is inside.
  obtain ⟨inside, same⟩ := Array.getElem?_eq_some_iff.mp held
  simp [fetch, inside, same]

/-- An element is stored at an index that is there. -/
theorem store_eq_ok {items : Array α} {index : Nat} (inside : index < items.size) (item : α) :
    store items index item = .ok (items.setIfInBounds index item) := by
  simp [store, inside, Array.setIfInBounds]

/-- What has been stored lies at an index that is there, and nothing else has changed. -/
theorem eq_of_store {items after : Array α} {index : Nat} {item : α}
    (stored : store items index item = .ok after) :
    index < items.size ∧ after = items.setIfInBounds index item := by
  -- Outside the array nothing is stored.
  by_cases inside : index < items.size
  · rw [store_eq_ok inside] at stored
    exact ⟨inside, (Except.ok.inj stored).symm⟩
  · simp [store, inside] at stored

end Mixdown
