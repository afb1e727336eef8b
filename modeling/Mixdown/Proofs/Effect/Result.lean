import Mixdown.Effect.Rack
import Mixdown.Proofs.Effect.Record

/-! A result block shows at its front what was written there, and keeps the bytes behind it. -/

namespace Mixdown.Effect.ResultBlock

variable {reader : Reader α} {width : Nat} {front : Bytes} {value : α}

/-- A block with a value of some bytes at its front, which is another block behind them. -/
structure Carries (reader : Reader α) (width : Nat) (value : α) (old new : ResultBlock) : Prop where
  shows : new.view? reader = some value
  behind : ∀ i : Fin resultSize, width ≤ i.val → new.get i = old.get i

/-- A byte of an overwritten block is one of the front's, or the block's own behind the front. -/
theorem overwrite_get (block : ResultBlock) (front : Bytes) (i : Fin resultSize) :
    (block.overwrite front).get i = front[i.val]?.getD (block.get i) := by
  have own : (block.overwrite front).get i = front.toArray[i.val]?.getD (block.get i) :=
    Vector.getElem_ofFn i.isLt
  rw [own, List.getElem?_toArray]

/-- An overwritten block is the front, with the block's own bytes behind it. -/
theorem overwrite_toList (block : ResultBlock) (fits : front.length ≤ resultSize) :
    (block.overwrite front).toList = front ++ block.toList.drop front.length := by
  refine List.ext_getElem (by simp; omega) fun i inside _ => ?_
  have inside : i < resultSize := by simpa using inside
  have own : (block.overwrite front)[i] = front[i]?.getD block[i] :=
    overwrite_get block front ⟨i, inside⟩
  rcases Nat.lt_or_ge i front.length with before | behind
  · simpa [List.getElem_append_left before, List.getElem?_eq_getElem before] using own
  · simpa [List.getElem_append_right behind, List.getElem?_eq_none behind, behind] using own

/-- What is written at the front of a block is shown there. -/
theorem carries_overwrite (takes : Reader.Takes reader width)
    (read : Reader.Reads reader front value) (fits : width ≤ resultSize) (block : ResultBlock) :
    Carries reader width value block (block.overwrite front) := by
  have length := takes.length_eq read
  constructor
  case shows =>
    rw [view?, overwrite_toList block (length.trans_le fits)]
    exact Reader.front?_eq_some.mpr ⟨_, read _⟩
  case behind =>
    intro i behind
    rw [overwrite_get, List.getElem?_eq_none (length.trans_le behind), Option.getD_none]

end Mixdown.Effect.ResultBlock
