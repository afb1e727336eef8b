import Mixdown.Proofs.Effect.Bay

/-! The results that the guest finds beside a slot are its own, whatever the other slots do. -/

namespace Mixdown.Effect

/-- A block is another one with a value at its front, or is the other one when there is no value. -/
def ResultBlock.Publishes (reader : Reader α) (width : Nat) (value : Option α)
    (old new : ResultBlock) : Prop :=
  match value with
  | none => new = old
  | some value => old.Carries reader width value new

/--
The blocks that are found beside a slot, on the guest's and the processor's side, after the slot
published its state and the guest took over the result.
-/
def Slot.Answers (states : States) (guest shared taken published : ResultBlock) : Slot → Prop
  | .empty | .biquad _ => taken = guest ∧ published = shared
  | .limiter slot => taken = published ∧
    shared.Publishes Limiter.State.reader 0x28 (slot.state.bind (states.limiter[·]?)) published
  | .compressor slot => taken = published ∧
    shared.Publishes Compressor.Statistics.reader 0x20
      ((slot.state.bind (states.compressor[·]?)).map Compressor.State.statistics) published

namespace Slot

/-- The guest's block after it took over the processor's, as far as the slot lets it. -/
def takeOver (slot : Slot) (guest shared : ResultBlock) : ResultBlock :=
  match slot with
  | .empty | .biquad _ => guest
  | .limiter _ | .compressor _ => shared

/-- A slot that cannot be shared leaves the guest its block, at whichever index it stands. -/
theorem share_eq (slot : Slot) (index : Nat) (guest shared : ResultBlock) :
    (slot.share index guest shared).toOption.getD guest = slot.takeOver guest shared := by
  cases slot <;> rfl

/-- The blocks after publishing and taking over are those that the slot answers with. -/
theorem answers (slot : Slot) (states : States) (guest shared : ResultBlock) :
    slot.Answers states guest shared (slot.takeOver guest (slot.publish states shared))
      (slot.publish states shared) := by
  -- Only limiters and compressors have a state to publish, once they have run.
  cases slot with
  | empty => exact ⟨rfl, rfl⟩
  | biquad slot => exact ⟨rfl, rfl⟩
  | limiter slot =>
    refine ⟨rfl, ?_⟩
    simp only [publish, ResultBlock.Publishes]
    cases slot.state.bind (states.limiter[·]?) with
    | none => rfl
    | some state =>
      exact ResultBlock.carries_overwrite Limiter.State.takes_reader
        (Limiter.State.reads_encode state) (by decide) shared
  | compressor slot =>
    refine ⟨rfl, ?_⟩
    simp only [publish, ResultBlock.Publishes]
    cases slot.state.bind (states.compressor[·]?) with
    | none => rfl
    | some state =>
      exact ResultBlock.carries_overwrite Compressor.Statistics.takes_reader
        (Compressor.Statistics.reads_encode state.statistics) (by decide) shared

/-- What a slot publishes depends on the states at its own places only. -/
theorem publish_congr {slot : Slot} {states others : States}
    (same : ∀ place ∈ slot.places, others.read place = states.read place) (block : ResultBlock) :
    slot.publish others block = slot.publish states block := by
  -- A slot publishes from the one place that it holds.
  cases slot with
  | empty => rfl
  | biquad slot => rfl
  | limiter slot =>
    cases placed : slot.state with
    | none => simp only [publish, placed, Option.bind_none]
    | some handle =>
      have own : others.limiter[handle]? = states.limiter[handle]? :=
        Option.map_injective (fun _ _ => Memory.limiter.inj)
          (same (.limiter handle) (by simp [places, placed]))
      simp only [publish, placed, Option.bind_some, own]
  | compressor slot =>
    cases placed : slot.state with
    | none => simp only [publish, placed, Option.bind_none]
    | some handle =>
      have own : others.compressor[handle]? = states.compressor[handle]? :=
        Option.map_injective (fun _ _ => Memory.compressor.inj)
          (same (.compressor handle) (by simp [places, placed]))
      simp only [publish, placed, Option.bind_some, own]

end Slot

/-- The bay after its slot published its state and the guest took over the result, if both sides
have a block for the slot. -/
def Bay.answer (states : States) (bay : Bay) : Bay where
  slot := bay.slot
  guest := match bay.guest, bay.shared with
    | some guest, some shared => some (bay.slot.takeOver guest (bay.slot.publish states shared))
    | guest, _ => guest
  shared := bay.shared.map (bay.slot.publish states)

namespace Rack

/-- Blocks after each was changed by the item at its place; blocks without an item stay. -/
def overlay (change : α → ResultBlock → ResultBlock) :
    List α → List ResultBlock → List ResultBlock
  | item :: items, block :: blocks => change item block :: overlay change items blocks
  | _, blocks => blocks

/-- A block is changed by the item at its own place, and by no other. -/
theorem overlay_getElem? (change : α → ResultBlock → ResultBlock) (items : List α)
    (blocks : List ResultBlock) (index : Nat) :
    (overlay change items blocks)[index]? =
      match items[index]? with
      | some item => blocks[index]?.map (change item)
      | none => blocks[index]? := by
  -- Items and blocks are gone through together, and the longer list has the rest.
  induction items generalizing blocks index with
  | nil => simp [overlay]
  | cons item items ih =>
    cases blocks with
    | nil =>
      simp only [overlay, List.getElem?_nil, Option.map_none]
      split <;> rfl
    | cons block blocks =>
      cases index with
      | zero => rfl
      | succ index => simpa [overlay] using ih blocks index

/-- Slots publish to the blocks at their places. -/
theorem publishFrom_eq_overlay (states : States) (slots : List Slot) (blocks : List ResultBlock) :
    publishFrom states slots blocks = overlay (fun slot => slot.publish states) slots blocks := by
  -- The slots and the blocks are gone through together.
  induction slots generalizing blocks with
  | nil => rfl
  | cons slot slots ih =>
    cases blocks with
    | nil => rfl
    | cons block blocks => exact congrArg _ (ih blocks)

/-- The guest takes over the blocks at the places of slots that have one on the other side. -/
theorem shareFrom_eq_overlay (start : Nat) (slots : List Slot) (guest shared : List ResultBlock) :
    shareFrom start slots guest shared =
      overlay (fun pair block => pair.1.takeOver block pair.2) (slots.zip shared) guest := by
  -- Three lists are gone through together, of which the shortest ends the change.
  induction slots generalizing start guest shared with
  | nil => rfl
  | cons slot slots ih =>
    cases guest with
    | nil => cases shared <;> rfl
    | cons block guest =>
      cases shared with
      | nil => rfl
      | cons result shared =>
        rw [shareFrom, Slot.share_eq, ih]
        rfl

/-- Publishing and taking over turn each bay into the one that its own slot answers with. -/
theorem bay?_share_publish (rack : Rack) (states : States) (index : Nat) :
    (rack.publish states).share.bay? index = (rack.bay? index).map (Bay.answer states) := by
  -- At each index there is a slot or none, and blocks on either side or none.
  simp only [bay?, publish, share, shareFrom_eq_overlay, publishFrom_eq_overlay, overlay_getElem?,
    List.zip, List.getElem?_zipWith]
  cases rack.slots[index]? with
  | none => rfl
  | some slot =>
    cases rack.guest[index]? <;> cases rack.shared[index]? <;> rfl

/--
After slots published their states and the guest took over the results, each slot that has a block on
both sides has answered in it by its own state. Blocks of the guest beyond the processor's stay as
they are, and so do the slots. A bay depends on no other bay, and on no states but its own slot's.
-/
theorem share_publish_own (rack : Rack) (states : States) :
    (∀ index slot guest shared, rack.bay? index = some ⟨slot, some guest, some shared⟩ →
      ∃ taken published,
        (rack.publish states).share.bay? index = some ⟨slot, some taken, some published⟩ ∧
          slot.Answers states guest shared taken published) ∧
      (∀ index, rack.shared.length ≤ index →
        (rack.publish states).share.guest[index]? = rack.guest[index]?) ∧
      (rack.publish states).share.slots = rack.slots ∧
      ∀ (other : Rack) (others : States) index bay, rack.bay? index = some bay →
        other.bay? index = some bay →
        (∀ place ∈ bay.slot.places, others.read place = states.read place) →
          (other.publish others).share.bay? index = (rack.publish states).share.bay? index := by
  refine ⟨fun index slot guest shared found => ?_, fun index beyond => ?_, rfl,
    fun other others index bay found alike same => ?_⟩
  · refine ⟨_, _, ?_, slot.answers states guest shared⟩
    rw [bay?_share_publish, found]
    rfl
  · -- There is nothing to take over, whether or not there is a slot.
    have unshared : (rack.publish states).shared[index]? = none := by
      simp only [publish, publishFrom_eq_overlay, overlay_getElem?,
        List.getElem?_eq_none beyond, Option.map_none]
      split <;> rfl
    simp only [share, shareFrom_eq_overlay, overlay_getElem?, List.zip, List.getElem?_zipWith,
      unshared]
    cases (rack.publish states).slots[index]? <;> rfl
  · rw [bay?_share_publish, bay?_share_publish, found, alike]
    simp only [Option.map_some, Bay.answer, funext (Slot.publish_congr same)]

/-- Behind an empty slot a limiter publishes its own state, and a slot beyond the blocks nothing. -/
theorem share_publish_own_limiter :
    let state : Limiter.State := { Limiter.State.initial with peakHoldCount := 7 }
    let states : States := ⟨#[], #[state], #[]⟩
    let slot : Slot := .limiter ⟨.new, .zero, some 0⟩
    let rack : Rack := ⟨[.empty, slot, slot], [.zero, .zero, .zero], [.zero, .zero]⟩
    let other : Rack := ⟨[.biquad .new, slot], [.zero, .zero], [.zero, .zero]⟩
    (∃ taken published,
      (rack.publish states).share.bay? 1 = some ⟨slot, some taken, some published⟩ ∧
        taken = published ∧ taken.view? Limiter.State.reader = some state) ∧
      (rack.publish states).share.guest[2]? = some .zero ∧
      (other.publish .empty).share.bay? 0 = (other.publish states).share.bay? 0 ∧
      (other.publish states).share.bay? 1 = (rack.publish states).share.bay? 1 := by
  intro state states slot rack other
  obtain ⟨answers, beyond, -, alone⟩ := share_publish_own rack states
  obtain ⟨taken, published, found, same, carries⟩ := answers 1 slot .zero .zero rfl
  obtain ⟨-, -, -, filtered⟩ := share_publish_own other states
  -- A filter that has not run holds no places, so it does not matter which states there are.
  have none : (Slot.biquad .new).places = [] := Slot.create_places .biquad
  have free : ∀ place ∈ (Slot.biquad .new).places,
      States.empty.read place = states.read place := by simp [none]
  exact ⟨⟨taken, published, found, same, same ▸ carries.shows⟩, beyond 2 (by decide),
    filtered other .empty 0 _ rfl rfl free, alone other states 1 _ rfl rfl fun _ _ => rfl⟩

end Rack

end Mixdown.Effect
