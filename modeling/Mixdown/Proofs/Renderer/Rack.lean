import Mixdown.Proofs.Config.Records
import Mixdown.Renderer

/-! The rack of a session holds the slots that the stages of its configuration describe. -/

namespace Mixdown

open Effect (Slot)

/-- The slots of a configuration's stages in order. -/
def Config.slots (config : Config) (channels : Nat) : List Slot :=
  config.stages.zipIdx.map fun (stage, order) =>
    stage.slot (Renderer.recordVersion config.revision) channels order

namespace Renderer

variable (config : Config) {channels : Nat}

/-- The rack of a session is created and holds the slots of its stages. -/
theorem createRack_eq (positive : 0 < channels) (few : channels ≤ maxChannels) :
    ∃ rack, createRack config channels = .ok rack ∧ rack.slots = config.slots channels := by
  have sized : (Effect.Rack.create config.stages.length config.stages.length).size =
      config.stages.length := List.length_replicate
  have answers : AddressMap.identity.locate 0 0 = .ok none := rfl
  obtain ⟨records, rack, made, length, ran, size, each⟩ := config.exists_update_records positive few
    sized answers (recordVersion config.revision)
  -- The slots are as many as the stages, and each is looked at in its place.
  have lengths : rack.slots.length = (config.slots channels).length :=
    (size.trans sized).trans (by simp [Config.slots])
  refine ⟨rack, ?_, List.ext_getElem lengths fun index inside _ => ?_⟩
  · simp only [createRack, made, length, Except.mapError, ok_bind, ran, pure_eq_ok]
  · -- An empty slot becomes the one that the stage in its place describes.
    have filled : index < config.stages.length := inside.trans_eq (size.trans sized)
    have empty : (List.replicate config.stages.length Slot.empty)[index]? = some .empty :=
      List.getElem?_replicate_of_lt filled
    obtain ⟨new, here, received⟩ := each index _ .empty (List.getElem?_eq_getElem filled) empty
    obtain rfl := Except.ok.inj (received.symm.trans (Stage.receive_record _ _ few index))
    rw [List.getElem?_eq_getElem inside] at here
    simp only [Option.some.inj here, Config.slots, List.getElem_map, List.getElem_zipIdx,
      Nat.zero_add]

/-- The slots of a session's stages work on its channels in place, and have not run yet. -/
theorem slots_within (few : channels ≤ maxChannels) :
    ∀ slot ∈ config.slots channels, slot.Within channels ∧ slot.places = [] := by
  intro slot here
  obtain ⟨⟨stage, order⟩, -, rfl⟩ := List.mem_map.mp here
  exact ⟨stage.slot_within _ few order, stage.slot_places _ channels order⟩

end Renderer

end Mixdown
