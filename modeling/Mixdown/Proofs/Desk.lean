import Mixdown.Proofs.Effect.Rack
import Mixdown.Proofs.Effect.Update
import Mixdown.Proofs.Footprint
import Mixdown.Proofs.Splitter.Filters
import Mixdown.Proofs.Splitter.Section

/-! Effects and destinations that share one mixer's states never share a state with each other. -/

namespace Mixdown

/-- An effect rack and a splitter graph whose filters keep their states in one mixer. -/
structure Desk where
  rack : Effect.Rack
  graph : Splitter.Graph
  mixer : Mixer

namespace Desk

/-- What can be done at a desk. -/
inductive Operation where
  /-- Records arrive for all effect slots. -/
  | receive (blob : Bytes) (version : Effect.Version) (map : AddressMap)
  /-- The commands of one effect slot are made. -/
  | generate (index : Nat) (offset : Int16) (double : Bool)
  /-- One effect slot goes on to the next frame. -/
  | advance (index : Nat)
  /-- Splitters and destinations are allocated anew. -/
  | allocate (revision : Revision) (splitters destinations : UInt32)
  /-- A section arrives for the splitters. -/
  | update (bytes : Bytes)
  /-- The commands of one destination's filters are made. -/
  | filter (index : Nat) (revision : Revision) (buffer : Int16)
  /-- Any commands are run. -/
  | process (commands : List Command)

/-- No byte string takes up more than half of the address space. -/
def Operation.Fits : Operation → Prop
  | update bytes => bytes.length < addressSpace / 2
  | _ => True

/-- A desk after an operation; a slot or a destination that is not there makes no commands. -/
def Operation.apply (desk : Desk) : Operation → Except Fault Desk
  | receive blob version map =>
    match (Effect.Rack.receiveAll blob version map).on desk.rack with
    | (.error (.fault fault), _) => .error fault
    -- What was written to the rack stays, also when the blob is refused.
    | (_, rack) => .ok { desk with rack }
  | generate index offset double =>
    match desk.rack.slots[index]? with
    | none => .ok desk
    | some slot => do
      let (slot, states, _) ← slot.generate offset double desk.mixer.states
      pure { desk with
             rack := { desk.rack with slots := desk.rack.slots.set index slot }
             mixer := { desk.mixer with states } }
  | advance index => .ok { desk with rack := desk.rack.advanceOne index }
  | allocate revision splitters destinations =>
    .ok { desk with graph := desk.graph.allocate revision splitters.toNat destinations.toNat }
  | update bytes => do
    let (_, graph) ← desk.graph.update bytes
    pure { desk with graph }
  | filter index revision buffer =>
    match desk.graph.destinations[index]? with
    | none => .ok desk
    | some destination =>
      let (destination, table, _) :=
        destination.commands revision buffer desk.mixer.states.biquad
      let destinations := desk.graph.destinations.setIfInBounds index destination
      .ok { desk with
            graph := { desk.graph with destinations }
            mixer := { desk.mixer with states := { desk.mixer.states with biquad := table } } }
  | process commands => do
    let (mixer, _) ← desk.mixer.process commands
    pure { desk with mixer }

/-- A desk with empty slots, without splitters, and with a mixer that has no states yet. -/
def start (slots shared : Nat) (mixer : Mixer) : Desk where
  rack := .create slots shared
  graph := .empty
  mixer := { mixer with states := .empty }

/-- One desk becomes another by operations one after the other. -/
def Reaches (before after : Desk) : Prop :=
  ∃ operations : List Operation, (∀ operation ∈ operations, operation.Fits) ∧
    operations.foldlM Operation.apply before = .ok after

/-- Who holds places for states: an effect slot or a destination. -/
inductive Owner where
  | slot (index : Nat)
  | destination (index : Nat)
  deriving DecidableEq

/-- The places that an owner holds, one for each of its filters that has run. -/
def held (desk : Desk) : Owner → List Place
  | .slot index => (desk.rack.slots[index]?.map Effect.Slot.places).getD []
  | .destination index =>
    ((desk.graph.destinations.map Splitter.Destination.states)[index]?.map filterPlaces).getD []

/-- The kind of effect in a slot, if there is such a slot. -/
def kind? (desk : Desk) (index : Nat) : Option Effect.Kind :=
  desk.rack.slots[index]?.map Effect.Slot.kind

/-- All places that are held are in the tables, and no two filters hold the same one. -/
structure Apart (desk : Desk) : Prop where
  live : ∀ owner, ∀ place ∈ desk.held owner, desk.mixer.states.Live place
  distinct : ∀ owner, (desk.held owner).Nodup
  alone : ∀ owner other, owner ≠ other → ∀ place ∈ desk.held owner, place ∉ desk.held other

/--
What operations leave of a desk: states stay in their tables, owners get no places but new ones, and
places that were apart are apart still.
-/
structure Follows (before after : Desk) : Prop where
  live : ∀ place, before.mixer.states.Live place → after.mixer.states.Live place
  origin : ∀ owner, ∀ place ∈ after.held owner,
    place ∈ before.held owner ∨ ¬before.mixer.states.Live place
  apart : before.Apart → after.Apart

namespace Follows

variable {before middle after : Desk}

/-- A desk that is left alone follows itself. -/
theorem refl (desk : Desk) : Follows desk desk :=
  ⟨fun _ live => live, fun _ _ here => .inl here, id⟩

/-- What follows a desk that follows another one follows that one. -/
theorem trans (earlier : Follows before middle) (later : Follows middle after) :
    Follows before after where
  live place live := later.live place (earlier.live place live)
  origin owner place here := by
    -- A place that was new to the second desk was not in the first one's tables either.
    rcases later.origin owner place here with here | away
    · exact earlier.origin owner place here
    · exact .inr fun live => away (earlier.live place live)
  apart apart := later.apart (earlier.apart apart)

/-- Owners who give places up and take none stay apart. -/
theorem of_sublist (live : ∀ place, before.mixer.states.Live place → after.mixer.states.Live place)
    (fewer : ∀ owner, (after.held owner).Sublist (before.held owner)) : Follows before after where
  live
  origin owner place here := .inl ((fewer owner).subset here)
  apart apart := by
    -- Whoever holds a place afterwards held it before, so that no two owners can have come
    -- together.
    refine ⟨fun owner place here => ?_, fun owner => ?_, fun owner other different place here => ?_⟩
    · exact live place (apart.live owner place ((fewer owner).subset here))
    · exact (apart.distinct owner).sublist (fewer owner)
    · have alone := apart.alone owner other different place ((fewer owner).subset here)
      exact fun there => alone ((fewer other).subset there)

/-- An owner who claims places is apart from all others, who hold what they held. -/
theorem of_claims (owner : Owner)
    (claims : Claims before.mixer.states after.mixer.states (before.held owner) (after.held owner))
    (others : ∀ other, other ≠ owner → after.held other = before.held other) :
    Follows before after where
  live place live := claims.keeps.live live
  origin other place here := by
    by_cases own : other = owner
    · subst own
      rcases claims.origin place here with here | ⟨away, -⟩
      · exact .inl here
      · exact .inr away
    · rw [others other own] at here
      exact .inl here
  apart apart := by
    -- A claimed place was held before or is new, and what others hold is neither.
    have elsewhere : ∀ other, other ≠ owner → ∀ place ∈ after.held owner,
        place ∉ after.held other := by
      intro other different place here there
      rw [others other different] at there
      rcases claims.origin place here with here | ⟨away, -⟩
      · exact apart.alone owner other (Ne.symm different) place here there
      · exact away (apart.live other place there)
    constructor
    case live =>
      intro other place here
      by_cases own : other = owner
      · subst own
        exact claims.live (apart.live other) place here
      · rw [others other own] at here
        exact claims.keeps.live (apart.live other place here)
    case distinct =>
      intro other
      by_cases own : other = owner
      · subst own
        exact claims.distinct (apart.live other) (apart.distinct other)
      · rw [others other own]
        exact apart.distinct other
    case alone =>
      intro first second different place here there
      by_cases own : first = owner
      · subst own
        exact elsewhere second (Ne.symm different) place here there
      · by_cases other : second = owner
        · subst other
          exact elsewhere first own place there here
        · rw [others first own] at here
          rw [others second other] at there
          exact apart.alone first second different place here there

end Follows

section Steps

variable {desk after : Desk}

/-- Records that arrive leave a rack that was given them all, or the one of before. -/
theorem Operation.receive_cases {blob : Bytes} {version : Effect.Version} {map : AddressMap}
    (ran : (receive blob version map).apply desk = .ok after) :
    ∃ rack, after = { desk with rack } ∧
      (rack = desk.rack ∨ ∃ taken, desk.rack.update blob version map = .ok (rack, taken)) := by
  simp only [apply] at ran
  split at ran
  · cases ran
  · next result rack sound received =>
    obtain rfl := Except.ok.inj ran
    refine ⟨rack, rfl, ?_⟩
    cases result with
    | ok taken => exact .inr ⟨taken, Effect.Rack.update_eq_ok.mpr received⟩
    | error refusal =>
      -- What is refused without a fault was refused before anything was written.
      rcases Effect.Rack.receiveAll_refused received with ⟨fault, rfl⟩ | same
      · exact absurd rfl (sound fault)
      · exact .inl same

/-- Slots that take records keep their places, or are replaced and give them up. -/
theorem follows_receive {blob : Bytes} {version : Effect.Version} {map : AddressMap}
    {rack : Effect.Rack} {taken : Nat}
    (ran : desk.rack.update blob version map = .ok (rack, taken)) :
    Follows desk { desk with rack } := by
  -- A slot is the only owner whose places a record can change, and it can only lose them.
  refine .of_sublist (fun _ live => live) fun owner => ?_
  cases owner with
  | destination index => exact .refl _
  | slot index =>
    simp only [held]
    cases found : rack.slots[index]? with
    | none => exact List.nil_sublist _
    | some slot =>
      obtain ⟨old, record, was, -, received⟩ := Effect.Rack.exists_of_update ran found
      simp only [was, Option.map_some, Option.getD_some]
      rcases Effect.Slot.receive_places received with none | ⟨same, -⟩
      · rw [none]
        exact List.nil_sublist _
      · rw [same]

/-- A slot that makes its commands claims places for itself. -/
theorem follows_generate {index : Nat} {slot made : Effect.Slot} {offset : Int16} {double : Bool}
    {states : States} {commands : List Command} (found : desk.rack.slots[index]? = some slot)
    (ran : slot.generate offset double desk.mixer.states = .ok (made, states, commands)) :
    Follows desk { desk with
      rack := { desk.rack with slots := desk.rack.slots.set index made }
      mixer := { desk.mixer with states } } := by
  -- The slot claims its places against the tables; nobody else holds others than before.
  obtain ⟨inside, -⟩ := List.getElem?_eq_some_iff.mp found
  refine .of_claims (.slot index) ?_ fun other different => ?_
  · simp only [held, found, List.getElem?_set_self inside, Option.map_some, Option.getD_some]
    exact (Effect.Slot.generate_claims ran).1
  · cases other with
    | destination place => rfl
    | slot place =>
      have apart : index ≠ place := fun same => different (by rw [same])
      simp only [held, List.getElem?_set_ne apart]

/-- A slot that goes on to the next frame keeps its places. -/
theorem follows_advance (index : Nat) :
    Follows desk { desk with rack := desk.rack.advanceOne index } := by
  refine .of_sublist (fun _ live => live) fun owner => ?_
  cases owner with
  | destination place => exact .refl _
  | slot place =>
    simp only [held, Effect.Rack.advanceOne, List.getElem?_modify]
    -- Whether or not it is this slot that goes on, its places are as they were.
    cases desk.rack.slots[place]? with
    | none => exact .refl _
    | some slot => by_cases here : index = place <;> simp [here]

/-- Destinations that are allocated anew hold no places. -/
theorem follows_allocate (revision : Revision) (splitters destinations : Nat) :
    Follows desk { desk with graph := desk.graph.allocate revision splitters destinations } := by
  -- New destinations take the places of all old ones, and the slots are not touched.
  refine .of_sublist (fun _ live => live) fun owner => ?_
  cases owner with
  | slot index => exact .refl _
  | destination index =>
    simp only [held, Splitter.Graph.allocate]
    split
    · exact .refl _
    · -- None of the new destinations has run a filter.
      have fresh : ∀ id, filterPlaces (Splitter.Destination.create id).states = [] := fun _ => rfl
      simp only [Splitter.Graph.setUp, Array.map_map, Array.getElem?_map, Option.map_map,
        Function.comp_def, fresh]
      cases (Splitter.Graph.identifiersBelow destinations)[index]? with
      | none => exact List.nil_sublist _
      | some id => exact List.nil_sublist _

/-- A destination that makes its filters' commands claims places for itself. -/
theorem follows_filter {index : Nat} {destination : Splitter.Destination}
    (found : desk.graph.destinations[index]? = some destination) (revision : Revision)
    (buffer : Int16) :
    let made := destination.commands revision buffer desk.mixer.states.biquad
    Follows desk { desk with
      graph :=
        { desk.graph with destinations := desk.graph.destinations.setIfInBounds index made.1 }
      mixer := { desk.mixer with states := { desk.mixer.states with biquad := made.2.1 } } } := by
  intro made
  obtain ⟨inside, -⟩ := Array.getElem?_eq_some_iff.mp found
  -- A destination claims its places from the table of filters, and stays alone with them.
  refine .of_claims (.destination index) ?_ fun other different => ?_
  · simp only [held, Array.getElem?_map, found, Array.getElem?_setIfInBounds_self_of_lt inside,
      Option.map_some, Option.getD_some, made, Splitter.Destination.commands]
    split
    · exact destination.commandsFor_claims buffer _ desk.mixer.states.biquad desk.mixer.states
    · exact .refl _ _
  · cases other with
    | slot place => rfl
    | destination place =>
      have apart : index ≠ place := fun same => different (by rw [same])
      simp only [held, Array.getElem?_map, Array.getElem?_setIfInBounds_ne apart]

/-- Commands that run leave all states in their tables, where owners find them. -/
theorem follows_process {commands : List Command} {mixer : Mixer} {report : Report}
    (ran : desk.mixer.process commands = .ok (mixer, report)) :
    Follows desk { desk with mixer } := by
  -- Tables keep their sizes while commands run, and a place is live while its table is long
  -- enough.
  refine .of_sublist (fun place live => ?_) fun owner => ?_
  · have sizes := (Mixer.processFrom_footprint ran).sizes
    rw [States.Live, Option.isSome_iff_ne_none] at live ⊢
    exact mt (sizes.read_eq_none place).mp live
  · cases owner <;> exact .refl _

/-- An operation on a desk with a sound graph leaves one that follows it. -/
theorem Operation.follows {operation : Operation} (sound : desk.graph.Sound)
    (fits : operation.Fits) (ran : operation.apply desk = .ok after) :
    after.graph.Sound ∧ Follows desk after := by
  -- Operations that touch neither slots nor destinations leave all owners what they hold.
  cases operation with
  | receive blob version map =>
    obtain ⟨rack, rfl, rfl | ⟨taken, received⟩⟩ := receive_cases ran
    · exact ⟨sound, .refl desk⟩
    · exact ⟨sound, follows_receive received⟩
  | generate index offset double =>
    simp only [apply] at ran
    split at ran
    · obtain rfl := Except.ok.inj ran
      exact ⟨sound, .refl desk⟩
    · next slot found =>
      obtain ⟨⟨made, states, commands⟩, generated, ran⟩ := bind_eq_ok.mp ran
      obtain rfl := Except.ok.inj ran
      exact ⟨sound, follows_generate found generated⟩
  | advance index =>
    obtain rfl := Except.ok.inj ran
    exact ⟨sound, follows_advance index⟩
  | allocate revision splitters destinations =>
    obtain rfl := Except.ok.inj ran
    exact ⟨sound.allocate revision _ _, follows_allocate revision _ _⟩
  | update bytes =>
    obtain ⟨⟨taken, graph⟩, updated, ran⟩ := bind_eq_ok.mp ran
    obtain rfl := Except.ok.inj ran
    have still := (sound.of_update fits updated).1
    have same := sound.update_look Splitter.Destination.accept_states (fun _ => rfl) fits updated
    refine ⟨still, .of_sublist (fun _ live => live) fun owner => ?_⟩
    cases owner with
    | slot index => exact .refl _
    | destination index => simp only [held, same, List.Sublist.refl]
  | filter index revision buffer =>
    simp only [apply] at ran
    split at ran
    · obtain rfl := Except.ok.inj ran
      exact ⟨sound, .refl desk⟩
    · next destination found =>
      obtain rfl := Except.ok.inj ran
      refine ⟨?_, follows_filter found revision buffer⟩
      -- Making commands is an edit of the destination, which keeps the chains.
      obtain ⟨changed, edited, still, -⟩ := @Splitter.Graph.Sound.apply _ sound
        (.edit index (.command revision buffer desk.mixer.states.biquad)) trivial
      simp only [Splitter.Operation.apply, found, Splitter.Edit.apply, ok_bind, pure_eq_ok] at edited
      rw [Except.ok.inj edited]
      exact still
  | process commands =>
    obtain ⟨⟨mixer, report⟩, processed, ran⟩ := bind_eq_ok.mp ran
    obtain rfl := Except.ok.inj ran
    exact ⟨sound, follows_process processed⟩

/-- A slot whose kind an operation has changed holds nothing. -/
theorem Operation.held_of_kind {operation : Operation} (ran : operation.apply desk = .ok after)
    {index : Nat} (changes : desk.kind? index ≠ after.kind? index) : after.held (.slot index) = [] := by
  -- Only records change the kind of a slot; every other operation leaves it.
  cases operation with
  | receive blob version map =>
    obtain ⟨rack, rfl, rfl | ⟨taken, received⟩⟩ := receive_cases ran
    · exact absurd rfl changes
    · simp only [held]
      cases found : rack.slots[index]? with
      | none => rfl
      | some slot =>
        obtain ⟨old, record, was, -, own⟩ := Effect.Rack.exists_of_update received found
        rcases Effect.Slot.receive_places own with none | ⟨-, same⟩
        · exact none
        · exact absurd (by simp only [kind?, was, found, Option.map_some, same]) changes
  | generate place offset double =>
    simp only [apply] at ran
    split at ran
    · obtain rfl := Except.ok.inj ran
      exact absurd rfl changes
    · next slot found =>
      obtain ⟨⟨made, states, commands⟩, generated, ran⟩ := bind_eq_ok.mp ran
      obtain rfl := Except.ok.inj ran
      -- The slot that makes its commands stays of its kind, and the others are not touched.
      refine absurd ?_ changes
      have same := (Effect.Slot.generate_claims generated).2
      obtain ⟨inside, -⟩ := List.getElem?_eq_some_iff.mp found
      by_cases here : place = index
      · subst here
        simp only [kind?, found, List.getElem?_set_self inside, Option.map_some, same]
      · simp only [kind?, List.getElem?_set_ne here]
  | advance place =>
    obtain rfl := Except.ok.inj ran
    refine absurd ?_ changes
    simp only [kind?, Effect.Rack.advanceOne, List.getElem?_modify]
    cases desk.rack.slots[index]? with
    | none => rfl
    | some slot => by_cases here : place = index <;> simp [here]
  | allocate revision splitters destinations =>
    obtain rfl := Except.ok.inj ran
    exact absurd rfl changes
  | update bytes =>
    obtain ⟨⟨taken, graph⟩, updated, ran⟩ := bind_eq_ok.mp ran
    obtain rfl := Except.ok.inj ran
    exact absurd rfl changes
  | filter place revision buffer =>
    simp only [apply] at ran
    split at ran <;>
    · obtain rfl := Except.ok.inj ran
      exact absurd rfl changes
  | process commands =>
    obtain ⟨⟨mixer, report⟩, processed, ran⟩ := bind_eq_ok.mp ran
    obtain rfl := Except.ok.inj ran
    exact absurd rfl changes

end Steps

/-- A desk that is reached from a reached one is reached. -/
theorem Reaches.trans {before middle after : Desk} (earlier : before.Reaches middle)
    (later : middle.Reaches after) : before.Reaches after := by
  -- The operations of both runs are made one after the other.
  obtain ⟨first, fits, ran⟩ := earlier
  obtain ⟨second, alsoFits, run⟩ := later
  refine ⟨first ++ second, fun operation here => ?_, ?_⟩
  · rcases List.mem_append.mp here with here | here
    · exact fits operation here
    · exact alsoFits operation here
  · rw [List.foldlM_append, ran, ok_bind, run]

/-- A desk that is reached from one with a sound graph follows it. -/
theorem Reaches.follows {before after : Desk} (reaches : before.Reaches after)
    (sound : before.graph.Sound) : after.graph.Sound ∧ Follows before after := by
  -- The graph stays sound along the run, which each operation needs of the graph it finds.
  obtain ⟨operations, fits, ran⟩ := reaches
  induction operations generalizing before with
  | nil =>
    obtain rfl := Except.ok.inj ran
    exact ⟨sound, .refl before⟩
  | cons operation operations ih =>
    rw [List.foldlM_cons] at ran
    obtain ⟨middle, first, rest⟩ := bind_eq_ok.mp ran
    obtain ⟨still, earlier⟩ := operation.follows sound (fits operation (by simp)) first
    obtain ⟨last, later⟩ := ih still (fun other here => fits other (by simp [here])) rest
    exact ⟨last, earlier.trans later⟩

/-- Nobody holds anything at a desk that has just been set up. -/
theorem held_start (slots shared : Nat) (mixer : Mixer) (owner : Owner) :
    (start slots shared mixer).held owner = [] := by
  -- Slots are empty at first, and there are no destinations.
  cases owner with
  | destination index => simp [start, held, Splitter.Graph.empty]
  | slot index =>
    simp only [start, held, Effect.Rack.create, List.getElem?_replicate]
    split <;> rfl

/-- At a desk that has just been set up nothing is shared. -/
theorem apart_start (slots shared : Nat) (mixer : Mixer) : (start slots shared mixer).Apart where
  live owner place here := by simp [held_start] at here
  distinct owner := by simp [held_start]
  alone owner other _ place here := by simp [held_start] at here

/--
At every desk that is reached from a new one, all places are live and no two filters share one. A
place that an owner has got since some time was held by no one up to then; in particular whatever is
held by a slot that has been created or replaced was held by no one before.
-/
theorem reaches_apart (slots shared : Nat) (mixer : Mixer) {early middle last : Desk}
    (begun : (start slots shared mixer).Reaches early) (onward : early.Reaches middle)
    (late : middle.Reaches last) :
    last.Apart ∧
      (∀ owner, ∀ place ∈ last.held owner,
        place ∈ middle.held owner ∨ ∀ other, place ∉ early.held other) ∧
      ∀ before operation index, early.Reaches before → Operation.apply before operation = .ok middle →
        before.kind? index ≠ middle.kind? index →
          ∀ place ∈ last.held (.slot index), ∀ other, place ∉ early.held other := by
  -- Each part of the run is followed by the next, and what is kept apart at the start is apart at
  -- the end.
  obtain ⟨sound, first⟩ := begun.follows Splitter.Graph.sound_empty
  obtain ⟨stillSound, second⟩ := onward.follows sound
  obtain ⟨-, third⟩ := late.follows stillSound
  have apart := first.apart (apart_start slots shared mixer)
  have origin : ∀ owner, ∀ place ∈ last.held owner,
      place ∈ middle.held owner ∨ ∀ other, place ∉ early.held other := by
    intro owner place here
    rcases third.origin owner place here with here | away
    · exact .inl here
    · -- What anyone held early was live then, and is still live in the middle.
      exact .inr fun other there => away (second.live place (apart.live other place there))
  refine ⟨third.apart (second.apart apart), origin, ?_⟩
  intro before operation index reached ran changes place here
  -- The slot has given all its places up, so that each of them has come later.
  rcases origin (.slot index) place here with there | never
  · rw [Operation.held_of_kind ran changes] at there
    cases there
  · exact never

/-- A filter of two channels and the filters of a destination hold four states of one table; when
the slot has been a limiter in between, its new filter gets states behind all of them. -/
theorem reaches_apart_replaced :
    let mixer : Mixer := ⟨⟨1, 1, #[0]⟩, 1, 48000, .empty⟩
    let receive (kind : Effect.Kind) (parameters : Bytes) : Operation :=
      .receive (Effect.Record.create kind 0 parameters).encode .second .identity
    let filter : Operation :=
      receive .biquad { Effect.BiquadParameters.zero with channels := 2 }.encode
    ∃ early before middle last : Desk,
      (start 1 0 mixer).Reaches early ∧ early.held (.slot 0) = [.biquad 0, .biquad 1] ∧
        early.held (.destination 0) = [.biquad 2, .biquad 3] ∧ early.Reaches before ∧
        filter.apply before = .ok middle ∧ middle.Reaches last ∧
        last.held (.slot 0) = [.biquad 4, .biquad 5] ∧
        last.held (.destination 0) = [.biquad 2, .biquad 3] ∧ last.Apart ∧
        ∀ other, .biquad 4 ∉ early.held other := by
  intro mixer receive filter
  -- The section that enables both filters of the only destination.
  let enabled : Biquad.FloatCoefficients := { Biquad.FloatCoefficients.zero with enabled := 1 }
  let sent : Bytes :=
    (Splitter.Header.mk Splitter.headerMagic 0 1 (.zeros 0x14)).encode ++
      (Splitter.DestinationRecord.mk Splitter.destinationMagic 0 (.replicate _ 0) 0
        (some (.replicate _ enabled)) 1 0 (.zeros 10)).encode
  let next (desk : Desk) (operations : List Operation) : Desk :=
    (operations.foldlM Operation.apply desk).toOption.getD desk
  -- It is enough to see that operations end well, whatever the desk looks like then.
  have ends : ∀ (run : Except Fault Desk) (desk : Desk), run.isOk = true →
      run = .ok (run.toOption.getD desk) := by
    intro run desk well
    cases run with
    | error fault => simp [Except.isOk, Except.toBool] at well
    | ok after => rfl
  let early := next (start 1 0 mixer)
    [filter, .allocate .newest 1 1, .update sent, .generate 0 0 false, .filter 0 .newest 0]
  let before := next early [receive .limiter [], .generate 0 0 false]
  let middle := (filter.apply before).toOption.getD before
  let last := next middle [.generate 0 0 false, .filter 0 .newest 0]
  have fits : sent.length < addressSpace / 2 := by decide +kernel
  have begun : (start 1 0 mixer).Reaches early :=
    ⟨_, by simp [filter, receive, Operation.Fits, fits], ends _ _ (by decide +kernel)⟩
  have goes : early.Reaches before :=
    ⟨_, by simp [receive, Operation.Fits], ends _ _ (by decide +kernel)⟩
  have replaced : filter.apply before = .ok middle := ends _ _ (by decide +kernel)
  have turns : before.Reaches middle :=
    ⟨[filter], by simp [filter, receive, Operation.Fits],
      by rw [List.foldlM_cons, replaced]; rfl⟩
  have late : middle.Reaches last :=
    ⟨_, by simp [Operation.Fits], ends _ _ (by decide +kernel)⟩
  have held : last.held (.slot 0) = [.biquad 4, .biquad 5] := by decide +kernel
  have changes : before.kind? 0 ≠ middle.kind? 0 := by decide +kernel
  obtain ⟨apart, -, fresh⟩ := reaches_apart 1 0 mixer begun (goes.trans turns) late
  exact ⟨early, before, middle, last, begun, by decide +kernel, by decide +kernel, goes, replaced,
    late, held, by decide +kernel, apart,
    fresh before filter 0 goes replaced changes (.biquad 4) (by simp [held])⟩

end Desk

end Mixdown
