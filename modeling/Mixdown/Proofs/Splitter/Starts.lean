import Mixdown.Proofs.Splitter.Filters
import Mixdown.Proofs.Splitter.Section

/-! Filters of destinations are reset exactly when they start again, and keep one state each. -/

namespace Mixdown.Splitter

/-- What a destination has made commands from and what came of it. -/
structure Call where
  place : Nat
  buffer : Int16
  filters : Vector Biquad.FloatCoefficients maxFilters
  /-- The table of states that the call found. -/
  before : Array Biquad.State
  /-- The table of states that the call left. -/
  after : Array Biquad.State
  commands : List BiquadCommand

/-- A graph and the table of its filters' states, with all calls for commands so far. -/
structure Deck where
  graph : Graph
  table : Array Biquad.State
  calls : List Call

/-- The deck after a call that leaves its destination in a new state. -/
def Deck.record (deck : Deck) (call : Call) (destination : Destination) : Deck where
  graph := { deck.graph with
    destinations := deck.graph.destinations.setIfInBounds call.place destination }
  table := call.after
  calls := deck.calls ++ [call]

/-- What can be done at a deck. -/
inductive Act where
  /-- The commands of one destination's filters are made. -/
  | issue (place : Nat) (revision : Revision) (buffer : Int16)
  /-- A filter goes on to another state. -/
  | advance (index : Nat) (state : Biquad.State)
  | perform (operation : Operation)

/-- An operation is silent when it makes no commands and allocates no destinations anew. -/
def Operation.Silent : Operation → Prop
  | allocate .. | edit _ (.command ..) => False
  | _ => True

/-- Operations are silent, and no byte string takes up more than half of the address space. -/
def Act.Fits : Act → Prop
  | perform operation => operation.Fits ∧ operation.Silent
  | _ => True

/-- A deck after an act; a destination that is not there makes no commands. -/
def Act.apply (deck : Deck) : Act → Except Fault Deck
  | issue place revision buffer =>
    match deck.graph.destinations[place]? with
    | none => .ok deck
    | some destination =>
      let (after, table, commands) := destination.commands revision buffer deck.table
      let next :=
        deck.record ⟨place, buffer, destination.filters, deck.table, table, commands⟩ after
      -- Calls for a revision without such filters are not counted.
      .ok (if revision.hasFloatFilters then next else { next with calls := deck.calls })
  | advance index state => .ok { deck with table := deck.table.setIfInBounds index state }
  | perform operation => do pure { deck with graph := ← operation.apply deck.graph }

/-- The destination and the buffer of a call that counts, if an act makes one. -/
def Act.request? (destinations : Nat) : Act → Option (Nat × Int16)
  | issue place revision buffer =>
    if place < destinations ∧ 15 ≤ revision.number then some (place, buffer) else none
  | _ => none

/-- The filters that a call makes commands for, in their order. -/
def Call.enabled (call : Call) : List (Fin maxFilters) :=
  (List.finRange maxFilters).filter fun index => (call.filters.get index).isEnabled

/-- Whether a call makes a command for a filter of the destination at a place. -/
def Call.issues (call : Call) (place : Nat) (index : Fin maxFilters) : Bool :=
  call.place = place && (call.filters.get index).isEnabled

/-- Whether any of several calls makes a command for a filter. -/
def issued (calls : List Call) (place : Nat) (index : Fin maxFilters) : Bool :=
  calls.any (·.issues place index)

/-- The last of several calls that the destination at a place has made. -/
def lastOf (calls : List Call) (place : Nat) : Option Call :=
  (calls.filter (·.place = place)).getLast?

/-- The filters of a call for which no earlier call has made a command. -/
def Call.fresh (earlier : List Call) (call : Call) : List (Fin maxFilters) :=
  call.enabled.filter fun index => !issued earlier call.place index

/-- What a call does after earlier ones, given the places of all filters' states in the table. -/
structure Call.Follows (handle : Nat → Fin maxFilters → Nat) (start : Nat) (earlier : List Call)
    (call : Call) : Prop where
  /-- Each enabled filter has one command in place, with a reset unless the last call had one. -/
  commands : call.commands = call.enabled.map fun index =>
    { input := call.buffer
      output := call.buffer
      coefficients := .zero
      floatCoefficients := call.filters.get index
      state := some (handle call.place index)
      reset := !(lastOf earlier call.place).any (·.issues call.place index)
      double := true
      floatTaken := true }
  /-- Between calls the table keeps its size. -/
  before : call.before.size = (earlier.getLast?.map (·.after.size)).getD start
  /-- The table grows by one state for each filter that has its first command. -/
  after : call.after = call.before ++ .replicate (call.fresh earlier).length .initial
  /-- These states are given to the filters in order. -/
  handles : (call.fresh earlier).map (handle call.place) =
    List.range' call.before.size (call.fresh earlier).length

/-- A call makes commands for the enabled filters of its own destination. -/
@[simp] theorem Call.issues_own (call : Call) (index : Fin maxFilters) :
    call.issues call.place index = (call.filters.get index).isEnabled := by
  simp [issues]

/-- A call makes no commands for the filters of another destination. -/
theorem Call.issues_other {call : Call} {place : Nat} (apart : call.place ≠ place)
    (index : Fin maxFilters) : call.issues place index = false := by
  simp [issues, apart]

/-- One more call makes commands for the filters of its own. -/
theorem issued_concat (calls : List Call) (call : Call) (place : Nat) (index : Fin maxFilters) :
    issued (calls ++ [call]) place index =
      (issued calls place index || call.issues place index) := by
  simp [issued]

/-- One more call is the last one of its destination. -/
theorem lastOf_concat (calls : List Call) (call : Call) (place : Nat) :
    lastOf (calls ++ [call]) place =
      if call.place = place then some call else lastOf calls place := by
  rw [lastOf, List.filter_append]
  split <;> simp [lastOf, *]

/-- A call makes a command for each filter that is enabled. -/
theorem issued_of_mem {calls : List Call} {call : Call} (made : call ∈ calls)
    {index : Fin maxFilters} (enabled : index ∈ call.enabled) :
    issued calls call.place index := by
  refine List.any_eq_true.mpr ⟨call, made, ?_⟩
  rw [Call.issues_own]
  exact (List.mem_filter.mp enabled).2

/-- What a call does depends on the places of those filters only that it makes commands for. -/
theorem Call.Follows.congr {handle other : Nat → Fin maxFilters → Nat} {start : Nat}
    {earlier : List Call} {call : Call} (follows : call.Follows handle start earlier)
    (same : ∀ index ∈ call.enabled, other call.place index = handle call.place index) :
    call.Follows other start earlier where
  commands := by
    -- Only the handles of enabled filters are named by a call.
    rw [follows.commands]
    exact List.map_congr_left fun index here => by rw [same index here]
  before := follows.before
  after := follows.after
  handles := by
    rw [← follows.handles]
    exact List.map_congr_left fun index here => same index (List.mem_of_mem_filter here)

namespace Destination

variable (buffer : Int16)

/-- Of some filters those that are enabled and have no place for their states. -/
def unplaced (destination : Destination) (indices : List (Fin maxFilters)) :
    List (Fin maxFilters) :=
  (destination.enabled indices).filter fun index => (destination.states.get index).isNone

/-- A filter is unplaced or not whatever other filters there are. -/
theorem unplaced_cons (destination : Destination) (index : Fin maxFilters)
    (rest : List (Fin maxFilters)) : destination.unplaced (index :: rest) =
      if (destination.filters.get index).isEnabled ∧ destination.states.get index = none then
        index :: destination.unplaced rest
      else destination.unplaced rest := by
  simp only [unplaced, enabled, List.filter_cons]
  split <;> simp [List.filter_cons, *]

/-- Enabled ones of some filters that have no place get one each, in order behind the table, and
all other filters keep what they have. -/
structure Places (destination : Destination) (indices : List (Fin maxFilters))
    (table : Array Biquad.State) (after : Destination) (left : Array Biquad.State) : Prop where
  kept : ∀ index, index ∉ destination.unplaced indices →
    after.states.get index = destination.states.get index
  added : left = table ++ .replicate (destination.unplaced indices).length .initial
  placed : (destination.unplaced indices).map after.states.get =
    (List.range' table.size (destination.unplaced indices).length).map some

/-- A filter that needs no place goes in front of others that get theirs after it. -/
theorem Places.pass {destination middle after : Destination} {index : Fin maxFilters}
    {rest : List (Fin maxFilters)} {table left : Array Biquad.State}
    (later : Places middle rest table after left) (states : middle.states = destination.states)
    (filters : middle.filters = destination.filters)
    (needless : ¬((destination.filters.get index).isEnabled ∧
      destination.states.get index = none)) :
    Places destination (index :: rest) table after left := by
  -- Neither its filters nor their places have changed, so the same others need one.
  have same : destination.unplaced (index :: rest) = middle.unplaced rest := by
    rw [unplaced_cons, if_neg needless, unplaced, enabled, ← states, ← filters]
    rfl
  exact ⟨by rw [same, ← states]; exact later.kept, by rw [same]; exact later.added,
    by rw [same]; exact later.placed⟩

/-- A filter that needs a place gets the first one behind the table, in front of others. -/
theorem Places.cons {destination middle after : Destination} {index : Fin maxFilters}
    {rest : List (Fin maxFilters)} {table left : Array Biquad.State}
    (later : Places middle rest (table.push .initial) after left) (fresh : index ∉ rest)
    (filters : middle.filters = destination.filters)
    (first : middle.states.get index = some table.size)
    (others : ∀ other, other ≠ index →
      middle.states.get other = destination.states.get other)
    (on : (destination.filters.get index).isEnabled)
    (placeless : destination.states.get index = none) :
    Places destination (index :: rest) table after left := by
  -- The others need places as they did before this filter got one.
  have behind : middle.unplaced rest = destination.unplaced rest := by
    have same : middle.enabled rest = destination.enabled rest := by
      rw [enabled, filters, enabled]
    rw [unplaced, unplaced, same]
    refine List.filter_congr fun other here => ?_
    have apart : other ≠ index := by
      rintro rfl
      exact fresh (List.mem_of_mem_filter here)
    rw [others other apart]
  have all : destination.unplaced (index :: rest) = index :: destination.unplaced rest := by
    rw [unplaced_cons, if_pos ⟨on, placeless⟩]
  -- What comes after does not touch the place that it has got.
  have own : after.states.get index = some table.size := by
    rw [later.kept index, first]
    exact fun here => fresh (List.mem_of_mem_filter (List.mem_of_mem_filter here))
  constructor
  case kept =>
    intro other away
    rw [all, List.mem_cons, not_or] at away
    rw [later.kept other (by rw [behind]; exact away.2), others other away.1]
  case added =>
    rw [later.added, behind, all, List.length_cons, Nat.add_comm, Array.push_eq_append,
      Array.append_assoc, ← Array.replicate_append_replicate]
    rfl
  case placed =>
    rw [all, List.map_cons, own, ← behind, later.placed, Array.size_push]
    rfl

/-- Afterwards all filters that had a place or are enabled have one. -/
theorem Places.isSome_eq {destination after : Destination} {table left : Array Biquad.State}
    {commands : List BiquadCommand}
    (places : Places destination (List.finRange maxFilters) table after left)
    (starts : Started buffer destination (List.finRange maxFilters) after commands)
    (index : Fin maxFilters) : (after.states.get index).isSome =
      ((destination.states.get index).isSome || (destination.filters.get index).isEnabled) := by
  -- A filter has a place when it is enabled now, or when it had one before.
  cases on : (destination.filters.get index).isEnabled with
  | true =>
    rw [Bool.or_true]
    refine (starts.running index (List.mem_finRange index)).2 ?_
    rw [starts.whole]
    exact on
  | false =>
    have away : index ∉ destination.unplaced (List.finRange maxFilters) := fun here => by
      simp [unplaced, enabled, on] at here
    rw [Bool.or_false, places.kept index away]

/-- Making commands places the filters that are enabled for the first time. -/
theorem commandsFor_places {indices : List (Fin maxFilters)} (distinct : indices.Nodup)
    (destination : Destination) (table : Array Biquad.State) :
    Places destination indices table (commandsFor buffer indices destination table).1
      (commandsFor buffer indices destination table).2.1 := by
  induction indices generalizing destination table with
  | nil => exact ⟨fun _ _ => rfl, by simp [commandsFor, unplaced, enabled], rfl⟩
  | cons index rest ih =>
    obtain ⟨fresh, distinct⟩ := List.nodup_cons.mp distinct
    -- Only an enabled filter without a place lets the table grow.
    cases on : (destination.filters.get index).isEnabled with
    | false =>
      have passed : destination.filters[index].isEnabled = false := on
      simp only [commandsFor, passed, Bool.false_eq_true, if_false]
      exact (ih distinct _ table).pass rfl rfl (by simp [on])
    | true =>
      have taken : destination.filters[index].isEnabled = true := on
      simp only [commandsFor, taken, if_true]
      cases held : destination.states.get index with
      | none =>
        have placeless : destination.states[index] = none := held
        simp only [placeless, allot]
        exact (ih distinct _ _).cons fresh rfl (get_set_self _ _ _)
          (fun other apart => get_set_ne _ apart _) on held
      | some place =>
        have placed : destination.states[index] = some place := held
        simp only [placed, allot]
        exact (ih distinct _ table).pass (set_get destination.states held) rfl (by simp [held])

/-- The places of the filters' states, and which filters have started. -/
def progress (destination : Destination) :
    Vector (Option Nat) maxFilters × Vector Bool maxFilters :=
  (destination.states, destination.started)

/-- A record leaves the filters' places and starts alone. -/
theorem accept_progress (destination : Destination) (record : DestinationRecord) :
    (destination.accept record).progress = destination.progress := by
  simp only [accept, takeFilters, receive]
  split <;> rfl

end Destination

/-- A silent edit leaves the filters' places and starts alone. -/
theorem Edit.apply_progress {edit : Edit} {place : Nat}
    (silent : (Operation.edit place edit).Silent) {destination edited : Destination}
    (ran : edit.apply destination = .ok edited) : edited.progress = destination.progress := by
  -- An edit that makes no commands sets neither a state nor a flag.
  cases edit with
  | mark => rw [← Except.ok.inj ran]; rfl
  | latch => rw [← Except.ok.inj ran]; rfl
  | clearVolumes => rw [← Except.ok.inj ran]; rfl
  | setVolume buffer volume =>
    simp only [apply, Destination.setVolume, buffer.isLt, dif_pos] at ran
    rw [← Except.ok.inj ran]
    rfl
  | setFilter index filter =>
    simp only [apply, Destination.setFilter, index.isLt, dif_pos] at ran
    rw [← Except.ok.inj ran]
    rfl
  | receive record =>
    rw [← Except.ok.inj ran, Destination.receive]
    split <;> rfl
  | command revision buffer table => exact silent.elim

/-- A silent operation leaves the places and starts of all filters alone. -/
theorem Graph.Sound.apply_progress {graph changed : Graph} (sound : graph.Sound)
    {operation : Operation} (fits : operation.Fits) (silent : operation.Silent)
    (ran : operation.apply graph = .ok changed) :
    changed.destinations.map Destination.progress =
      graph.destinations.map Destination.progress := by
  -- The operations that are silent leave all states, and an edit leaves those of its destination.
  cases operation with
  | allocate revision splitters destinations => exact silent.elim
  | update bytes =>
    obtain ⟨⟨taken, updated⟩, run, same⟩ := bind_eq_ok.mp ran
    rw [← Except.ok.inj same]
    exact sound.update_look Destination.accept_progress (fun _ => rfl) fits run
  | latch =>
    obtain ⟨chains, represents⟩ := sound.represented
    rw [← Except.ok.inj ((latch_eq represents).symm.trans ran)]
    exact latched_look (fun _ => rfl) graph
  | clearNew => rw [← Except.ok.inj ran]; rfl
  | edit place change =>
    simp only [Operation.apply] at ran
    split at ran
    · rw [← Except.ok.inj ran]
    · next destination held =>
      obtain ⟨edited, made, same⟩ := bind_eq_ok.mp ran
      rw [← Except.ok.inj same]
      exact map_set_same Destination.progress held (change.apply_progress silent made)

namespace Deck

variable {deck : Deck} {start : Nat}

/-- The places of the filters' states of a destination, and which of the filters have started. -/
def progress (deck : Deck) (place : Nat) :
    Option (Vector (Option Nat) maxFilters × Vector Bool maxFilters) :=
  deck.graph.destinations[place]?.map Destination.progress

/-- The place of a filter's state in the table. -/
def handle (deck : Deck) (place : Nat) (index : Fin maxFilters) : Nat :=
  ((deck.progress place).bind (·.1.get index)).getD 0

/-- A deck accounts for its calls when its filters have places and starts according to them, and
each call follows those before it. -/
structure Accounts (start : Nat) (deck : Deck) : Prop where
  sound : deck.graph.Sound
  placed : ∀ place progress, deck.progress place = some progress → ∀ index,
    (progress.1.get index).isSome = issued deck.calls place index
  started : ∀ place progress, deck.progress place = some progress → ∀ index,
    progress.2.get index = (lastOf deck.calls place).any (·.issues place index)
  size : deck.table.size = (deck.calls.getLast?.map (·.after.size)).getD start
  follows : ∀ (index : Nat) (call : Call), deck.calls[index]? = some call →
    call.Follows deck.handle start (deck.calls.take index)

/-- What accounts for calls does so after anything that leaves places and starts alone. -/
theorem Accounts.of_progress {other : Deck} (accounts : deck.Accounts start)
    (sound : other.graph.Sound) (progress : other.progress = deck.progress)
    (table : other.table.size = deck.table.size) (calls : other.calls = deck.calls) :
    other.Accounts start := by
  -- The places of the states are read off the destinations' progress, so these stay as well.
  have handle : other.handle = deck.handle := by
    funext place index
    rw [Deck.handle, Deck.handle, progress]
  constructor
  · exact sound
  · rw [progress, calls]
    exact accounts.placed
  · rw [progress, calls]
    exact accounts.started
  · rw [table, calls]
    exact accounts.size
  · rw [calls, handle]
    exact accounts.follows

section Record

variable {call : Call} {destination after : Destination}

/-- A call that a destination of a deck makes, with what it leaves of the destination. -/
structure Makes (deck : Deck) (call : Call) (destination after : Destination) : Prop where
  held : deck.graph.destinations[call.place]? = some destination
  filters : call.filters = destination.filters
  before : call.before = deck.table
  starts : Destination.Started call.buffer destination (List.finRange maxFilters) after
    call.commands
  places : destination.Places (List.finRange maxFilters) call.before after call.after

/-- A call comes behind those that were made before it. -/
@[simp] theorem record_calls : (deck.record call after).calls = deck.calls ++ [call] := rfl

/-- The destination that makes a call has its places and starts from before. -/
theorem Makes.progress_before (makes : deck.Makes call destination after) :
    deck.progress call.place = some destination.progress := by
  rw [progress, makes.held, Option.map_some]

/-- The destination that makes a call has other places and starts after it. -/
theorem Makes.progress_after (makes : deck.Makes call destination after) :
    (deck.record call after).progress call.place = some after.progress := by
  have inside := (Array.getElem?_eq_some_iff.mp makes.held).1
  simp [progress, record, inside]

/-- A call leaves the places and starts of other destinations alone. -/
theorem record_progress_other {other : Nat} (apart : call.place ≠ other) :
    (deck.record call after).progress other = deck.progress other := by
  simp only [progress, record, Array.getElem?_setIfInBounds_ne apart]

/-- The filters without a place are those that no call has made a command for. -/
theorem Accounts.fresh_eq (accounts : deck.Accounts start)
    (makes : deck.Makes call destination after) :
    call.fresh deck.calls = destination.unplaced (List.finRange maxFilters) := by
  rw [Call.fresh, Call.enabled, makes.filters]
  refine List.filter_congr fun index _ => ?_
  rw [← accounts.placed _ _ makes.progress_before index, Option.not_isSome]
  rfl

/-- A filter that had a command before keeps its place. -/
theorem Accounts.handle_record (accounts : deck.Accounts start)
    (makes : deck.Makes call destination after) {place : Nat} {index : Fin maxFilters}
    (begun : issued deck.calls place index) :
    (deck.record call after).handle place index = deck.handle place index := by
  by_cases own : call.place = place
  · subst own
    -- The call gives places to those filters only that had no command.
    have kept : after.states.get index = destination.states.get index := by
      refine makes.places.kept index fun here => ?_
      rw [← accounts.fresh_eq makes] at here
      simpa [begun] using (List.mem_filter.mp here).2
    rw [handle, makes.progress_after, handle, makes.progress_before]
    simp only [Option.bind_some, Destination.progress, kept]
  · rw [handle, record_progress_other own, handle]

/-- A call follows those before it. -/
theorem Accounts.follows_record (accounts : deck.Accounts start)
    (makes : deck.Makes call destination after) :
    call.Follows (deck.record call after).handle start deck.calls := by
  have own : (deck.record call after).handle call.place =
      fun index => (after.states.get index).getD 0 := by
    funext index
    rw [handle, makes.progress_after]
    rfl
  constructor
  case commands =>
    rw [makes.starts.commands, Call.enabled, makes.filters, own]
    refine List.map_congr_left fun index _ => ?_
    -- A filter has started when the last call of its destination made a command for it.
    rw [← accounts.started _ _ makes.progress_before index]
    rfl
  case before =>
    rw [makes.before]
    exact accounts.size
  case after =>
    rw [accounts.fresh_eq makes]
    exact makes.places.added
  case handles =>
    rw [accounts.fresh_eq makes, own]
    simpa [Function.comp_def] using congrArg (List.map (·.getD 0)) makes.places.placed

/-- A destination that makes its commands is accounted for. -/
theorem Accounts.record (accounts : deck.Accounts start)
    (makes : deck.Makes call destination after) (sound : (deck.record call after).graph.Sound) :
    (deck.record call after).Accounts start := by
  constructor
  case sound => exact sound
  case placed =>
    intro place progress here index
    rw [record_calls, issued_concat]
    by_cases own : call.place = place
    · subst own
      obtain rfl := Option.some.inj (makes.progress_after.symm.trans here)
      -- A filter has a place when it had one before or is enabled now, which is just when some
      -- call up to this one has made a command for it.
      rw [Call.issues_own, makes.filters, ← accounts.placed _ _ makes.progress_before index]
      exact makes.places.isSome_eq call.buffer makes.starts index
    · rw [record_progress_other own] at here
      rw [accounts.placed place progress here index, Call.issues_other own, Bool.or_false]
  case started =>
    intro place progress here index
    rw [record_calls, lastOf_concat]
    by_cases own : call.place = place
    · subst own
      obtain rfl := Option.some.inj (makes.progress_after.symm.trans here)
      -- The call starts the enabled filters and stops all others.
      rw [if_pos rfl, Option.any_some, Call.issues_own, makes.filters]
      refine (makes.starts.running index (List.mem_finRange index)).1.trans ?_
      rw [makes.starts.whole]
    · rw [record_progress_other own] at here
      rw [accounts.started place progress here index, if_neg own]
  case size => simp [Deck.record]
  case follows =>
    intro index other here
    rw [record_calls] at here ⊢
    rcases Nat.lt_trichotomy index deck.calls.length with earlier | rfl | later
    · -- Filters that had commands before keep their places, so earlier calls follow as they did.
      rw [List.getElem?_append_left earlier] at here
      rw [List.take_append_of_le_length earlier.le]
      exact (accounts.follows index other here).congr fun filter enabled =>
        accounts.handle_record makes (issued_of_mem (List.mem_of_getElem? here) enabled)
    · obtain rfl : call = other := by simpa using here
      rw [List.take_left]
      exact accounts.follows_record makes
    · rw [List.getElem?_eq_none (by simp; omega)] at here
      cases here

end Record

/-- Commands for a revision without such filters change nothing. -/
theorem record_commands_unfiltered {place : Nat} {destination : Destination}
    (held : deck.graph.destinations[place]? = some destination) (commands : List BiquadCommand)
    (buffer : Int16) (filters : Vector Biquad.FloatCoefficients maxFilters) :
    { deck.record ⟨place, buffer, filters, deck.table, deck.table, commands⟩ destination with
      calls := deck.calls } = deck := by
  obtain ⟨inside, rfl⟩ := Array.getElem?_eq_some_iff.mp held
  simp only [record, Array.setIfInBounds_def, dif_pos inside, Array.set_getElem_self]

/-- A silent act makes no call, and the deck accounts for its calls still. -/
theorem Accounts.perform (accounts : deck.Accounts start) {operation : Operation}
    (fits : operation.Fits) (silent : operation.Silent) :
    ∃ changed, operation.apply deck.graph = .ok changed ∧
      { deck with graph := changed }.Accounts start ∧
      changed.destinations.size = deck.graph.destinations.size := by
  -- What a silent operation leaves is the progress of every destination, which is all that
  -- counts.
  obtain ⟨changed, ran, sound, -⟩ := accounts.sound.apply fits
  have same := accounts.sound.apply_progress fits silent ran
  refine ⟨changed, ran, accounts.of_progress sound (funext fun place => ?_) rfl rfl, ?_⟩
  · simpa [progress] using congrArg (·[place]?) same
  · simpa using congrArg Array.size same

/-- A call that counts is recorded, and the deck accounts for it. -/
theorem Accounts.issue (accounts : deck.Accounts start) {place : Nat} {destination : Destination}
    (held : deck.graph.destinations[place]? = some destination) {revision : Revision}
    (filtered : revision.hasFloatFilters) (buffer : Int16) :
    ∃ (call : Call) (after : Destination), call.place = place ∧ call.buffer = buffer ∧
      (Act.issue place revision buffer).apply deck = .ok (deck.record call after) ∧
      (deck.record call after).Accounts start := by
  have distinct := List.nodup_finRange maxFilters
  have starts := Destination.commandsFor_started buffer distinct destination deck.table
  have places := Destination.commandsFor_places buffer distinct destination deck.table
  rcases ran : Destination.commandsFor buffer (List.finRange maxFilters) destination deck.table with
    ⟨after, table, commands⟩
  have made : destination.commands revision buffer deck.table = (after, table, commands) := by
    rw [Destination.commands, if_pos filtered, ran]
  simp only [ran] at starts places
  -- Making commands is one of the edits that keep a graph sound.
  obtain ⟨changed, edited, sound, -⟩ :
      ∃ changed, (Operation.edit place (.command revision buffer deck.table)).apply deck.graph =
        .ok changed ∧ changed.Sound ∧ _ := accounts.sound.apply trivial
  refine ⟨⟨place, buffer, destination.filters, deck.table, table, commands⟩, after, rfl, rfl, ?_,
    accounts.record ⟨held, rfl, rfl, starts, places⟩ ?_⟩
  · simp only [Act.apply, held, made, filtered, if_true]
  · simp only [Operation.apply, held, Edit.apply, made, ok_bind, pure_eq_ok] at edited
    rw [← Except.ok.inj edited] at sound
    exact sound

/-- Every act at a deck that accounts for its calls succeeds, and the deck does so still. -/
theorem Accounts.apply (accounts : deck.Accounts start) {act : Act} (fits : act.Fits) :
    ∃ next : Deck, act.apply deck = .ok next ∧ next.Accounts start ∧
      next.graph.destinations.size = deck.graph.destinations.size ∧
      next.calls.map (fun call => (call.place, call.buffer)) =
        deck.calls.map (fun call => (call.place, call.buffer)) ++
          (act.request? deck.graph.destinations.size).toList := by
  cases act with
  | advance index state =>
    exact ⟨_, rfl, accounts.of_progress accounts.sound rfl (by simp) rfl, rfl,
      by simp [Act.request?]⟩
  | perform operation =>
    obtain ⟨changed, ran, after, size⟩ := accounts.perform fits.1 fits.2
    exact ⟨_, by simp only [Act.apply, ran]; rfl, after, size, by simp [Act.request?]⟩
  | issue place revision buffer =>
    cases held : deck.graph.destinations[place]? with
    | none =>
      -- Without a destination there is no call.
      have outside : ¬place < deck.graph.destinations.size :=
        Nat.not_lt.mpr (Array.getElem?_eq_none_iff.mp held)
      exact ⟨deck, by simp only [Act.apply, held], accounts, rfl,
        by simp [Act.request?, outside]⟩
    | some destination =>
      have inside := (Array.getElem?_eq_some_iff.mp held).1
      by_cases filtered : 15 ≤ revision.number
      · obtain ⟨call, after, rfl, rfl, ran, still⟩ :=
          accounts.issue held (decide_eq_true filtered) buffer
        refine ⟨_, ran, still, by simp [Deck.record], ?_⟩
        simp [Deck.record, Act.request?, inside, filtered]
      · have unfiltered : revision.hasFloatFilters = false := decide_eq_false filtered
        refine ⟨deck, ?_, accounts, rfl, by simp [Act.request?, filtered]⟩
        simp only [Act.apply, held, Destination.commands, unfiltered, Bool.false_eq_true, if_false,
          record_commands_unfiltered held]

/-- Acts at a deck that accounts for its calls succeed, and the deck does so at their end. -/
theorem Accounts.applyAll (accounts : deck.Accounts start) {acts : List Act}
    (fits : ∀ act ∈ acts, act.Fits) :
    ∃ last : Deck, acts.foldlM Act.apply deck = .ok last ∧ last.Accounts start ∧
      last.calls.map (fun call => (call.place, call.buffer)) =
        deck.calls.map (fun call => (call.place, call.buffer)) ++
          acts.filterMap (·.request? deck.graph.destinations.size) := by
  induction acts generalizing deck with
  | nil => exact ⟨deck, rfl, accounts, by simp⟩
  | cons act acts ih =>
    obtain ⟨fit, fits⟩ := List.forall_mem_cons.mp fits
    obtain ⟨next, ran, after, size, calls⟩ := accounts.apply fit
    obtain ⟨last, run, done, all⟩ := ih after fits
    refine ⟨last, by rw [List.foldlM_cons, ran, ok_bind, run], done, ?_⟩
    -- The number of destinations stays, so that later acts make calls as they would have before.
    rw [all, calls, size, List.append_assoc]
    cases found : act.request? deck.graph.destinations.size <;> simp [found]

/-- A deck with newly allocated destinations and no calls accounts for them. -/
theorem accounts_allocate (revision : Revision) (splitters destinations : Nat)
    (table : Array Biquad.State) :
    Accounts table.size ⟨Graph.empty.allocate revision splitters destinations, table, []⟩ := by
  -- Destinations are created without places and without starts.
  have created : ∀ place progress,
      Deck.progress ⟨Graph.empty.allocate revision splitters destinations, table, []⟩ place =
        some progress → progress = (.replicate _ none, .replicate _ false) := by
    intro place progress here
    obtain ⟨destination, held, rfl⟩ := Option.map_eq_some_iff.mp here
    simp only [Graph.allocate] at held
    split at held
    · simp [Graph.empty] at held
    · obtain ⟨id, -, rfl⟩ := Option.map_eq_some_iff.mp (Array.getElem?_map ▸ held)
      rfl
  constructor
  · exact Graph.sound_empty.allocate revision splitters destinations
  · intro place progress here index
    rw [created place progress here]
    simp [issued, Vector.get]
  · intro place progress here index
    rw [created place progress here]
    simp [lastOf, Vector.get]
  · rfl
  · intro index call here
    simp at here

/--
Whatever happens to newly allocated destinations, each call makes one command in place for each
filter that is enabled at the moment, in order and with its current coefficients. A command resets
its filter exactly when the last call of its destination made none for it. Each filter has one place
in the table for all calls, and the table grows by one state for each filter at its first command and
at no other time. Before revision 15 there are no commands, and no call changes anything.
-/
theorem calls_follow (revision : Revision) (splitters destinations : Nat)
    (table : Array Biquad.State) {acts : List Act} (fits : ∀ act ∈ acts, act.Fits) :
    let graph := Graph.empty.allocate revision splitters destinations
    (∃ deck : Deck, acts.foldlM Act.apply ⟨graph, table, []⟩ = .ok deck ∧
      deck.calls.map (fun call => (call.place, call.buffer)) =
        acts.filterMap (·.request? graph.destinations.size) ∧
      deck.table.size = (deck.calls.getLast?.map (·.after.size)).getD table.size ∧
      ∃ handle : Nat → Fin maxFilters → Nat, ∀ (index : Nat) (call : Call),
        deck.calls[index]? = some call →
          call.Follows handle table.size (deck.calls.take index)) ∧
    ∀ (destination : Destination) (older : Revision) (buffer : Int16)
      (states : Array Biquad.State), older.number < 15 →
        destination.commands older buffer states = (destination, states, []) := by
  obtain ⟨deck, ran, accounts, calls⟩ :=
    (accounts_allocate revision splitters destinations table).applyAll fits
  refine ⟨⟨deck, ran, calls, accounts.size, deck.handle, accounts.follows⟩, ?_⟩
  -- Revisions before the fifteenth have no such filters.
  intro destination older buffer states early
  have unfiltered : older.hasFloatFilters = false := decide_eq_false (Nat.not_le.mpr early)
  simp only [Destination.commands, unfiltered, Bool.false_eq_true, if_false]

/-- The first filter runs, is left out for one call by an edit and comes back with a section; the
second one comes in its absence and gets the next place. -/
theorem calls_follow_edited :
    let on : Biquad.FloatCoefficients := { Biquad.FloatCoefficients.zero with enabled := 1 }
    let sent : Section :=
      { header := ⟨headerMagic, 0, 1, .zeros 0x14⟩
        listings := []
        settings := [⟨destinationMagic, 0, .replicate _ 0, 0, some (.replicate _ on), 1, 0,
          .zeros 10⟩] }
    let filter (index : Fin 2) (filter : Biquad.FloatCoefficients) : Act :=
      .perform (.edit 0 (.setFilter index filter))
    let issue : Act := .issue 0 .newest 5
    let acts := [filter 0 on, issue, .advance 1 ⟨1, 2, 3, 4⟩, issue, filter 0 .zero, filter 1 on,
      issue, .issue 0 { number := 14 } 5, .perform (.update sent.encode), issue]
    (∀ act ∈ acts, act.Fits) ∧
      ∃ deck : Deck, acts.foldlM Act.apply
          ⟨Graph.empty.allocate .newest 1 2, #[.initial], []⟩ = .ok deck ∧
        (∃ handle : Nat → Fin maxFilters → Nat, ∀ (index : Nat) (call : Call),
          deck.calls[index]? = some call → call.Follows handle 1 (deck.calls.take index)) ∧
        deck.calls.map (fun call => call.commands.map fun command =>
            (command.state, command.reset)) =
          [[(some 1, true)], [(some 1, false)], [(some 2, true)],
            [(some 1, true), (some 2, false)]] ∧
        deck.table.size = 3 := by
  intro on sent filter issue acts
  have fits : ∀ act ∈ acts, act.Fits := by
    simp only [acts, List.forall_mem_cons, Act.Fits, Operation.Fits, Operation.Silent, filter,
      issue, true_and, and_true]
    exact ⟨by decide +kernel, by simp⟩
  obtain ⟨⟨deck, ran, -, -, follows⟩, -⟩ := calls_follow .newest 1 2 #[.initial] fits
  -- The places and resets are read off the run.
  have seen : (acts.foldlM Act.apply
      ⟨Graph.empty.allocate .newest 1 2, #[.initial], []⟩).toOption.map (fun deck =>
        (deck.calls.map fun call => call.commands.map fun command =>
          (command.state, command.reset), deck.table.size)) =
      some ([[(some 1, true)], [(some 1, false)], [(some 2, true)],
        [(some 1, true), (some 2, false)]], 3) := by
    decide +kernel
  rw [ran] at seen
  obtain ⟨commands, size⟩ := Prod.mk.inj (Option.some.inj seen)
  exact ⟨fits, deck, ran, follows, commands, size⟩

end Deck

end Mixdown.Splitter
