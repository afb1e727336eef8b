import Mathlib.Data.List.FinRange
import Mathlib.Data.List.Nodup
import Mathlib.Data.List.Perm.Basic
import Mixdown.Proofs.Room

/-! Owners issue commands with memories at places that are new to the tables, so none is shared. -/

namespace Mixdown

/-- A place is live when a state is kept there. -/
def States.Live (states : States) (place : Place) : Prop := (states.read place).isSome

/-- What a command that has not run yet finds at its place. -/
def Memory.Fresh : Memory → Prop
  | .biquad state => state = .initial
  | .limiter state => state = .initial
  | .compressor state => state = .zero

/-- A command can go on from a fresh memory. -/
theorem Memory.Fresh.settled {memory : Memory} (fresh : memory.Fresh) (command : Command) :
    command.Settled (command.begin memory) := by
  cases command with
  | biquad command =>
    cases memory with
    | biquad state =>
      -- A zero state is calm for integers, and its unused words are clear for doubles.
      obtain rfl : state = .initial := fresh
      cases double : command.double with
      | false => exact BiquadCommand.settled_begin double fun _ => Biquad.calm_initial
      | true =>
        simp [Command.Settled, Command.begin, BiquadCommand.Settled, BiquadCommand.begin, double,
          Biquad.State.trim]
    | limiter state => trivial
    | compressor state => trivial
  | limiter command => trivial
  | compressor command => trivial

/-- Memories that were there are there still, at the same places. -/
def States.Extends (new old : States) : Prop :=
  ∀ place memory, old.read place = some memory → new.read place = some memory

namespace States

/-- States are kept by themselves. -/
theorem Extends.refl (states : States) : states.Extends states := fun _ _ held => held

/-- What is kept twice is kept. -/
theorem Extends.trans {new middle old : States} (second : new.Extends middle)
    (first : middle.Extends old) : new.Extends old :=
  fun place memory held => second place memory (first place memory held)

/-- Places stay live. -/
theorem Extends.live {new old : States} (keeps : new.Extends old) {place : Place}
    (live : old.Live place) : new.Live place := by
  obtain ⟨memory, held⟩ := Option.isSome_iff_exists.mp live
  exact Option.isSome_iff_exists.mpr ⟨memory, keeps place memory held⟩

end States

/-- What owners hold after they claimed places was their own before, or is new and fresh. -/
structure Claims (old new : States) (before after : List Place) : Prop where
  keeps : new.Extends old
  origin : ∀ place ∈ after, place ∈ before ∨
    ¬old.Live place ∧ ∃ memory : Memory, new.read place = some memory ∧ memory.Fresh
  distinct : (∀ place ∈ before, old.Live place) → before.Nodup → after.Nodup

namespace Claims

variable {old middle new : States} {before between after front back frontAfter backAfter : List Place}

/-- Owners of live places hold live places after they claimed more. -/
theorem live (claims : Claims old new before after) (lives : ∀ place ∈ before, old.Live place)
    (place : Place) (held : place ∈ after) : new.Live place := by
  rcases claims.origin place held with held | ⟨-, memory, found, -⟩
  · exact claims.keeps.live (lives place held)
  · exact Option.isSome_iff_exists.mpr ⟨memory, found⟩

/-- Owners who claim nothing hold what they held. -/
theorem refl (states : States) (places : List Place) : Claims states states places places where
  keeps := .refl states
  origin _ held := .inl held
  distinct _ distinct := distinct

/-- The same owners claim places twice. -/
theorem trans (first : Claims old middle before between) (second : Claims middle new between after) :
    Claims old new before after where
  keeps := second.keeps.trans first.keeps
  origin place held := by
    -- A place claimed first is still fresh, and one claimed second was not live at first either.
    rcases second.origin place held with held | ⟨away, found⟩
    · rcases first.origin place held with held | ⟨away, memory, found, fresh⟩
      · exact .inl held
      · exact .inr ⟨away, memory, second.keeps place memory found, fresh⟩
    · exact .inr ⟨fun live => away (first.keeps.live live), found⟩
  distinct lives distinct := second.distinct (first.live lives) (first.distinct lives distinct)

/-- Different owners claim places one after the other. -/
theorem append (first : Claims old middle front frontAfter)
    (second : Claims middle new back backAfter) :
    Claims old new (front ++ back) (frontAfter ++ backAfter) where
  keeps := second.keeps.trans first.keeps
  origin place held := by
    -- Each owner's places come from its own, or were new when it claimed them.
    rcases List.mem_append.mp held with held | held
    · rcases first.origin place held with held | ⟨away, memory, found, fresh⟩
      · exact .inl (List.mem_append_left back held)
      · exact .inr ⟨away, memory, second.keeps place memory found, fresh⟩
    · rcases second.origin place held with held | ⟨away, found⟩
      · exact .inl (List.mem_append_right front held)
      · exact .inr ⟨fun live => away (first.keeps.live live), found⟩
  distinct lives distinct := by
    obtain ⟨left, right, apart⟩ := List.nodup_append.mp distinct
    have leftLives := fun place held => lives place (List.mem_append_left back held)
    have rightLives := fun place held => lives place (List.mem_append_right front held)
    refine List.nodup_append.mpr ⟨first.distinct leftLives left,
      second.distinct (fun place held => first.keeps.live (rightLives place held)) right, ?_⟩
    -- What the first owners hold by now is live, so the second ones cannot claim it as new.
    rintro place here other there rfl
    rcases second.origin place there with there | ⟨away, -⟩
    · rcases first.origin place here with here | ⟨away, -⟩
      · exact apart place here place there rfl
      · exact away (rightLives place there)
    · exact away (first.live leftLives place here)

/-- An owner claims one new place. -/
theorem one {place : Place} {memory : Memory} (keeps : new.Extends old)
    (away : ¬old.Live place) (found : new.read place = some memory) (fresh : memory.Fresh)
    (added : after.Perm (place :: before)) : Claims old new before after where
  keeps
  origin other held := by
    -- The one place more is the new one.
    rcases List.mem_cons.mp (added.mem_iff.mp held) with rfl | held
    · exact .inr ⟨away, memory, found, fresh⟩
    · exact .inl held
  distinct lives distinct :=
    added.nodup_iff.mpr (List.nodup_cons.mpr ⟨fun held => away (lives place held), distinct⟩)

/-- What owners hold who held nothing is fresh. -/
theorem fresh (claims : Claims old new [] after) {place : Place} (held : place ∈ after) :
    ∃ memory : Memory, new.read place = some memory ∧ memory.Fresh := by
  rcases claims.origin place held with nowhere | ⟨-, found⟩
  · cases nowhere
  · exact found

end Claims

/-- What has been set is found in its place. -/
@[simp] theorem get_set_self (items : Vector α n) (index : Fin n) (item : α) :
    (items.set index item).get index = item :=
  Vector.getElem_set_self index.isLt

/-- What has been set elsewhere leaves a place as it is. -/
theorem get_set_ne (items : Vector α n) {index other : Fin n} (apart : other ≠ index) (item : α) :
    (items.set index item).get other = items.get other :=
  Vector.getElem_set_ne index.isLt other.isLt fun same => apart (Fin.ext same.symm)

/-- What is set in its own place changes nothing. -/
theorem set_get (items : Vector α n) {index : Fin n} {item : α} (held : items.get index = item) :
    items.set index item = items := by
  subst held
  exact Vector.set_getElem_self index.isLt

/-- The places of filters that have one. -/
def filterPlaces (states : Vector (Option Nat) n) : List Place :=
  states.toList.filterMap (·.map Place.biquad)

/-- A filter without a place gets one in addition to those that were there. -/
theorem filterPlaces_set {states : Vector (Option Nat) n} {index : Fin n}
    (none_ : states[index] = none) (place : Nat) :
    (filterPlaces (states.set index (some place))).Perm (.biquad place :: filterPlaces states) := by
  -- The list is taken apart at the place, which contributes nothing before and one after.
  have inside : index.val < states.toList.length := by simp
  have whole : states.toList =
      states.toList.take index ++ none :: states.toList.drop (index + 1) := by
    have missing : states.toList[index.val] = none := by simpa using none_
    rw [← missing, List.getElem_cons_drop, List.take_append_drop]
  have changed : (states.set index (some place)).toList =
      states.toList.take index ++ some place :: states.toList.drop (index + 1) := by
    rw [Vector.toList_set, List.set_eq_take_append_cons_drop, if_pos inside]
  rw [filterPlaces, filterPlaces, changed]
  conv_rhs => rw [whole]
  simp only [List.filterMap_append, List.filterMap_cons, Option.map_some, Option.map_none]
  exact List.perm_middle

/-- The commands of filters that have places keep their states there. -/
theorem filterPlaces_commands {states : Vector (Option Nat) n} {indices : List (Fin n)}
    (ordered : indices.Sublist (List.finRange n))
    (held : ∀ index ∈ indices, (states.get index).isSome)
    {command : Fin n → Nat → BiquadCommand}
    (placed : ∀ index place, (command index place).state = some place) :
    ((indices.map fun index => Command.biquad
      (command index ((states.get index).getD 0))).filterMap Command.place?).Sublist
        (filterPlaces states) := by
  -- Both sides run over the same filters, and a filter that has a place contributes just it.
  have own : (indices.map fun index => Command.biquad
        (command index ((states.get index).getD 0))).filterMap Command.place? =
      indices.filterMap fun index => (states.get index).map Place.biquad := by
    rw [List.filterMap_map]
    refine List.filterMap_congr fun index here => ?_
    obtain ⟨place, found⟩ := Option.isSome_iff_exists.mp (held index here)
    simp only [Function.comp, Command.place?, placed, found, Option.getD_some]
  have listed : states.toList = (List.finRange n).map states.get :=
    List.ext_getElem (by simp) fun index before inside => by simp [Vector.get]
  have all : filterPlaces states =
      (List.finRange n).filterMap fun index => (states.get index).map Place.biquad := by
    rw [filterPlaces, listed, List.filterMap_map]
    rfl
  rw [own, all]
  exact ordered.filterMap _

/-- One of the tables of states, with the places and the memories that it keeps. -/
structure Table (α : Type) where
  put : Array α → States
  place : Nat → Place
  memory : α → Memory
  read_own : ∀ table index, (put table).read (place index) = table[index]?.map memory
  read_other : ∀ table changed other, (∀ index, other ≠ place index) →
    (put changed).read other = (put table).read other

namespace Table

/-- The table of the filters' states. -/
def biquad (states : States) : Table Biquad.State where
  put table := { states with biquad := table }
  place := .biquad
  memory := .biquad
  read_own _ _ := rfl
  read_other _ _ other apart := by
    cases other with
    | biquad index => exact absurd rfl (apart index)
    | limiter index => rfl
    | compressor index => rfl

/-- The table of the limiters' states. -/
def limiter (states : States) : Table Limiter.State where
  put table := { states with limiter := table }
  place := .limiter
  memory := .limiter
  read_own _ _ := rfl
  read_other _ _ other apart := by
    cases other with
    | biquad index => rfl
    | limiter index => exact absurd rfl (apart index)
    | compressor index => rfl

/-- The table of the compressors' states. -/
def compressor (states : States) : Table Compressor.State where
  put table := { states with compressor := table }
  place := .compressor
  memory := .compressor
  read_own _ _ := rfl
  read_other _ _ other apart := by
    cases other with
    | biquad index => rfl
    | limiter index => rfl
    | compressor index => exact absurd rfl (apart index)

variable (kept : Table α) (table : Array α)

/-- A new state leaves all others where they are. -/
theorem extends_push (added : α) : (kept.put (table.push added)).Extends (kept.put table) := by
  intro place memory held
  -- Within the table the new state comes behind the others, and other tables are not touched.
  by_cases own : ∃ index, place = kept.place index
  · obtain ⟨index, rfl⟩ := own
    rw [kept.read_own] at held ⊢
    obtain ⟨item, found, rfl⟩ := Option.map_eq_some_iff.mp held
    obtain ⟨inside, rfl⟩ := Array.getElem?_eq_some_iff.mp found
    rw [Array.getElem?_push_lt inside]
    rfl
  · rw [← held]
    exact kept.read_other _ _ place (not_exists.mp own)

/-- An owner claims a place in a table unless it holds one. -/
theorem claims {owned : Option Nat} {item : α} (fresh : (kept.memory item).Fresh)
    {before after : List Place} (held : owned.isSome → after = before)
    (added : owned = none → after.Perm (kept.place table.size :: before)) :
    Claims (kept.put table) (kept.put (allot owned item table).2) before after := by
  cases owned with
  | some place =>
    rw [held rfl]
    exact .refl _ _
  | none =>
    -- The new state comes behind all others of its table, so its place was not live before.
    refine .one (kept.extends_push table item) ?_ ?_ fresh (added rfl)
    · rw [States.Live, kept.read_own]
      simp
    · rw [kept.read_own, allot, Array.getElem?_push_size]
      rfl

/-- An owner of one place claims it unless it holds it. -/
theorem claims_one {owned : Option Nat} {item : α} (fresh : (kept.memory item).Fresh) :
    Claims (kept.put table) (kept.put (allot owned item table).2)
      (owned.map kept.place).toList [kept.place (allot owned item table).1] := by
  -- A holder keeps its only place, and all others hold the table's next one alone.
  refine kept.claims table fresh (fun held => ?_) fun missing => ?_
  · obtain ⟨place, rfl⟩ := Option.isSome_iff_exists.mp held
    rfl
  · rw [missing]
    exact .refl _

end Table

/-- A filter among several claims a place for its state unless it holds one. -/
theorem allot_claims {states : Vector (Option Nat) n} (index : Fin n) (others : States)
    (table : Array Biquad.State) :
    Claims { others with biquad := table }
      { others with biquad := (allot states[index] .initial table).2 } (filterPlaces states)
      (filterPlaces (states.set index (some (allot states[index] .initial table).1))) := by
  -- A filter that holds a place sets what stands there already.
  refine (Table.biquad others).claims table rfl (fun held => ?_) fun missing => ?_
  · obtain ⟨place, here⟩ := Option.isSome_iff_exists.mp held
    simp only [here, allot, set_get states here]
  · simp only [missing, allot]
    exact filterPlaces_set missing table.size

/-- Owners issue commands among some channels, with memories at places of their own. -/
structure Issue (channels : Nat) (old new : States) (before after : List Place)
    (commands : List Command) : Prop where
  claims : Claims old new before after
  held : (commands.filterMap Command.place?).Sublist after
  placed : ∀ command ∈ commands, command.place?.isSome
  within : ∀ command ∈ commands, command.Within channels

namespace Issue

variable {channels : Nat} {old middle new : States} {before after front back frontAfter : List Place}
  {backAfter : List Place} {commands more : List Command}

/-- An owner who issues nothing claims nothing. -/
theorem none (states : States) (places : List Place) :
    Issue channels states states places places [] where
  claims := .refl states places
  held := List.nil_sublist places
  placed := by simp
  within := by simp

/-- An owner of one place issues the command that keeps its memory there. -/
theorem one {place : Place} {command : Command} (claims : Claims old new before [place])
    (placed : command.place? = some place) (within : command.Within channels) :
    Issue channels old new before [place] [command] where
  claims
  held := by simp [placed]
  placed other here := by
    obtain rfl := List.mem_singleton.mp here
    rw [placed]
    rfl
  within other here := by
    obtain rfl := List.mem_singleton.mp here
    exact within

/-- An owner of several filters issues the commands of those among them that have places. -/
theorem filters {states : Vector (Option Nat) n} {indices : List (Fin n)}
    {command : Fin n → Nat → BiquadCommand} (claims : Claims old new before (filterPlaces states))
    (ordered : indices.Sublist (List.finRange n))
    (held : ∀ index ∈ indices, (states.get index).isSome)
    (placed : ∀ index place, (command index place).state = some place)
    (within : ∀ index ∈ indices, ∀ place, (Command.biquad (command index place)).Within channels) :
    Issue channels old new before (filterPlaces states)
      (indices.map fun index => .biquad (command index ((states.get index).getD 0))) where
  claims
  held := filterPlaces_commands ordered held placed
  placed other here := by
    obtain ⟨index, -, rfl⟩ := List.mem_map.mp here
    simp only [Command.place?, placed, Option.map_some, Option.isSome_some]
  within other here := by
    obtain ⟨index, among, rfl⟩ := List.mem_map.mp here
    exact within index among _

/-- Different owners issue commands one after the other. -/
theorem append (first : Issue channels old middle front frontAfter commands)
    (second : Issue channels middle new back backAfter more) :
    Issue channels old new (front ++ back) (frontAfter ++ backAfter) (commands ++ more) where
  claims := first.claims.append second.claims
  held := by
    rw [List.filterMap_append]
    exact first.held.append second.held
  placed command here := by
    -- A command is the one owner's or the other's.
    rcases List.mem_append.mp here with here | here
    · exact first.placed command here
    · exact second.placed command here
  within command here := by
    rcases List.mem_append.mp here with here | here
    · exact first.within command here
    · exact second.within command here

/-- Owners who held nothing issue commands with distinct places. -/
theorem distinct (issue : Issue channels old new [] after commands) :
    (commands.map Command.place?).Nodup := by
  -- All commands have places, so their places are distinct as those of the owners are.
  have own : commands.map Command.place? = (commands.filterMap Command.place?).map some := by
    have placed := issue.placed
    clear issue
    induction commands with
    | nil => rfl
    | cons command commands ih =>
      obtain ⟨place, here⟩ := Option.isSome_iff_exists.mp (placed command (by simp))
      simp only [List.map_cons, here, List.filterMap_cons, List.cons.injEq, true_and]
      exact ih fun other there => placed other (by simp [there])
  have distinct : (commands.filterMap Command.place?).Nodup :=
    (issue.claims.distinct (by simp) List.nodup_nil).sublist issue.held
  rw [own]
  exact distinct.map (Option.some_injective _)

/-- Commands of owners who held nothing find memories that they can go on from. -/
theorem loads (issue : Issue channels old new [] after commands) :
    ∃ memories, List.Forall₂ (Command.Loads new) commands memories := by
  -- Owners who held nothing have claimed every place, and what they claimed is fresh.
  have each : ∀ command ∈ commands, ∃ memory, command.Loads new memory := by
    intro command here
    obtain ⟨place, placed⟩ := Option.isSome_iff_exists.mp (issue.placed command here)
    have held := issue.held.subset (List.mem_filterMap.mpr ⟨command, here, placed⟩)
    obtain ⟨memory, found, fresh⟩ := issue.claims.fresh held
    exact ⟨command.begin memory, place, memory, placed, found, rfl, fresh.settled command⟩
  clear issue
  induction commands with
  | nil => exact ⟨[], .nil⟩
  | cons command commands ih =>
    obtain ⟨memory, loads⟩ := each command (by simp)
    obtain ⟨memories, later⟩ := ih fun other there => each other (by simp [there])
    exact ⟨memory :: memories, .cons loads later⟩

end Issue

end Mixdown
