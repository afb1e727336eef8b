import Mixdown.Proofs.Loudness.InPlace

/-!
What the effects channel carries is never heard. Two runs of calls that differ in its samples alone end
alike call by call, with the same readings after each.
-/

namespace Mixdown.Loudness

/-- Samples of frames of a width differ in the effects channel at most, and not at all when the frames
are too narrow to have one. -/
def SameBut (width : Nat) (left right : List Single) : Prop :=
  left.length = right.length ∧
    ∀ index < left.length, index % width ≠ effectsChannel → left[index]? = right[index]?

/-- Operations on a meter of a width are the same but for the effects channel of what they analyze. -/
inductive Operation.Alike (width : Nat) : Operation → Operation → Prop
  | same (operation : Operation) : Alike width operation operation
  | analyses {left right : List Single} (count : Nat) (same : SameBut width left right) :
    Alike width (.analyze left count) (.analyze right count)

/-- Runs on a meter are the same but for the effects channel of what they analyze, at the width that
the meter has when it is called. -/
inductive RunsAlike : Meter → List Operation → List Operation → Prop
  | nil (meter : Meter) : RunsAlike meter [] []
  | cons {meter : Meter} {left right : Operation} {lefts rights : List Operation}
    (call : left.Alike meter.parameters.channels right)
    (later : RunsAlike (left.call.on meter).2 lefts rights) :
    RunsAlike meter (left :: lefts) (right :: rights)

/-- What shows of a call: how it ended, and the meter's readings and whether it is set up after it. -/
structure Shown where
  outcome : Except Error Unit
  ready : Bool
  momentary : Single
  shortTerm : Single
  integrated : Single

/-- What shows of a call with its end and the meter that it left. -/
def shown (ended : Except Error Unit × Meter) : Shown :=
  ⟨ended.1, ended.2.ready, ended.2.momentary, ended.2.shortTerm, ended.2.integrated⟩

/-- What shows of calls on a meter, one after the other. -/
def trace (meter : Meter) : List Operation → List Shown
  | [] => []
  | operation :: later =>
    let ended := operation.call.on meter
    shown ended :: trace ended.2 later

/-- Lists that begin at a channel are the same but for the item of the effects channel. -/
inductive AlikeFrom : Nat → List α → List α → Prop
  | nil (channel : Nat) : AlikeFrom channel [] []
  | cons {channel : Nat} {left right : α} {lefts rights : List α}
    (same : channel ≠ effectsChannel → left = right)
    (later : AlikeFrom (channel + 1) lefts rights) :
    AlikeFrom channel (left :: lefts) (right :: rights)

/-- Meters are the same but for the memories of the effects channel's filters. -/
def Meter.Alike (left right : Meter) : Prop :=
  ∃ channels, right = { left with channels } ∧ AlikeFrom 0 left.channels channels

namespace AlikeFrom

/-- A list is the same as itself. -/
theorem refl (channel : Nat) (items : List α) : AlikeFrom channel items items := by
  -- Each item is the same as itself, the effects channel's included.
  induction items generalizing channel with
  | nil => exact .nil channel
  | cons item items ih => exact .cons (fun _ => rfl) (ih (channel + 1))

/-- Lists are the same but for the effects channel when each of their other items is. -/
theorem of_getElem? {channel : Nat} {lefts rights : List α} (length : lefts.length = rights.length)
    (same : ∀ index < lefts.length, channel + index ≠ effectsChannel →
      lefts[index]? = rights[index]?) : AlikeFrom channel lefts rights := by
  induction lefts generalizing channel rights with
  | nil =>
    obtain rfl := List.eq_nil_of_length_eq_zero length.symm
    exact .nil channel
  | cons left lefts ih =>
    -- The first item is the one at this channel, and the rest begins at the next.
    obtain _ | ⟨right, rights⟩ := rights
    · cases length
    · refine .cons (fun other => ?_) (ih (Nat.succ.inj length) fun index inside other => ?_)
      · exact Option.some.inj (same 0 (by simp) other)
      · exact same (index + 1) (Nat.succ_lt_succ inside) (by omega)

end AlikeFrom

section Alike

variable {left right : Meter}

/-- Setting a sample of the effects channel leaves the samples the same but for that channel. -/
theorem SameBut.set {width index : Nat} (samples : List Single) (sample : Single)
    (effects : index % width = effectsChannel) :
    SameBut width samples (samples.set index sample) := by
  refine ⟨List.length_set.symm, fun other _ counts => ?_⟩
  rw [List.getElem?_set_ne]
  rintro rfl
  exact counts effects

/-- The first frames of samples that are the same but for the effects channel are so, too. -/
theorem SameBut.take {width : Nat} {left right : List Single} (same : SameBut width left right) :
    AlikeFrom 0 (left.take width) (right.take width) := by
  refine .of_getElem? (by rw [List.length_take, List.length_take, same.1]) fun index inside other => ?_
  rw [List.length_take] at inside
  -- In the first frame a sample lies at the number of its channel.
  have channel : index % width = index := Nat.mod_eq_of_lt (by omega)
  rw [List.getElem?_take_of_lt (by omega), List.getElem?_take_of_lt (by omega)]
  exact same.2 index (by omega) (by rwa [channel, ← Nat.zero_add index])

/-- What follows the first frame is the same but for the effects channel if all samples are. -/
theorem SameBut.drop {width : Nat} {left right : List Single} (same : SameBut width left right) :
    SameBut width (left.drop width) (right.drop width) := by
  refine ⟨by rw [List.length_drop, List.length_drop, same.1], fun index inside other => ?_⟩
  rw [List.length_drop] at inside
  rw [List.getElem?_drop, List.getElem?_drop]
  -- A frame further on, a sample belongs to the same channel.
  refine same.2 (width + index) (by omega) ?_
  rwa [Nat.add_mod_left]

/-- Frames that are the same but for the effects channel have the same sum of squares, and only the
memories of that channel tell them apart. -/
theorem weighFrame_alike (shelf highPass : Weighting) {channel : Nat} {lefts rights : List Channel}
    (memories : AlikeFrom channel lefts rights) {frame other : List Single}
    (frames : AlikeFrom channel frame other) (sum : Float) :
    AlikeFrom channel (Meter.weighFrame shelf highPass channel lefts frame sum).1
        (Meter.weighFrame shelf highPass channel rights other sum).1 ∧
      (Meter.weighFrame shelf highPass channel lefts frame sum).2 =
        (Meter.weighFrame shelf highPass channel rights other sum).2 := by
  -- Both frames are weighed along the channels, which end together.
  induction memories generalizing frame other sum with
  | nil channel => exact ⟨.nil channel, rfl⟩
  | @cons channel memory memoryToo lefts rights same later ih =>
    cases frames with
    | nil => exact ⟨.cons same later, rfl⟩
    | cons heard behind =>
      by_cases effects : channel = effectsChannel
      · -- Whatever this channel gives, its square is not added.
        obtain ⟨after, sums⟩ := ih behind sum
        simp only [Meter.weighFrame, if_pos effects]
        exact ⟨.cons (fun counts => absurd effects counts) after, sums⟩
      · -- Any other channel has the same memory and sample on both sides, and adds the same.
        obtain rfl := same effects
        obtain rfl := heard effects
        simp only [Meter.weighFrame, if_neg effects]
        obtain ⟨after, sums⟩ := ih behind _
        exact ⟨.cons (fun _ => rfl) after, sums⟩

namespace Meter.Alike

/-- A meter is like itself. -/
theorem refl (meter : Meter) : meter.Alike meter := ⟨meter.channels, rfl, .refl 0 _⟩

/-- A frame that is the same but for the effects channel leaves meters alike. -/
theorem pushFrame (alike : left.Alike right) {frame other : List Single}
    (frames : AlikeFrom 0 frame other) : (left.pushFrame frame).Alike (right.pushFrame other) := by
  obtain ⟨channels, rfl, memories⟩ := alike
  obtain ⟨after, sums⟩ := weighFrame_alike left.shelf left.highPass memories frames 0
  refine ⟨_, ?_, after⟩
  simp only [Meter.pushFrame, sums]

/-- Frames of samples that are the same but for the effects channel leave meters alike. -/
theorem hear {width : Nat} {samples others : List Single} (same : SameBut width samples others)
    (count : Nat) (alike : left.Alike right) :
    ((cut width count samples).foldl Meter.pushFrame left).Alike
      ((cut width count others).foldl Meter.pushFrame right) := by
  -- A frame is taken from the front of both, and the rest of them is the same but for the channel
  -- too.
  induction count generalizing left right samples others with
  | zero => exact alike
  | succ count ih => exact ih same.drop (alike.pushFrame same.take)

/-- The readings do not look at the memories of the filters. -/
theorem settle (alike : left.Alike right) : (settle left).Alike (settle right) := by
  obtain ⟨channels, rfl, memories⟩ := alike
  -- Readings are taken from the window alone.
  simp only [Loudness.settle]
  split
  · exact ⟨channels, rfl, memories⟩
  · exact ⟨channels, rfl, memories⟩

/-- An analysis of samples that are the same but for the effects channel ends alike on meters that are
alike, and leaves such meters. -/
theorem analyze (alike : left.Alike right) {samples others : List Single}
    (same : SameBut left.parameters.channels samples others) (count : Nat) :
    ((Call.analyze samples count).on left).1 = ((Call.analyze others count).on right).1 ∧
      ((Call.analyze samples count).on left).2.Alike ((Call.analyze others count).on right).2 := by
  -- The frames leave meters alike, and so do the readings that are taken after them.
  have heard := (alike.hear same count).settle
  obtain ⟨channels, rfl, memories⟩ := alike
  -- Whether a meter listens depends on its set-up and on how many samples there are.
  simp only [Call.analyze, InPlace.on_get, Call.on_ite, Call.on_listen, ← same.1]
  split
  · split
    · exact ⟨rfl, channels, rfl, memories⟩
    · exact ⟨rfl, heard⟩
  · exact ⟨rfl, channels, rfl, memories⟩

/-- Calls that are the same but for the effects channel end alike on meters that are alike, and leave
such meters. -/
theorem on_call (alike : left.Alike right) {first second : Operation}
    (called : first.Alike left.parameters.channels second) :
    (first.call.on left).1 = (second.call.on right).1 ∧
      (first.call.on left).2.Alike (second.call.on right).2 := by
  -- Only an analysis can differ between the two calls.
  cases called with
  | analyses count same => exact alike.analyze same count
  | same =>
    cases first with
    | analyze samples count => exact alike.analyze ⟨rfl, fun _ _ _ => rfl⟩ count
    | setUp parameters =>
      -- A meter that is set up anew is made from the parameters alone, and one that is not is kept.
      rw [Operation.on_call, Operation.on_call, Operation.apply, Operation.apply,
        setUp_congr right left]
      cases left.setUp parameters with
      | error refusal => exact ⟨rfl, alike⟩
      | ok next => exact ⟨rfl, refl next⟩
    | setMomentary seconds =>
      obtain ⟨channels, rfl, memories⟩ := alike
      simp only [Operation.call, Call.setMomentary, InPlace.on_get, Call.on_ite]
      split
      · exact ⟨rfl, channels, rfl, memories⟩
      · exact ⟨rfl, channels, rfl, memories⟩
    | reset =>
      obtain ⟨channels, rfl, memories⟩ := alike
      -- A reset clears the memories of all channels.
      exact ⟨rfl, refl left.reset⟩
    | finalize =>
      obtain ⟨channels, rfl, memories⟩ := alike
      exact ⟨rfl, channels, rfl, memories⟩

end Meter.Alike

/-- What shows of meters that are alike is the same when the calls on them ended alike. -/
theorem Meter.Alike.shown_eq {ended other : Except Error Unit × Meter} (ends : ended.1 = other.1)
    (alike : ended.2.Alike other.2) : shown ended = shown other := by
  obtain ⟨channels, left, -⟩ := alike
  rw [shown, shown, ends, left]

/-- What shows of runs that are the same but for the effects channel is the same on meters that are
alike. -/
theorem RunsAlike.trace_eq {lefts rights : List Operation} (runs : RunsAlike left lefts rights)
    (alike : left.Alike right) : trace left lefts = trace right rights := by
  -- The relation is asked at the left meter, and the right one is only known to be like it.
  induction runs generalizing right with
  | nil => rfl
  | cons call later ih =>
    obtain ⟨ends, after⟩ := alike.on_call call
    rw [trace, trace, after.shown_eq ends, ih after]

end Alike

/--
Two runs of calls on new meters that differ at most in the samples of the effects channel end alike
call by call, and the meters read the same after each of them.
-/
theorem trace_unheard {lefts rights : List Operation} (runs : RunsAlike .create lefts rights) :
    trace .create lefts = trace .create rights := runs.trace_eq (.refl .create)

/-- Neither an infinity nor a NaN in the effects channel is heard, be it by a meter that is reset later
on or by one that was set up to more channels. -/
theorem trace_unheard_invalid :
    let infinite : Single := ⟨0x7F800000⟩
    let run (early late : Single) : List Operation :=
      [.setUp { rate := 8, channels := 4 }, .analyze [1, 2, 3, 4, 1, 2, 3, early] 2, .reset,
        .analyze [1, 2, 3, early] 1, .setUp { channels := 7 }, .setUp { rate := 8, channels := 6 },
        .setMomentary 1, .analyze [1, 2, 3, late, 5, 6] 1, .analyze [1, 2, 3, late] 1, .finalize]
    RunsAlike .create (run 0 0) (run infinite .invalid) ∧
      trace .create (run 0 0) = trace .create (run infinite .invalid) ∧
      (trace .create (run infinite .invalid)).map (·.outcome) =
        [.ok (), .ok (), .ok (), .ok (), .error (.channelCount 7), .ok (), .ok (), .ok (),
          .error (.shortBuffer 6 4), .ok ()] := by
  intro infinite run
  -- Each pair of samples differs where the effects channel lies at the width of the meter then.
  have two : SameBut 4 [1, 2, 3, 4, 1, 2, 3, 0] [1, 2, 3, 4, 1, 2, 3, infinite] :=
    .set _ infinite (show 7 % 4 = effectsChannel by decide)
  have one : SameBut 4 [1, 2, 3, 0] [1, 2, 3, infinite] :=
    .set _ infinite (show 3 % 4 = effectsChannel by decide)
  have wide : SameBut 6 [1, 2, 3, 0, 5, 6] [1, 2, 3, .invalid, 5, 6] :=
    .set _ .invalid (show 3 % 6 = effectsChannel by decide)
  have short : SameBut 6 [1, 2, 3, 0] [1, 2, 3, .invalid] :=
    .set _ .invalid (show 3 % 6 = effectsChannel by decide)
  have alike : RunsAlike .create (run 0 0) (run infinite .invalid) :=
    .cons (.same _) (.cons (.analyses 2 two) (.cons (.same _) (.cons (.analyses 1 one)
      (.cons (.same _) (.cons (.same _) (.cons (.same _) (.cons (.analyses 1 wide)
        (.cons (.analyses 1 short) (.cons (.same _) (.nil _))))))))))
  exact ⟨alike, trace_unheard alike, rfl⟩

end Mixdown.Loudness
