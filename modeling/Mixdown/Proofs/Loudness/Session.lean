import Mixdown.Proofs.Loudness.History
import Mixdown.Request.Run

/-! After any calls a meter reads what its whole history since the last start amounts to. -/

namespace Mixdown.Loudness

/-- The calls that a meter takes. -/
inductive Operation where
  | setUp (parameters : Parameters)
  | analyze (samples : List Single) (count : Nat)
  | setMomentary (seconds : Single)
  | reset
  | finalize

/-- The meter that a call leaves, unless the call is refused. -/
def Operation.apply (meter : Meter) : Operation → Except Error Meter
  | setUp parameters => meter.setUp parameters
  | analyze samples count => meter.analyze samples count
  | setMomentary seconds => .ok (meter.setMomentary seconds)
  | reset => .ok meter.reset
  | finalize => .ok meter.finalize

/-- A number of frames of one width that lie one behind the other. -/
def cut (width : Nat) : (count : Nat) → (samples : List Single) → List (List Single)
  | 0, _ => []
  | count + 1, samples => samples.take width :: cut width count (samples.drop width)

/-- A meter and the frames it has taken since it was last set up or reset. -/
structure Session where
  meter : Meter
  frames : List (List Single)

namespace Session

/-- The frames since the last start, after a call that was not refused. -/
def heard (session : Session) : Operation → List (List Single)
  | .setUp _ | .reset => []
  | .analyze samples count =>
    -- A meter that is not set up does not listen.
    if session.meter.ready then
      session.frames ++ cut session.meter.parameters.channels count samples
    else session.frames
  | .setMomentary _ | .finalize => session.frames

/-- The session after one more call; a call that is refused leaves it as it is. -/
def play (session : Session) (operation : Operation) : Session :=
  match operation.apply session.meter with
  | .error _ => session
  | .ok meter => ⟨meter, session.heard operation⟩

/-- The session of a new meter after some calls. -/
def run (operations : List Operation) : Session := operations.foldl play ⟨.create, []⟩

end Session

/-- The state of a meter is what the frames since its last start have made of it. -/
structure Follows (meter : Meter) (frames : List (List Single)) : Prop where
  wide : 0 < meter.parameters.channels
  narrow : meter.parameters.channels ≤ maxChannels
  rate : 0 < meter.parameters.rate
  shelf : meter.shelf = shelf meter.parameters.rate
  highPass : meter.highPass = pass meter.parameters.rate
  channels : meter.channels =
    (List.range meter.parameters.channels).map (memory meter.parameters.rate frames) ++
      List.replicate (maxChannels - meter.parameters.channels) .silent
  momentary : meter.momentaryRing.Keeps meter.parameters.rate
    (meanSquares meter.parameters.rate frames meter.parameters.channels)
  shortTerm : meter.shortTermRing.Keeps (3 * meter.parameters.rate)
    (meanSquares meter.parameters.rate frames meter.parameters.channels)
  seen : meter.seen = frames.length
  total : meter.total = sum (meanSquares meter.parameters.rate frames meter.parameters.channels)

section Steps

variable {meter : Meter} {frames : List (List Single)}

/-- Without frames no channel has a memory. -/
theorem silent_channels {channels : Nat} (rate : Nat) (narrow : channels ≤ maxChannels) :
    List.replicate maxChannels Channel.silent = (List.range channels).map (memory rate []) ++
      List.replicate (maxChannels - channels) .silent := by
  have silent : (List.range channels).map (memory rate []) =
      List.replicate channels Channel.silent := by
    rw [List.eq_replicate_iff]
    refine ⟨by simp, fun channel among => ?_⟩
    -- Filters that were fed nothing remember what they started with.
    obtain ⟨index, -, rfl⟩ := List.mem_map.mp among
    rfl
  rw [silent, List.replicate_append_replicate, Nat.add_sub_cancel' narrow]

/-- A meter that has just been set up has heard nothing. -/
theorem Follows.setUp {parameters : Parameters} {next : Meter}
    (accepted : meter.setUp parameters = .ok next) : Follows next [] := by
  rw [Meter.setUp] at accepted
  split at accepted
  · cases accepted
  split at accepted
  · cases accepted
  obtain rfl := Except.ok.inj accepted
  -- Neither the channels nor the rate were refused, so both are in range.
  have rate : 0 < parameters.rate := by omega
  have narrow : parameters.channels ≤ maxChannels := by omega
  exact {
    wide := show 0 < parameters.channels by omega
    narrow := narrow
    rate := rate
    shelf := rfl
    highPass := rfl
    channels := silent_channels parameters.rate narrow
    momentary := (Ring.create_keeps rate).clear
    shortTerm := (Ring.create_keeps (by omega)).clear
    seen := rfl
    total := rfl }

/-- A meter that is reset has heard nothing again. -/
theorem Follows.reset (follows : Follows meter frames) : Follows meter.reset [] where
  wide := follows.wide
  narrow := follows.narrow
  rate := follows.rate
  shelf := follows.shelf
  highPass := follows.highPass
  channels := silent_channels meter.parameters.rate follows.narrow
  momentary := follows.momentary.clear
  shortTerm := follows.shortTerm.clear
  seen := rfl
  total := rfl

/-- Changing the momentary window changes nothing that was heard. -/
theorem Follows.setMomentary (follows : Follows meter frames) (seconds : Single) :
    Follows (meter.setMomentary seconds) frames := by
  rw [Meter.setMomentary]
  -- A window that is refused leaves the meter as it is.
  split
  · exact { follows with }
  · exact follows

/-- Taking the readings changes nothing that was heard. -/
theorem Follows.measure (follows : Follows meter frames) : Follows meter.measure frames :=
  { follows with }

/-- A list is made of its items in order. -/
theorem map_getD_range (frame : List Single) :
    (List.range' 0 frame.length).map (fun channel => frame.getD channel 0) = frame := by
  apply List.ext_getElem
  · simp
  intro index early late
  simp [late]

/-- A frame leaves the memories of its filters and puts its mean square into both rings. -/
theorem pushFrame_eq {frame : List Single} {channels : List Channel} {sum : Float}
    (weighed : Meter.weighFrame meter.shelf meter.highPass 0 meter.channels frame 0 =
      (channels, sum)) :
    meter.pushFrame frame = { meter with
      channels
      momentaryRing := meter.momentaryRing.push meter.seen
        (sum / meter.parameters.channels.toUInt64.toFloat)
      shortTermRing := meter.shortTermRing.push meter.seen
        (sum / meter.parameters.channels.toUInt64.toFloat)
      total := meter.total + sum / meter.parameters.channels.toUInt64.toFloat
      seen := meter.seen + 1 } := by
  rw [Meter.pushFrame, weighed]

/-- One more frame is heard by the filters, the rings and the sum alike. -/
theorem Follows.pushFrame (follows : Follows meter frames) {frame : List Single}
    (width : frame.length = meter.parameters.channels) :
    Follows (meter.pushFrame frame) (frames ++ [frame]) := by
  -- The channels beyond the width of the frame are behind the others and stay silent.
  have whole := weighFrame_eq meter.shelf meter.highPass (memory meter.parameters.rate frames)
    (fun channel => frame.getD channel 0)
    (List.replicate (maxChannels - meter.parameters.channels) .silent) 0 frame.length 0
  rw [map_getD_range, width, ← List.range_eq_range', ← follows.channels] at whole
  have squared := meanSquares_concat meter.parameters.rate frames frame meter.parameters.channels
  -- The rings put the next value where they look for the one that comes after the history.
  have seen : meter.seen =
      (meanSquares meter.parameters.rate frames meter.parameters.channels).length := by
    rw [follows.seen, meanSquares_length]
  rw [pushFrame_eq whole, follows.shelf, follows.highPass]
  exact {
    wide := follows.wide
    narrow := follows.narrow
    rate := follows.rate
    shelf := rfl
    highPass := rfl
    channels := congrArg (· ++ _) (List.map_congr_left fun channel _ =>
      (weighted_concat meter.parameters.rate frames frame channel).1.symm)
    momentary := by
      rw [squared, seen]
      exact follows.momentary.push follows.rate _
    shortTerm := by
      rw [squared, seen]
      exact follows.shortTerm.push (Nat.mul_pos (by omega) follows.rate) _
    seen := by rw [List.length_append, List.length_singleton, ← follows.seen]
    total := by
      rw [squared, sum, List.foldl_append, follows.total]
      rfl }

/-- Samples that are long enough are cut into frames of the full width. -/
theorem length_of_mem_cut {width count : Nat} {samples : List Single}
    (enough : count * width ≤ samples.length) :
    ∀ frame ∈ cut width count samples, frame.length = width := by
  induction count generalizing samples with
  | zero =>
    intro frame among
    cases among
  | succ count ih =>
    -- What is left behind the first frame is long enough for the others.
    rw [Nat.succ_mul] at enough
    intro frame among
    rcases List.mem_cons.mp among with rfl | later
    · rw [List.length_take]
      omega
    · exact ih (by rw [List.length_drop]; omega) frame later

/-- Frames are taken one after the other as they are cut. -/
theorem pushFrames_eq (count : Nat) (samples : List Single) (meter : Meter) :
    Meter.pushFrames count samples meter =
      (cut meter.parameters.channels count samples).foldl Meter.pushFrame meter := by
  induction count generalizing samples meter with
  | zero => rfl
  | succ count ih => exact ih (samples.drop meter.parameters.channels) _

/-- Frames leave the set-up of a meter as it is, and each of them is counted. -/
theorem foldl_pushFrame (later : List (List Single)) (meter : Meter) :
    (later.foldl Meter.pushFrame meter).parameters = meter.parameters ∧
      (later.foldl Meter.pushFrame meter).ready = meter.ready ∧
      (later.foldl Meter.pushFrame meter).seen = meter.seen + later.length := by
  induction later generalizing meter with
  | nil => exact ⟨rfl, rfl, rfl⟩
  | cons frame later ih =>
    obtain ⟨parameters, ready, seen⟩ := ih (meter.pushFrame frame)
    have first : (meter.pushFrame frame).seen = meter.seen + 1 := rfl
    refine ⟨parameters, ready, ?_⟩
    rw [List.foldl_cons, seen, first, List.length_cons]
    omega

/-- A number of frames of the full width is heard frame by frame. -/
theorem Follows.pushFrames (follows : Follows meter frames) {later : List (List Single)}
    (widths : ∀ frame ∈ later, frame.length = meter.parameters.channels) :
    Follows (later.foldl Meter.pushFrame meter) (frames ++ later) := by
  induction later generalizing meter frames with
  | nil =>
    rw [List.append_nil]
    exact follows
  | cons frame later ih =>
    have first := follows.pushFrame (widths frame List.mem_cons_self)
    -- The first frame joins the history, and the others are heard behind it.
    rw [List.append_cons]
    exact ih first fun frame among => widths frame (List.mem_cons_of_mem _ among)

end Steps

section Readings

/-- The readings of a meter with some parameters are those of a whole history of frames. -/
structure Reads (parameters : Parameters) (frames : List (List Single)) (meter : Meter) : Prop where
  momentary : meter.momentary = reading (mean (latest
    (min (min (Meter.window parameters.momentary parameters.rate) frames.length) parameters.rate)
    (meanSquares parameters.rate frames parameters.channels)))
  shortTerm : meter.shortTerm = reading (mean (latest
    (min (min (Meter.window parameters.shortTerm parameters.rate) frames.length)
      (3 * parameters.rate))
    (meanSquares parameters.rate frames parameters.channels)))
  integrated : meter.integrated =
    reading (mean (meanSquares parameters.rate frames parameters.channels))

variable {meter : Meter} {frames : List (List Single)}

/-- The readings that a meter takes are those of the history it follows. -/
theorem Follows.reads (follows : Follows meter frames) (some : 0 < frames.length) :
    Reads meter.parameters frames meter.measure where
  momentary := by
    -- The ring counts the values it was given, which are as many as there are frames.
    have kept := follows.momentary.recentMean
      (Meter.window meter.parameters.momentary meter.parameters.rate)
    rw [meanSquares_length, ← follows.seen] at kept
    rw [← follows.seen, ← kept]
    rfl
  shortTerm := by
    have kept := follows.shortTerm.recentMean
      (Meter.window meter.parameters.shortTerm meter.parameters.rate)
    rw [meanSquares_length, ← follows.seen] at kept
    rw [← follows.seen, ← kept]
    rfl
  integrated := by
    rw [mean, meanSquares_length, if_neg (by omega), ← follows.seen, ← follows.total]
    rfl

/-- New readings are taken as soon as any frame has been seen. -/
def settle (meter : Meter) : Meter := if meter.seen = 0 then meter else meter.measure

/-- New readings leave a meter at its parameters, and set up if it was. -/
theorem settle_kept (meter : Meter) :
    (settle meter).parameters = meter.parameters ∧ (settle meter).ready = meter.ready := by
  rw [settle]
  -- Readings are set whether there are any to take or not, and nothing else.
  split
  · exact ⟨rfl, rfl⟩
  · exact ⟨rfl, rfl⟩

/-- An analysis with enough samples hears its frames and then takes the readings. -/
theorem analyze_eq (ready : meter.ready = true) (samples : List Single) (count : Nat)
    (enough : count * meter.parameters.channels ≤ samples.length) :
    meter.analyze samples count =
      .ok (settle ((cut meter.parameters.channels count samples).foldl Meter.pushFrame meter)) := by
  -- Neither check refuses the call, and frames are pushed one by one.
  rw [Meter.analyze, ready, ← pushFrames_eq]
  simp only [Bool.not_true, Bool.false_eq_true, if_false, if_neg (Nat.not_lt.mpr enough)]
  rfl

/-- A meter that is not set up is handed back as it is. -/
theorem analyze_idle (idle : ¬meter.ready = true) (samples : List Single) (count : Nat) :
    meter.analyze samples count = .ok meter := by
  rw [Meter.analyze, eq_false_of_ne_true idle]
  rfl

/-- An analysis with too few samples is refused. -/
theorem analyze_short (ready : meter.ready = true) {samples : List Single} {count : Nat}
    (short : samples.length < count * meter.parameters.channels) :
    meter.analyze samples count =
      .error (.shortBuffer (count * meter.parameters.channels) samples.length) := by
  rw [Meter.analyze, ready]
  exact if_pos short

/-- An analysis that is accepted has had enough samples. -/
theorem enough_of_analyze (ready : meter.ready = true) {samples : List Single} {count : Nat}
    {next : Meter} (accepted : meter.analyze samples count = .ok next) :
    count * meter.parameters.channels ≤ samples.length := by
  by_contra short
  rw [analyze_short ready (Nat.not_le.mp short)] at accepted
  cases accepted

/-- An analysis leaves the parameters. -/
theorem analyze_parameters {samples : List Single} {count : Nat} {next : Meter}
    (done : meter.analyze samples count = .ok next) : next.parameters = meter.parameters := by
  -- A meter that is not set up does not even look at the samples.
  by_cases ready : meter.ready = true
  · rw [analyze_eq ready samples count (enough_of_analyze ready done)] at done
    obtain rfl := Except.ok.inj done
    exact (settle_kept _).1.trans (foldl_pushFrame _ meter).1
  · obtain rfl := Except.ok.inj ((analyze_idle ready samples count).symm.trans done)
    rfl

/-- An analysis is accepted with enough samples, and its frames join the history. -/
theorem Follows.analyze (follows : Follows meter frames) (ready : meter.ready = true)
    {samples : List Single} {count : Nat}
    (enough : count * meter.parameters.channels ≤ samples.length) :
    ∃ next, meter.analyze samples count = .ok next ∧
      Follows next (frames ++ cut meter.parameters.channels count samples) ∧
      (0 < (frames ++ cut meter.parameters.channels count samples).length →
        Reads meter.parameters (frames ++ cut meter.parameters.channels count samples) next) := by
  refine ⟨_, analyze_eq ready samples count enough, ?_⟩
  -- Frames are whole, since there are samples enough for all.
  have heard := follows.pushFrames (length_of_mem_cut enough)
  have parameters := (foldl_pushFrame (cut meter.parameters.channels count samples) meter).1
  rw [settle]
  split
  · -- A meter that has seen no frame has no history to read.
    rename_i unheard
    rw [heard.seen] at unheard
    exact ⟨heard, fun some => by omega⟩
  · refine ⟨heard.measure, fun some => ?_⟩
    have reads := heard.reads some
    rwa [parameters] at reads

end Readings

section Blocks

variable {meter : Meter}

/-- A meter whose readings have been taken back. -/
def unread (meter : Meter) : Meter :=
  { meter with momentary := silence, shortTerm := silence, integrated := silence }

/-- Readings that are taken between frames leave no trace in those that are taken later. -/
theorem measure_foldl_measure (later : List (List Single)) (meter : Meter) :
    (later.foldl Meter.pushFrame meter.measure).measure =
      (later.foldl Meter.pushFrame meter).measure := by
  -- The frames do not look at the readings, and taking them does not look at older ones.
  have frames : ∀ meter, unread (later.foldl Meter.pushFrame meter) =
      later.foldl Meter.pushFrame (unread meter) := by
    induction later with
    | nil => exact fun _ => rfl
    | cons frame later ih => exact fun meter => ih (meter.pushFrame frame)
  have taken : ∀ meter : Meter, (unread meter).measure = meter.measure := fun _ => rfl
  rw [← taken, frames, ← taken (later.foldl Meter.pushFrame meter), frames]
  rfl

/-- New readings of later frames are the same whether or not there have been some before. -/
theorem settle_foldl_settle (later : List (List Single)) (meter : Meter) :
    settle (later.foldl Meter.pushFrame (settle meter)) =
      settle (later.foldl Meter.pushFrame meter) := by
  -- Readings of no frame were not taken.
  by_cases unheard : meter.seen = 0
  · rw [show settle meter = meter from if_pos unheard]
  · have before := (foldl_pushFrame later meter.measure).2.2
    have after := (foldl_pushFrame later meter).2.2
    have same : meter.measure.seen = meter.seen := rfl
    rw [show settle meter = meter.measure from if_neg unheard, settle, settle,
      if_neg (by omega), if_neg (by omega), measure_foldl_measure]

/-- Frames are cut from the front of the samples and then from the rest. -/
theorem cut_add (width front back : Nat) (samples : List Single) :
    cut width (front + back) samples =
      cut width front (samples.take (front * width)) ++
        cut width back (samples.drop (front * width)) := by
  induction front generalizing samples with
  | zero => simp [cut]
  | succ front ih =>
    -- Both sides begin with the first frame, and the rest is cut behind it.
    rw [Nat.add_right_comm, cut, cut, ih, List.cons_append, List.take_take, List.drop_take,
      List.drop_drop, Nat.succ_mul, Nat.add_sub_cancel, Nat.add_comm width,
      Nat.min_eq_left (by omega)]

/-- Two analyses in a row are one analysis of all their frames. -/
theorem analyze_add (ready : meter.ready = true) (front back : Nat) (samples : List Single)
    (enough : (front + back) * meter.parameters.channels ≤ samples.length) :
    ∃ middle, meter.analyze (samples.take (front * meter.parameters.channels)) front =
        .ok middle ∧ middle.ready = true ∧ middle.parameters = meter.parameters ∧
      settle middle = middle ∧
      middle.analyze (samples.drop (front * meter.parameters.channels)) back =
        meter.analyze samples (front + back) := by
  rw [Nat.add_mul] at enough
  have first := analyze_eq ready (samples.take (front * meter.parameters.channels)) front
    (by rw [List.length_take]; omega)
  generalize heard : (cut meter.parameters.channels front
      (samples.take (front * meter.parameters.channels))).foldl Meter.pushFrame meter =
    pushed at first
  obtain ⟨parameters, kept, -⟩ := foldl_pushFrame (cut meter.parameters.channels front
    (samples.take (front * meter.parameters.channels))) meter
  rw [heard] at parameters kept
  have settled : (settle pushed).parameters = meter.parameters ∧ (settle pushed).ready = true :=
    ⟨(settle_kept pushed).1.trans parameters, (settle_kept pushed).2.trans (kept.trans ready)⟩
  -- The second analysis starts from readings that are taken again at its end.
  refine ⟨settle pushed, first, settled.2, settled.1, settle_foldl_settle [] pushed, ?_⟩
  · rw [analyze_eq settled.2 _ _ (by rw [settled.1, List.length_drop]; omega),
      analyze_eq ready _ _ (by rw [Nat.add_mul]; omega), settled.1, settle_foldl_settle, cut_add,
      List.foldl_append, heard]

/-- Frames may be analyzed in blocks, the last of them as short as need be. -/
theorem analyzeBlocks_eq (ready : meter.ready = true) {block blocks count : Nat}
    {samples : List Single} (all : count ≤ blocks * block)
    (enough : count * meter.parameters.channels ≤ samples.length)
    (still : count = 0 → settle meter = meter) :
    Request.analyzeBlocks block blocks count samples meter = meter.analyze samples count := by
  induction blocks generalizing meter count samples with
  | zero =>
    -- Without blocks there are no frames, and the readings are as they would be taken.
    obtain rfl : count = 0 := by omega
    rw [analyze_eq ready samples 0 enough]
    exact congrArg Except.ok (still rfl).symm
  | succ blocks ih =>
    rw [Nat.succ_mul] at all
    have whole : min block count + (count - min block count) = count := by omega
    obtain ⟨middle, first, middleReady, parameters, settled, second⟩ := analyze_add ready
      (min block count) (count - min block count) samples (by rw [whole]; exact enough)
    rw [whole] at second
    -- The first block is analyzed alone, and the others by induction as one.
    rw [Request.analyzeBlocks, first, ok_bind, ← second]
    rw [← whole, Nat.add_mul] at enough
    exact ih middleReady (by omega) (by rw [parameters, List.length_drop]; omega) fun _ => settled

end Blocks

namespace Session

/-- A call keeps a meter that is set up on the history of its session. -/
theorem play_follows {session : Session}
    (follows : session.meter.ready = true → Follows session.meter session.frames)
    (operation : Operation) (ready : (session.play operation).meter.ready = true) :
    Follows (session.play operation).meter (session.play operation).frames := by
  rw [play] at ready ⊢
  split at ready
  · -- A call that was refused has left everything as it was.
    exact follows ready
  · rename_i next accepted
    cases operation with
    | setUp parameters => exact Follows.setUp accepted
    | analyze samples count =>
      by_cases before : session.meter.ready = true
      · obtain ⟨other, same, heard, -⟩ := (follows before).analyze before
          (enough_of_analyze before accepted)
        obtain rfl : other = next := Except.ok.inj (same.symm.trans accepted)
        simp only [Session.heard, if_pos before]
        exact heard
      · -- A meter that is not set up is handed back as it is, and is still not set up.
        obtain rfl : session.meter = next :=
          Except.ok.inj ((analyze_idle before samples count).symm.trans accepted)
        exact absurd ready before
    | setMomentary seconds =>
      obtain rfl := Except.ok.inj accepted
      -- The call does not set a meter up.
      have before : session.meter.ready = true := by
        rw [← ready, Meter.setMomentary]
        split
        · rfl
        · rfl
      exact (follows before).setMomentary seconds
    | reset =>
      obtain rfl := Except.ok.inj accepted
      exact (follows ready).reset
    | finalize =>
      obtain rfl := Except.ok.inj accepted
      cases ready

/-- After any calls a meter that is set up follows the history since its last start. -/
theorem run_follows (operations : List Operation) (ready : (run operations).meter.ready = true) :
    Follows (run operations).meter (run operations).frames := by
  -- Each call hands the invariant on to the session that the next one is made on.
  have general : ∀ (operations : List Operation) (session : Session),
      (session.meter.ready = true → Follows session.meter session.frames) →
      (operations.foldl play session).meter.ready = true →
      Follows (operations.foldl play session).meter (operations.foldl play session).frames := by
    intro operations
    induction operations with
    | nil => exact fun _ follows ready => follows ready
    | cons operation operations ih =>
      exact fun session follows ready => ih _ (play_follows follows operation) ready
  refine general operations _ (fun created => ?_) ready
  -- A new meter is not set up.
  cases created

/--
After any calls an analysis with enough samples is accepted, whole or block by block.

As soon as there are frames, its readings are those of all frames since the last start.
-/
theorem run_reads {operations : List Operation} {session : Session}
    (reached : run operations = session) (ready : session.meter.ready = true)
    (samples : List Single) (count : Nat)
    (enough : count * session.meter.parameters.channels ≤ samples.length) :
    ∃ next,
      session.play (.analyze samples count) =
        ⟨next, session.frames ++ cut session.meter.parameters.channels count samples⟩ ∧
      session.meter.analyze samples count = .ok next ∧
      (0 < (session.frames ++ cut session.meter.parameters.channels count samples).length →
        Reads session.meter.parameters
          (session.frames ++ cut session.meter.parameters.channels count samples) next) ∧
      ∀ block blocks, count ≤ blocks * block → (0 < count ∨ session.frames = []) →
        Request.analyzeBlocks block blocks count samples session.meter = .ok next := by
  -- The session is the one that the invariant is known of.
  subst reached
  have follows := run_follows operations ready
  obtain ⟨next, accepted, -, reads⟩ := follows.analyze ready enough
  refine ⟨next, ?_, accepted, reads, fun block blocks all some => ?_⟩
  · simp only [play, Operation.apply, accepted, heard, if_pos ready]
  · rw [← accepted]
    refine analyzeBlocks_eq ready all enough fun none => ?_
    -- Without new frames the readings of a meter that has seen none stay as they are.
    rcases some with some | unheard
    · omega
    · rw [settle, if_pos (by rw [follows.seen, unheard]; rfl)]

/-- Two frames of a new meter are heard behind one that was refused, and in blocks of one. -/
theorem run_reads_mono :
    let session := run [.setUp { rate := 8, channels := 1 }, .analyze [5] 2, .setMomentary 1]
    session.meter.ready = true ∧ 2 * session.meter.parameters.channels ≤ [1, 2, 3].length ∧
      ∃ next, session.meter.analyze [1, 2, 3] 2 = .ok next ∧
        Reads session.meter.parameters [[1], [2]] next ∧
        Request.analyzeBlocks 1 2 2 [1, 2, 3] session.meter = .ok next := by
  intro session
  have ready : session.meter.ready = true := rfl
  have enough : 2 * session.meter.parameters.channels ≤ [1, 2, 3].length := by decide
  obtain ⟨next, -, accepted, reads, blocks⟩ := run_reads rfl ready [1, 2, 3] 2 enough
  exact ⟨ready, enough, next, accepted, reads (by decide), blocks 1 2 (by omega) (by omega)⟩

end Session

end Mixdown.Loudness
