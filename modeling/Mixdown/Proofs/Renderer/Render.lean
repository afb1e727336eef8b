import Mixdown.Proofs.Renderer.Frame
import Mixdown.Proofs.Renderer.Rows

/-! Rendering feeds the columns of its input to the session's devices, however they are framed. -/

namespace Mixdown

/-- Statistics that count no drops go on counting none while no command is skipped. -/
theorem Load.Meter.record_commandDrops {meter : Meter} (none : meter.statistics.commandDrops = 0)
    (cycles : Nat) {report : Report} (all : report.skipped = 0) :
    (meter.record cycles report).statistics.commandDrops = 0 := by
  -- The counter grows by what was skipped, whether or not the statistics are due.
  simp only [record, account, all]
  split
  · simp only [Statistics.account, none]
    split <;> rfl
  · exact none

namespace Renderer

/-- What the commands of a frame do with a column, one command behind the other. -/
abbrev Devices := List (Memory → Column → Memory × Column)

/-- A renderer treats columns by some devices, which go on from some memories. -/
def Plays (renderer : Renderer) (devices : Devices) (memories : List Memory) : Prop :=
  ∃ commands, renderer.Ready commands memories ∧
    commands.map (Command.device renderer.mixer.rate) = devices

/-- The length of the silence behind samples that are rendered in frames. -/
def padding (frame length : Nat) : Nat := (length + frame - 1) / frame * frame - length

/-- Whole frames leave no room for silence. -/
theorem padding_eq_zero {frame length : Nat} (whole : frame ∣ length) : padding frame length = 0 := by
  obtain ⟨frames, rfl⟩ := whole
  rcases Nat.eq_zero_or_pos frame with rfl | positive
  · simp [padding]
  · -- Rounding up leaves a multiple as it is.
    have count : (frame * frames + frame - 1) / frame = frames := by
      rw [Nat.add_sub_assoc positive, Nat.mul_add_div positive,
        Nat.div_eq_of_lt (Nat.sub_lt positive Nat.zero_lt_one), Nat.add_zero]
    rw [padding, count, Nat.mul_comm, Nat.sub_self]

/-- Silence that follows a full frame is none, and silence that columns would follow is the last. -/
theorem silence_between {front back : List Column} {own later : Nat} (apart : own = 0 ∨ back = []) :
    front ++ back ++ List.replicate (own + later) Column.silence =
      (front ++ List.replicate own Column.silence) ++
        (back ++ List.replicate later Column.silence) := by
  -- Either no silence stands between, or nothing stands behind it.
  rcases apart with rfl | rfl
  · rw [Nat.zero_add, List.replicate_zero, List.append_nil, List.append_assoc]
  · rw [List.append_nil, List.nil_append, List.append_assoc, List.replicate_append_replicate]

/-- Silence between columns is never heard, since it is the last of them. -/
theorem feed_between {step : σ → Column → σ × Column} {state : σ} {front back : List Column}
    {own : Nat} (apart : own = 0 ∨ back = []) :
    (feed step state (front ++ back)).2 = (feed step state front).2 ++
      (feed step (feed step state (front ++ List.replicate own Column.silence)).1 back).2 := by
  rcases apart with rfl | rfl
  · rw [List.replicate_zero, List.append_nil, feed_append]
  · simp only [feed, List.append_nil]

namespace Plays

variable {renderer : Renderer} {devices : Devices} {memories : List Memory}

/-- A frame runs every command and feeds its columns, and silence behind them, to the devices. -/
theorem renderFrame_eq (plays : renderer.Plays devices memories) {rows : Rows}
    (full : rows.length = renderer.channels) {length : Nat} (fits : length ≤ renderer.mixer.frame) :
    ∃ next started commands, renderer.generate = .ok (started, commands) ∧
      commands.length = devices.length ∧
      renderer.renderFrame length rows = .ok (next, ⟨commands.length, 0⟩,
        Rows.ofColumns renderer.channels
          (feed (series devices) memories (rows.columns length)).2) ∧
      next.Plays devices (feed (series devices) memories (rows.columns length ++
        List.replicate (renderer.mixer.frame - length) Column.silence)).1 ∧
      next.mixer.frame = renderer.mixer.frame ∧ next.channels = renderer.channels := by
  obtain ⟨commands, ready, rfl⟩ := plays
  obtain ⟨started, starts, -⟩ := ready.loaded
  obtain ⟨samples, load, size, columns⟩ := loadRows_columns ready.proper.room full fits
  have shape : { renderer.mixer with arena := { renderer.mixer.arena with samples } }.SameShape
      renderer.mixer := ⟨rfl, rfl, rfl, rfl, size⟩
  obtain ⟨next, frame, after, outputs, same, channels⟩ :=
    (ready.remix (ready.proper.room.of_shape shape) rfl).frame_eq
  have channels : next.channels = renderer.channels := channels
  have loaded : { renderer.mixer with arena := { renderer.mixer.arena with samples } }.columns =
      rows.columns length ++ List.replicate (renderer.mixer.frame - length) Column.silence := columns
  rw [loaded] at after outputs
  have cut := feed_take (series (commands.map (Command.device renderer.mixer.rate))) memories
    (rows.columns length) (List.replicate (renderer.mixer.frame - length) Column.silence)
  rw [Rows.columns_length] at cut
  refine ⟨next, started, commands, starts.generates, (List.length_map _).symm, ?_,
    ⟨commands.map Command.steady, after, ?_⟩, same.frame, channels⟩
  · -- Only the samples that were given are read back, not the silence behind them.
    have read := readRows_eq after.proper.room length
    rw [outputs, cut, channels] at read
    simp only [pure_eq_ok] at read
    simp only [renderFrame, load, ok_bind]
    rw [show Renderer.frame _ = _ from frame]
    simp only [ok_bind, pure_eq_ok, channels, read]
  · -- Steady commands have the same devices.
    rw [List.map_map, same.rate]
    exact List.map_congr_left fun command _ => command.steady_device renderer.mixer.rate

/-- Frames one behind the other feed all their columns, and silence behind the last one. -/
theorem renderFrames_eq (plays : renderer.Plays devices memories) (rows : Rows)
    (full : rows.length = renderer.channels) (frames remaining : Nat)
    (covered : remaining ≤ frames * renderer.mixer.frame)
    (needed : frames * renderer.mixer.frame < remaining + renderer.mixer.frame)
    (meter : Load.Meter) :
    ∃ after left, renderFrames frames remaining rows renderer meter = .ok (after, left,
        Rows.ofColumns renderer.channels
          (feed (series devices) memories (rows.columns remaining)).2) ∧
      after.Plays devices (feed (series devices) memories (rows.columns remaining ++
        List.replicate (frames * renderer.mixer.frame - remaining) Column.silence)).1 ∧
      after.mixer.frame = renderer.mixer.frame ∧ after.channels = renderer.channels ∧
      (meter.statistics.commandDrops = 0 → left.statistics.commandDrops = 0) := by
  induction frames generalizing renderer memories rows remaining meter with
  | zero =>
    obtain rfl : remaining = 0 := by omega
    refine ⟨renderer, meter, ?_, by simpa [Rows.columns, feed] using plays, rfl, rfl, id⟩
    simp only [renderFrames, Rows.columns, List.range_zero, List.map_nil, feed, Rows.ofColumns,
      List.map_const', List.length_range]
  | succ frames ih =>
    rw [Nat.succ_mul] at covered needed ⊢
    -- The first frame takes what fits into it, and the others render the rest of the rows.
    generalize cut : min renderer.mixer.frame remaining = length
    obtain ⟨next, started, commands, -, -, run, after, frame, channels⟩ :=
      plays.renderFrame_eq full (show length ≤ renderer.mixer.frame by omega)
    obtain ⟨final, left, runs, plays, sameFrame, sameChannels, drops⟩ :=
      ih after (rows.map (·.drop length)) (by rw [List.length_map, full, channels])
        (remaining - length) (by rw [frame]; omega) (by rw [frame]; omega)
        (meter.record 0 ⟨commands.length, 0⟩)
    have columns : rows.columns remaining =
        rows.columns length ++ Rows.columns (rows.map (·.drop length)) (remaining - length) := by
      rw [← Rows.columns_add, show length + (remaining - length) = remaining by omega]
    -- Either the frame is full, or it is the last one and nothing is left behind it.
    have apart : renderer.mixer.frame - length = 0 ∨
        Rows.columns (rows.map (·.drop length)) (remaining - length) = [] := by
      rcases Nat.eq_zero_or_pos (renderer.mixer.frame - length) with whole | cut
      · exact .inl whole
      · right
        rw [show remaining - length = 0 by omega]
        rfl
    -- Silence of the own frame and of those behind it add up to that of all frames.
    have silence : frames * renderer.mixer.frame + renderer.mixer.frame - remaining =
        (renderer.mixer.frame - length) +
          (frames * renderer.mixer.frame - (remaining - length)) := by omega
    refine ⟨final, left, ?_, ?_, sameFrame.trans frame, sameChannels.trans channels,
      fun none => drops (Load.Meter.record_commandDrops none 0 rfl)⟩
    · simp only [renderFrames, cut, run, ok_bind, runs, pure_eq_ok, channels]
      rw [← Rows.ofColumns_append, columns, feed_between apart]
    · rw [columns, silence, silence_between apart, feed_append]
      rw [frame] at plays
      exact plays

/-- Rendering feeds the columns of the rows, up to the shortest, to the devices. -/
theorem render_eq (plays : renderer.Plays devices memories) {rows : Rows}
    (full : rows.length = renderer.channels) (meter : Load.Meter) :
    ∃ after left, renderer.render rows meter = .ok (after, left, Rows.ofColumns renderer.channels
          (feed (series devices) memories (rows.columns rows.shortest)).2) ∧
      after.Plays devices (feed (series devices) memories (rows.columns rows.shortest ++
        List.replicate (padding renderer.mixer.frame rows.shortest) Column.silence)).1 ∧
      after.mixer.frame = renderer.mixer.frame ∧ after.channels = renderer.channels ∧
      (meter.statistics.commandDrops = 0 → left.statistics.commandDrops = 0) := by
  -- Rounding up gives the least number of frames that cover all samples.
  have positive : 0 < renderer.mixer.frame := by
    obtain ⟨commands, ready, -⟩ := plays
    exact ready.proper.room.frame_pos
  -- The quotient's remainder is what the last frame is filled up by.
  have above := Nat.div_add_mod (rows.shortest + renderer.mixer.frame - 1) renderer.mixer.frame
  have below := Nat.mod_lt (rows.shortest + renderer.mixer.frame - 1) positive
  rw [Nat.mul_comm] at above
  exact plays.renderFrames_eq rows full _ _ (by omega) (by omega) meter

end Plays

end Renderer

end Mixdown
