import Mixdown.Proofs.Renderer.Create

/-! Sessions render without faults, drop no command, and sound the same however they are framed. -/

namespace Mixdown.Renderer

/-- The renderers that a session on a number of channels passes through. -/
inductive Session (config : Config) (channels : Nat) : Renderer → Prop where
  | created {renderer : Renderer} :
    create config channels = .ok renderer → Session config channels renderer
  /-- A frame was rendered, of which the first samples were given. -/
  | framed {renderer after : Renderer} {length : Nat} {rows output : Rows} {report : Report} :
    Session config channels renderer → rows.length = channels → length ≤ renderer.mixer.frame →
      renderer.renderFrame length rows = .ok (after, report, output) →
      Session config channels after
  /-- Whole rows were rendered. -/
  | rendered {renderer after : Renderer} {rows output : Rows} {meter left : Load.Meter} :
    Session config channels renderer → rows.length = channels →
      renderer.render rows meter = .ok (after, left, output) → Session config channels after

/-- A session is created only on a number of channels that an effect can work on. -/
theorem create_counted {config : Config} {channels : Nat} {renderer : Renderer}
    (made : create config channels = .ok renderer) : 0 < channels ∧ channels ≤ maxChannels := by
  obtain ⟨rack, stages, -⟩ := bind_eq_ok.mp made
  obtain ⟨records, found, -⟩ := bind_eq_ok.mp stages
  by_contra wrong
  -- The records of the stages are the first thing that other numbers are refused for.
  have refused : config.records channels = .error (.channelRange channels maxChannels) := by
    rw [Config.records, Config.checkChannels, if_neg wrong]
    rfl
  rw [refused] at found
  cases found

/-- A session's number of channels is one that an effect can work on. -/
theorem Session.counted {config : Config} {channels : Nat} {renderer : Renderer}
    (session : Session config channels renderer) : 0 < channels ∧ channels ≤ maxChannels := by
  induction session with
  | created made => exact create_counted made
  | framed _ _ _ _ ih => exact ih
  | rendered _ _ _ ih => exact ih

/-- Throughout a session a renderer plays some devices on the session's channels. -/
theorem Session.plays {config : Config} {channels : Nat} {renderer : Renderer}
    (session : Session config channels renderer) (positive : 0 < channels)
    (few : channels ≤ maxChannels) :
    ∃ devices memories, renderer.Plays devices memories ∧ renderer.channels = channels ∧
      devices.length ≤ commandBound config channels := by
  -- The devices are those of the session, and only the memories change from step to step.
  induction session with
  | created made =>
    obtain ⟨devices, memories, bound, create⟩ := create_plays config positive few
    obtain ⟨same, run, plays, -, on⟩ := create config (.refl config)
    obtain rfl := Except.ok.inj (run.symm.trans made)
    exact ⟨devices, memories, plays, on, bound⟩
  | framed _ full fits run ih =>
    obtain ⟨devices, memories, plays, on, bound⟩ := ih
    obtain ⟨next, started, commands, -, -, same, after, -, stays⟩ :=
      plays.renderFrame_eq (full.trans on.symm) fits
    rw [run] at same
    obtain rfl := congrArg Prod.fst (Except.ok.inj same)
    exact ⟨devices, _, after, stays.trans on, bound⟩
  | rendered _ full run ih =>
    obtain ⟨devices, memories, plays, on, bound⟩ := ih
    obtain ⟨next, left, same, after, -, stays, -⟩ := plays.render_eq (full.trans on.symm) _
    rw [run] at same
    obtain rfl := congrArg Prod.fst (Except.ok.inj same)
    exact ⟨devices, _, after, stays.trans on, bound⟩

/-- What a session renders has one row for each channel, all as long as the shortest that was given. -/
theorem Session.render_even {config : Config} {channels : Nat} {renderer after : Renderer}
    (session : Session config channels renderer) {rows output : Rows} {meter left : Load.Meter}
    (full : rows.length = channels) (run : renderer.render rows meter = .ok (after, left, output)) :
    output.length = channels ∧ ∀ row ∈ output, row.length = rows.shortest := by
  obtain ⟨positive, few⟩ := session.counted
  obtain ⟨devices, memories, plays, on, -⟩ := session.plays positive few
  obtain ⟨next, ended, same, -⟩ := plays.render_eq (full.trans on.symm) meter
  rw [run] at same
  obtain rfl := congrArg (fun found => found.2.2) (Except.ok.inj same)
  -- Every row is cut from as many columns as the shortest row has samples.
  refine ⟨(Rows.ofColumns_length _ _).trans on, fun row here => ?_⟩
  obtain ⟨channel, -, rfl⟩ := List.mem_map.mp here
  simp

/-- Sessions that differ in the length of their frames render the same output, and rows that end
with a frame can be rendered apart from those behind them. -/
theorem render_any_framing (config : Config) {channels : Nat} (positive : 0 < channels)
    (few : channels ≤ maxChannels) :
    (∀ (other : Config), other.SameSession config →
      ∀ (rows : Rows) (meter clock : Load.Meter), rows.length = channels →
        ∃ first second after left next ticked output,
          create config channels = .ok first ∧ create other channels = .ok second ∧
          first.render rows meter = .ok (after, left, output) ∧
          second.render rows clock = .ok (next, ticked, output)) ∧
    ∀ (front back : Rows) (frames : Nat) (meter : Load.Meter),
      front.length = channels → back.length = channels →
      (∀ row ∈ front, row.length = frames * config.frame) →
        ∃ fresh middle left last final whole ended early late,
          create config channels = .ok fresh ∧
          fresh.render front meter = .ok (middle, left, early) ∧
          middle.render back left = .ok (last, final, late) ∧
          fresh.render (List.zipWith (· ++ ·) front back) meter =
            .ok (whole, ended, List.zipWith (· ++ ·) early late) := by
  obtain ⟨devices, memories, -, create⟩ := create_plays config positive few
  constructor
  · -- Both sessions feed the same columns to the same devices, from the same memories.
    intro other same rows meter clock full
    obtain ⟨first, made, plays, -, on⟩ := create config (.refl config)
    obtain ⟨second, madeToo, playsToo, -, onToo⟩ := create other same
    obtain ⟨after, left, run, -⟩ := plays.render_eq (full.trans on.symm) meter
    obtain ⟨next, ticked, runToo, -⟩ := playsToo.render_eq (full.trans onToo.symm) clock
    rw [on] at run
    rw [onToo] at runToo
    exact ⟨first, second, after, left, next, ticked, _, made, madeToo, run, runToo⟩
  · intro front back frames meter fullFront fullBack even
    obtain ⟨fresh, made, plays, frame, on⟩ := create config (.refl config)
    -- All rows of the front end with the same frame, so no silence is rendered behind them.
    have filled : back ≠ [] := List.ne_nil_of_length_pos (by omega)
    have filledFront : front ≠ [] := List.ne_nil_of_length_pos (by omega)
    have length : front.shortest = frames * config.frame := by
      obtain ⟨⟨row, here, attained⟩, -⟩ := Rows.exists_shortest filledFront
      exact attained.symm.trans (even row here)
    have silent : padding fresh.mixer.frame front.shortest = 0 := by
      rw [length, frame]
      exact padding_eq_zero (Nat.dvd_mul_left config.frame frames)
    obtain ⟨middle, left, early, between, -, still, -⟩ :=
      plays.render_eq (fullFront.trans on.symm) meter
    rw [silent, List.replicate_zero, List.append_nil] at between
    obtain ⟨last, final, late, -⟩ :=
      between.render_eq (fullBack.trans (still.trans on).symm) left
    -- What is behind goes on from the memories that the front has left, as in the whole.
    have joined : (List.zipWith (· ++ ·) front back).length = fresh.channels := by
      rw [List.length_zipWith, fullFront, fullBack, on, Nat.min_self]
    obtain ⟨whole, ended, run, -⟩ := plays.render_eq joined meter
    refine ⟨fresh, middle, left, last, final, whole, ended, _, _, made, early, late, ?_⟩
    rw [run, Rows.shortest_append filled (fullFront.trans fullBack.symm) (length ▸ even),
      Rows.columns_append (fullFront.trans fullBack.symm) (length ▸ even), feed_append,
      Rows.ofColumns_append, still]

/-- Frames of two and of three samples sound the same, and two whole frames can come first. -/
theorem render_any_framing_stereo :
    let filter : DestinationFilter := ⟨.replicate _ 1, .replicate _ 0⟩
    let config : Config :=
      ⟨2, .newest, false, [.biquad .passThrough], [filter], by decide, by decide, by decide, by decide⟩
    let other : Config :=
      ⟨3, .newest, false, [.biquad .passThrough], [filter], by decide, by decide, by decide, by decide⟩
    other.SameSession config ∧
      (∃ first second after left next ticked output,
        create config 2 = .ok first ∧ create other 2 = .ok second ∧
        first.render [[1, 2, 3, 4], [5, 6, 7]] .create = .ok (after, left, output) ∧
        second.render [[1, 2, 3, 4], [5, 6, 7]] .create = .ok (next, ticked, output)) ∧
      ∃ fresh middle left last final whole ended early late,
        create config 2 = .ok fresh ∧
        fresh.render [[1, 2, 3, 4], [5, 6, 7, 8]] .create = .ok (middle, left, early) ∧
        middle.render [[9], [10, 11]] left = .ok (last, final, late) ∧
        fresh.render [[1, 2, 3, 4, 9], [5, 6, 7, 8, 10, 11]] .create =
          .ok (whole, ended, List.zipWith (· ++ ·) early late) := by
  intro filter config other
  have same : other.SameSession config := ⟨rfl, rfl, rfl, rfl⟩
  obtain ⟨frames, parts⟩ := render_any_framing config Nat.two_pos (by decide)
  exact ⟨same, frames other same [[1, 2, 3, 4], [5, 6, 7]] .create .create rfl,
    parts [[1, 2, 3, 4], [5, 6, 7, 8]] [[9], [10, 11]] 2 .create rfl rfl (by decide)⟩

end Mixdown.Renderer
