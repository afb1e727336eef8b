import Mixdown.Fault

/-! The causes for which a request is refused, and their wording. -/

namespace Mixdown

/-- The ways in which a readable configuration describes no session. -/
inductive ConfigError where
  /-- A frame holds no samples. -/
  | emptyFrame
  /-- The revision is newer than any known one. -/
  | newerRevision (revision newest : Nat)
  /-- More destination filters are listed than a destination can hold. -/
  | tooManyFilters (count most : Nat)
  /-- A stage has a time that is not positive or a ratio below one. -/
  | stageRange (stage : Nat)
  /-- The channel count is zero or above the largest. -/
  | channelRange (channels most : Nat)
  deriving DecidableEq, Repr

/-- What kind of fault ended the reading of a configuration text. -/
inductive TextError where
  /-- The text breaks the grammar. -/
  | grammar
  /-- The text is well formed where a value of another kind or range is wanted. -/
  | value
  /-- The text ends early. -/
  | ending
  deriving DecidableEq, Repr

/-- The reasons for which a sound file cannot be read or written. -/
inductive WaveError where
  /-- The file cannot be opened or ends early. -/
  | input
  /-- The file breaks the format. -/
  | format
  /-- A sample does not fit the number type it is read into. -/
  | tooWide
  /-- The file ends inside a frame. -/
  | unfinishedFrame
  /-- The file uses a part of the format that is not supported. -/
  | unsupported
  deriving DecidableEq, Repr

/-- The ways in which a request to the tool cannot be met. -/
inductive RequestError where
  /-- The channel asked for does not exist. -/
  | missingChannel (channel count : Nat)
  /-- There are fewer samples than the transform needs. -/
  | fewSamples (want got : Nat)
  /-- A splitter section was read only in part. -/
  | unreadSection (consumed length : Nat)
  deriving DecidableEq, Repr

/-- The reasons for which a request is refused. -/
inductive Error where
  /-- A transform size is not a power of two. -/
  | sampleCount (count : Nat)
  /-- A work buffer is too small for its transform. -/
  | workBuffer (want got : Nat)
  /-- A call names another size than its transform has. -/
  | sampleCountMismatch (want got : Nat)
  /-- A buffer is shorter than the call needs. -/
  | shortBuffer (want got : Nat)
  /-- A loudness meter cannot have this number of channels. -/
  | channelCount (count : Nat)
  /-- A loudness meter cannot run at this rate. -/
  | sampleRate (rate : Nat)
  /-- An effect slot holds no effect. -/
  | emptySlot (slot : Nat)
  /-- A parameter blob is shorter than its records. -/
  | shortParameter (want got : Nat)
  /-- A revision magic names no known revision. -/
  | revision (magic : UInt32)
  /-- A configuration describes no session. -/
  | config (cause : ConfigError)
  /-- A configuration file cannot be read. -/
  | unreadable
  /-- A configuration text cannot be parsed. -/
  | text (cause : TextError)
  /-- A sound file cannot be read or written. -/
  | wave (cause : WaveError)
  /-- A request to the tool cannot be met. -/
  | request (cause : RequestError)
  /-- A command line names no command or breaks its grammar. -/
  | usage
  /-- The computation stopped without an answer. -/
  | fault (cause : Fault)
  deriving DecidableEq, Repr

/-- A fault inside a request ends the request. -/
instance : MonadLift (Except Fault) (Except Error) where
  monadLift run := run.mapError .fault

/-- What was found without a fault is found by the request. -/
@[simp] theorem lift_ok (value : α) :
    (liftM (Except.ok value : Except Fault α) : Except Error α) = .ok value := rfl

/-- What a request has found was found without a fault. -/
theorem eq_ok_of_lift {run : Except Fault α} {value : α}
    (found : (liftM run : Except Error α) = .ok value) : run = .ok value := by
  -- A fault would be the request's own error.
  cases run with
  | error fault => cases found
  | ok other =>
    rw [lift_ok] at found
    rw [Except.ok.inj found]

/-- The digits of a number in base sixteen, lower case, at least as many as asked for. -/
def hexadecimal (width value : Nat) : String :=
  -- Numbers with more digits than asked for keep them all.
  let digits := Nat.toDigits 16 value
  String.ofList (List.replicate (width - digits.length) '0' ++ digits)

/-- The wording of a configuration error. -/
def ConfigError.message : ConfigError → String
  | .emptyFrame => "sample_count must be positive"
  | .newerRevision revision newest => s!"revision {revision} is newer than {newest}"
  | .tooManyFilters count most => s!"{count} destination filters; at most {most} supported"
  | .stageRange stage => s!"stage {stage}: times must be positive and ratio at least 1"
  | .channelRange channels most => s!"{channels} channels; 1 to {most} supported"

/-- The wording of a request error. -/
def RequestError.message : RequestError → String
  | .missingChannel channel count => s!"channel {channel} out of {count}"
  | .fewSamples want got => s!"need at least {want} samples; got {got}"
  | .unreadSection consumed length => s!"splitter consumed {consumed} of {length} bytes"

/-- The wording of an error. -/
def Error.message : Error → String
  | .sampleCount count => s!"sample count must be a non-zero power of two, got {count}"
  | .workBuffer want got => s!"work buffer too small: want {want} bytes; got {got}"
  | .sampleCountMismatch want got =>
    s!"sample count mismatch: initialized with {want}; got {got}"
  | .shortBuffer want got => s!"buffer too short: want {want}; got {got}"
  | .channelCount count => s!"invalid channel count {count}"
  | .sampleRate rate => s!"invalid sample rate {rate}"
  | .emptySlot slot => s!"effect slot {slot} holds no effect"
  | .shortParameter want got => s!"parameter blob too short: want {want} bytes; got {got}"
  | .revision magic => s!"unsupported revision magic 0x{hexadecimal 8 magic.toNat}"
  | .config cause => s!"invalid config: {cause.message}"
  | .unreadable => "cannot read the configuration"
  | .text _ => "cannot parse the configuration"
  | .wave _ => "cannot use the sound file"
  | .request cause => cause.message
  | .usage => "the command line is not understood"
  | .fault _ => "the computation left its range"

end Mixdown
