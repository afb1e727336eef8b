import Mixdown.Signal.Word

/-! Levels in decibels and as linear gains. -/

namespace Mixdown

/-- The linear gain of a level in decibels. -/
def gainOfDecibels (level : Single) : Single := (10 : Single).pow (level / 20)

/-- The level of a linear gain; silence and negative gains have the lowest level. -/
def decibelsOfGain (gain : Single) : Single :=
  if gain ≤ 0 then -1000 else 20 * gain.log10

end Mixdown
