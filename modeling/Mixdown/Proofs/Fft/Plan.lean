import Mixdown.Proofs.Fft.Passes

/-!
Calls of a plan that is ready: each is refused before it writes anything, or answers with a transformed
sequence.
-/

namespace Mixdown.Fft

variable {R C : Type}

/-- A list holds exactly the items of a sequence up to a count. -/
structure Lists (items : Nat → C) (count : Nat) (list : List C) : Prop where
  length : list.length = count
  shows : ∀ index, index < count → list[index]? = some (items index)

/-- The front of a buffer that shows a sequence holds its items. -/
theorem Shows.lists {work : Array C} {count size : Nat} {items : Nat → C}
    (shows : Shows work size items) (part : count ≤ size) :
    Lists items count (work.toList.take count) where
  length := by
    have := shows.size_le
    rw [List.length_take, Array.length_toList]
    omega
  -- What lies behind the count is cut off, so that only the indices below it are asked for.
  shows index within := by
    rw [List.getElem?_take_of_lt within, Array.getElem?_toList]
    exact shows index (by omega)

/-- The items of a list may all be changed. -/
theorem Lists.map {items : Nat → R} {count : Nat} {list : List R} (lists : Lists items count list)
    (change : R → C) : Lists (fun index => change (items index)) count (list.map change) where
  length := by rw [List.length_map, lists.length]
  shows index within := by rw [List.getElem?_map, lists.shows index within, Option.map_some]

/-- Two lists of the same items are one list. -/
theorem Lists.eq {items others : Nat → C} {count : Nat} {list rest : List C}
    (lists : Lists items count list) (rests : Lists others count rest)
    (same : ∀ index, index < count → items index = others index) : list = rest := by
  -- Below the count both show the same items, and from there on neither has any.
  apply List.ext_getElem?
  intro index
  rcases Nat.lt_or_ge index count with within | beyond
  · rw [lists.shows index within, rests.shows index within, same index within]
  · rw [List.getElem?_eq_none (by rw [lists.length]; exact beyond),
      List.getElem?_eq_none (by rw [rests.length]; exact beyond)]

/-- A buffer shows what was written to its front, and keeps what lies behind it. -/
theorem Lists.overwrite {items : Nat → C} {count : Nat} {list : List C}
    (lists : Lists items count list) (target : Array C) (room : count ≤ target.size) :
    ∃ after, overwrite target list = .ok after ∧ after.size = target.size ∧
      Shows after count items ∧ ∀ position, count ≤ position →
        after[position]? = target[position]? := by
  -- Items are stored from the front on, and none of them falls behind the count.
  obtain ⟨after, ran, size, cells⟩ := foldlM_store target 0 list
    (by rw [lists.length]; omega)
  refine ⟨after, ran, size, fun index within => ?_, fun position behind => ?_⟩
  · rw [cells index, lists.length, if_pos (by omega), Nat.sub_zero, lists.shows index within]
  · rw [cells position, lists.length, if_neg (by omega)]

section Mirror

variable (arithmetic : Arithmetic R C) (size : Nat) (bins : Nat → C)

/-- The bins of a full spectrum, of which those above the middle mirror those below it. -/
def mirrored (index : Nat) : C :=
  if index < size / 2 + 1 then bins index else arithmetic.conjugate (bins (size - index))

/-- The full spectrum of a real signal, whose upper half holds the conjugates of the lower. -/
def Plan.fullSpectrum (bins : List C) : List C :=
  -- The first bin and the middle one are their own mirror images.
  bins.take (size / 2 + 1) ++ ((bins.take (size / 2)).drop 1).reverse.map arithmetic.conjugate

variable {bins}

/-- Beyond the least size, which has one bin only, the two halves are equally long. -/
theorem two_pow_halves (bits : Nat) : 2 ^ bits = 1 ∨ 2 ^ bits = 2 * (2 ^ bits / 2) := by
  -- A power that is not the least one has been doubled.
  cases bits with
  | zero => exact Or.inl rfl
  | succ bits =>
    rw [Nat.pow_succ]
    omega

/-- The bins below the middle are put above it where their mirror images lie, and all others stay. -/
theorem mirror_eq {bits : Nat} {work : Array C} (room : 2 ^ bits ≤ work.size)
    (shows : Shows work (2 ^ bits / 2 + 1) bins) :
    ∃ after, mirror arithmetic (2 ^ bits) work = .ok after ∧ after.size = work.size ∧
      Shows after (2 ^ bits) (mirrored arithmetic (2 ^ bits) bins) := by
  have halves := two_pow_halves bits
  generalize 2 ^ bits = size at *
  -- The loop goes from the first bin up, and in the buffer from the last one down to the middle.
  obtain ⟨after, ran, total, filled, kept⟩ := store_each
    (fun work i => do store work (size - (1 + i)) (arithmetic.conjugate (← fetch work (1 + i))))
    (fun i => 1 + i) (fun i => size - (1 + i)) arithmetic.conjugate (size / 2 - 1)
    (fun _ _ _ => rfl)
    (fun i within => by omega) (fun i within => shows (1 + i) (by omega))
    (fun early late before within => by omega) (fun early late before within => by omega)
  refine ⟨after, ?_, total, fun index within => ?_⟩
  · rw [mirror, List.range'_eq_map_range, List.foldlM_map]
    exact ran
  · rw [mirrored]
    -- The bins up to the middle are the only ones that the loop does not write.
    rcases Nat.lt_or_ge index (size / 2 + 1) with early | late
    · rw [if_pos early, kept index fun i before => by omega, shows index early]
    · -- The mirror image is as far from the end as the bin is from the start.
      obtain ⟨i, rfl⟩ : ∃ i, index = size - (1 + i) := ⟨size - index - 1, by omega⟩
      rw [if_neg (by omega), filled i (by omega), show size - (size - (1 + i)) = 1 + i by omega]

variable {arithmetic}

/-- The full spectrum of a list of bins holds the mirrored ones behind those of the list. -/
theorem fullSpectrum_lists {bits : Nat} {list : List C}
    (lists : ∀ index, index < 2 ^ bits / 2 + 1 → list[index]? = some (bins index)) :
    Lists (mirrored arithmetic (2 ^ bits) bins) (2 ^ bits)
      (Plan.fullSpectrum arithmetic (2 ^ bits) list) := by
  -- A list that shows the middle bin has all bins up to it.
  obtain ⟨enough, -⟩ := List.getElem?_eq_some_iff.mp
    (lists (2 ^ bits / 2) (Nat.lt_succ_self _))
  have halves := two_pow_halves bits
  have positive := Nat.two_pow_pos bits
  generalize 2 ^ bits = size at *
  have front : (list.take (size / 2 + 1)).length = size / 2 + 1 := by
    rw [List.length_take]
    omega
  have middle : ((list.take (size / 2)).drop 1).length = size / 2 - 1 := by
    rw [List.length_drop, List.length_take]
    omega
  refine ⟨?_, fun index within => ?_⟩
  · rw [Plan.fullSpectrum, List.length_append, front, List.length_map, List.length_reverse, middle]
    omega
  · rw [Plan.fullSpectrum, mirrored]
    rcases Nat.lt_or_ge index (size / 2 + 1) with early | late
    · rw [List.getElem?_append_left (by omega), if_pos early, List.getElem?_take_of_lt early,
        lists index early]
    · rw [List.getElem?_append_right (by omega), if_neg (by omega), front, List.getElem?_map,
        List.getElem?_reverse (by omega), middle, List.getElem?_drop,
        List.getElem?_take_of_lt (by omega)]
      -- The mirror image is as far from the end as the bin is from the start.
      rw [show 1 + (size / 2 - 1 - 1 - (index - (size / 2 + 1))) = size - index by omega,
        lists (size - index) (by omega), Option.map_some]

end Mirror

/-- Why a transform of some size refuses a count, an input of which it reads a part, or an output of
which it writes a part. -/
def refusal (size count reads given writes held : Nat) : Option Error :=
  if count ≠ size then some (.sampleCountMismatch size count)
  else if given < reads then some (.shortBuffer reads given)
  else if held < writes then some (.shortBuffer writes held)
  else none

namespace Plan

/-- A plan whose size is a power of two and whose buffer has room for the items and as many more. -/
structure Ready (plan : Plan C) : Prop where
  power : plan.size.isPowerOfTwo
  room : 2 * plan.size ≤ plan.work.size

/-- The plans that can be set up are those that are ready. -/
theorem create_eq_ok_iff {size : Nat} {mode : Mode} {work : Array C} {plan : Plan C} :
    create size mode work = .ok plan ↔ plan = ⟨size, mode, work⟩ ∧ plan.Ready := by
  -- The buffer is measured in bytes, but there are as many of these for each element.
  have bytes : work.size * elementSize < workSize size ↔ work.size < 2 * size := by
    rw [workSize, elementSize]
    omega
  rw [create]
  -- The size is looked at before the buffer, and either of them can refuse the plan.
  by_cases power : size.isPowerOfTwo
  · rw [if_neg (not_not.mpr power)]
    by_cases short : work.size < 2 * size
    · rw [if_pos (bytes.mpr short)]
      constructor
      · intro refused
        cases refused
      · rintro ⟨rfl, ready⟩
        exact absurd ready.room (Nat.not_le.mpr short)
    · rw [if_neg fun less => short (bytes.mp less)]
      constructor
      · intro same
        obtain rfl := Except.ok.inj same
        exact ⟨rfl, power, Nat.not_lt.mp short⟩
      · rintro ⟨rfl, -⟩
        rfl
  · rw [if_pos power]
    constructor
    · intro refused
      cases refused
    · rintro ⟨rfl, ready⟩
      exact absurd ready.power power

/-- A call has transformed items in the work buffer and put its answer in front of the output. -/
structure Answers (plan : Plan C) (left : Nat → C) (output : Array R) (count : Nat)
    (items : Nat → R) (answer : Plan C × Array R) : Prop where
  size : answer.1.size = plan.size
  ready : answer.1.Ready
  work : Shows answer.1.work plan.size left
  shows : Shows answer.2 count items
  kept : ∀ position, count ≤ position → answer.2[position]? = output[position]?

section Jobs

open InPlace (on on_bind on_bind_refused)

variable {O : Type} {plan : Plan C} {output : Array O}

/-- A job looks at all that it is given before it writes: what it refuses is left as it was, and all
else it goes on with. -/
theorem on_checks (plan : Plan C) (output : Array O) (count given : Nat) (reads writes : Nat → Nat)
    (rest : Nat → Job C O Unit) :
    on (do
      let size ← checkCount count
      checkLength (reads size) given
      checkOutput (writes size)
      rest size) (plan, output) =
      match refusal plan.size count (reads plan.size) given (writes plan.size) output.size with
      | some error => (.error error, plan, output)
      | none => (rest plan.size).on (plan, output) := by
  have counts : (checkCount count : Job C O Nat).on (plan, output) =
      if count = plan.size then (.ok plan.size, plan, output)
      else (.error (.sampleCountMismatch plan.size count), plan, output) := by
    rw [checkCount, InPlace.on_get]
    show on (if count = plan.size then _ else _) _ = _
    split <;> rfl
  have holds : (checkOutput (writes plan.size) : Job C O Unit).on (plan, output) =
      (checkLength (writes plan.size) output.size, plan, output) := rfl
  rw [refusal]
  -- The first check that fails decides, and nothing that comes behind it is run.
  by_cases same : count = plan.size
  · rw [if_neg (not_not.mpr same)]
    rw [if_pos same] at counts
    rw [on_bind counts]
    by_cases short : given < reads plan.size
    · rw [if_pos short]
      exact on_bind_refused (by rw [checkLength, if_pos short]; rfl)
    · rw [if_neg short, on_bind (by rw [checkLength, if_neg short]; rfl)]
      by_cases low : output.size < writes plan.size
      · rw [if_pos low]
        rw [checkLength, if_pos low] at holds
        exact on_bind_refused holds
      · rw [if_neg low]
        rw [checkLength, if_neg low] at holds
        exact on_bind holds
  · rw [if_pos same]
    rw [if_neg same] at counts
    exact on_bind_refused counts

/-- A change of the work buffer that does not fault is made in place. -/
theorem on_onWork {change : Array C → Except Fault (Array C)} {work : Array C}
    (ran : change plan.work = .ok work) :
    (onWork change : Job C O Unit).on (plan, output) = (.ok (), { plan with work }, output) := by
  -- The buffer is read off the plan that the job is made on.
  rw [onWork, InPlace.on_get]
  show on (do let work ← change plan.work; set ({ plan with work }, output)) _ = _
  rw [ran]
  rfl

/-- Items for which there is room are written to the output in place. -/
theorem on_answer {items : List C → List O} {after : Array O}
    (ran : overwrite output (items plan.work.toList) = .ok after) :
    (answer items).on (plan, output) = (.ok (), plan, after) := by
  -- The items are read off the work buffer, and the plan is not changed any more.
  rw [answer, InPlace.on_get]
  show on (do let output ← overwrite output (items plan.work.toList); set (plan, output)) _ = _
  rw [ran]
  rfl

/-- A job that is not refused leaves its plan and its output. -/
theorem settled_eq {job : Job C O Unit} {left : Plan C × Array O}
    (ran : job.on (plan, output) = (.ok (), left)) : settled job plan output = .ok left := by
  rw [settled, ran]
  rfl

end Jobs

section Processes

open InPlace (on on_bind)

variable (arithmetic : Arithmetic R C) {plan : Plan C} {bits : Nat}

/-- No check fails for the size of a plan and slices that are long enough. -/
theorem refusal_eq_none {size reads given writes held : Nat} (long : reads ≤ given)
    (room : writes ≤ held) : refusal size size reads given writes held = none := by
  rw [refusal, if_neg (not_not.mpr rfl), if_neg (Nat.not_lt.mpr long), if_neg (Nat.not_lt.mpr room)]

/-- The items that a work buffer shows are transformed there, and the answer is read off. -/
theorem Ready.finish {O : Type} (ready : plan.Ready) (power : plan.size = 2 ^ bits)
    (inverse : Bool) {items : Nat → C} (shows : Shows plan.work plan.size items)
    (list : List C → List O) {count : Nat} {answers : Nat → O}
    (lists : ∀ work : Array C, Shows work plan.size (transformed arithmetic inverse bits items) →
      Lists answers count (list work.toList))
    (output : Array O) (room : count ≤ output.size) :
    ∃ left, on (do onWork (Fft.transform arithmetic inverse plan.size); answer list)
        (plan, output) = (.ok (), left) ∧
      Answers plan (transformed arithmetic inverse bits items) output count answers left := by
  -- A plan has room for the data and as much again, in which the transform shuffles it.
  have space := ready.room
  rw [power] at shows
  obtain ⟨work, ran, total, after⟩ := transform_eq arithmetic inverse (by omega) shows
  rw [← power] at ran after
  obtain ⟨outcome, writes, -, front, kept⟩ := (lists work after).overwrite output room
  refine ⟨({ plan with work }, outcome), ?_, rfl, ⟨ready.power, ?_⟩, after, front, kept⟩
  · rw [on_bind (on_onWork ran), on_answer writes]
  · show 2 * plan.size ≤ work.size
    omega

/-- A plan whose buffer was written to is ready still. -/
theorem Ready.filled (ready : plan.Ready) {work : Array C} (size : work.size = plan.work.size) :
    { plan with work }.Ready := ⟨ready.power, by rw [size]; exact ready.room⟩

/-- A transform of real samples is refused, or written, transformed and answered. -/
theorem processRealToComplex_on (plan : Plan C) (output : Array C) (input : Array R) (count : Nat) :
    (processRealToComplex arithmetic input count).on (plan, output) =
      match refusal plan.size count plan.size input.size (plan.size / 2 + 1) output.size with
      | some error => (.error error, plan, output)
      | none => on (do
          onWork (overwrite · ((input.toList.take plan.size).map arithmetic.embed))
          onWork (Fft.transform arithmetic false plan.size)
          answer (·.take (plan.size / 2 + 1))) (plan, output) :=
  on_checks plan output count input.size (fun size => size) (fun size => size / 2 + 1) fun size => do
    onWork (overwrite · ((input.toList.take size).map arithmetic.embed))
    onWork (Fft.transform arithmetic false size)
    answer (·.take (size / 2 + 1))

/-- A transform to real samples is refused, or written, mirrored, transformed and answered. -/
theorem processComplexToReal_on (plan : Plan C) (output : Array R) (input : Array C) (count : Nat) :
    (processComplexToReal arithmetic input count).on (plan, output) =
      match refusal plan.size count (plan.size / 2 + 1) input.size plan.size output.size with
      | some error => (.error error, plan, output)
      | none => on (do
          onWork (overwrite · (input.toList.take (plan.size / 2 + 1)))
          onWork (mirror arithmetic plan.size)
          onWork (Fft.transform arithmetic true plan.size)
          answer fun work => (work.take plan.size).map arithmetic.realPart) (plan, output) :=
  on_checks plan output count input.size (fun size => size / 2 + 1) (fun size => size) fun size => do
    onWork (overwrite · (input.toList.take (size / 2 + 1)))
    onWork (mirror arithmetic size)
    onWork (Fft.transform arithmetic true size)
    answer fun work => (work.take size).map arithmetic.realPart

/-- A complex transform is refused, or written, transformed and answered. -/
theorem processComplexToComplex_on (plan : Plan C) (output input : Array C) (count : Nat)
    (inverse : Bool) : (processComplexToComplex arithmetic input count inverse).on (plan, output) =
      match refusal plan.size count plan.size input.size plan.size output.size with
      | some error => (.error error, plan, output)
      | none => on (do
          onWork (overwrite · (input.toList.take plan.size))
          onWork (Fft.transform arithmetic inverse plan.size)
          answer (·.take plan.size)) (plan, output) :=
  on_checks plan output count input.size (fun size => size) (fun size => size) fun size => do
    onWork (overwrite · (input.toList.take size))
    onWork (Fft.transform arithmetic inverse size)
    answer (·.take size)

/-- A complex transform answers in place with the transformed sequence of its input. -/
theorem Ready.processComplexToComplex (ready : plan.Ready) (power : plan.size = 2 ^ bits)
    (inverse : Bool) {input : Array C} {items : Nat → C} (shows : Shows input plan.size items)
    (output : Array C) (room : plan.size ≤ output.size) :
    ∃ left, (Plan.processComplexToComplex arithmetic input plan.size inverse).on (plan, output) =
        (.ok (), left) ∧
      Answers plan (transformed arithmetic inverse bits items) output plan.size
        (transformed arithmetic inverse bits items) left := by
  have space := ready.room
  -- The input takes the place of whatever the work buffer has held in front.
  obtain ⟨filled, writes, size, front, -⟩ :=
    (shows.lists (Nat.le_refl _)).overwrite plan.work (by omega)
  obtain ⟨left, ran, answers⟩ := (ready.filled size).finish arithmetic power inverse front
    (·.take plan.size) (fun work after => after.lists (Nat.le_refl _)) output room
  refine ⟨left, ?_, answers.size, answers.ready, answers.work, answers.shows, answers.kept⟩
  -- No check fails, and the two parts of the job follow each other.
  rw [processComplexToComplex_on, refusal_eq_none shows.size_le room]
  exact (on_bind (on_onWork writes)).trans ran

/-- A transform of real samples answers in place with the lower half of their transformed sequence. -/
theorem Ready.processRealToComplex (ready : plan.Ready) (power : plan.size = 2 ^ bits)
    {input : Array R} {items : Nat → R} (shows : Shows input plan.size items) (output : Array C)
    (room : plan.size / 2 + 1 ≤ output.size) :
    ∃ left, (Plan.processRealToComplex arithmetic input plan.size).on (plan, output) =
        (.ok (), left) ∧
      Answers plan (transformed arithmetic false bits fun index => arithmetic.embed (items index))
        output (plan.size / 2 + 1)
        (transformed arithmetic false bits fun index => arithmetic.embed (items index)) left := by
  have space := ready.room
  -- The answer is a part of what was transformed, as far as the middle.
  have part : plan.size / 2 + 1 ≤ plan.size := by
    have := Nat.two_pow_pos bits
    omega
  -- Real samples are embedded on their way into the work buffer.
  obtain ⟨filled, writes, size, front, -⟩ :=
    ((shows.lists (Nat.le_refl _)).map arithmetic.embed).overwrite plan.work (by omega)
  obtain ⟨left, ran, answers⟩ := (ready.filled size).finish arithmetic power false front
    (·.take (plan.size / 2 + 1)) (fun work after => after.lists part) output room
  refine ⟨left, ?_, answers.size, answers.ready, answers.work, answers.shows, answers.kept⟩
  rw [processRealToComplex_on, refusal_eq_none shows.size_le room]
  exact (on_bind (on_onWork writes)).trans ran

/-- A transform to real samples answers in place with the real parts of the transformed full spectrum,
whose upper half it has put into the work buffer. -/
theorem Ready.processComplexToReal (ready : plan.Ready) (power : plan.size = 2 ^ bits)
    {input : Array C} {bins : Nat → C} (shows : Shows input (plan.size / 2 + 1) bins)
    (output : Array R) (room : plan.size ≤ output.size) :
    ∃ left, (Plan.processComplexToReal arithmetic input plan.size).on (plan, output) =
        (.ok (), left) ∧
      Answers plan (transformed arithmetic true bits (mirrored arithmetic plan.size bins)) output
        plan.size (fun index => arithmetic.realPart
          (transformed arithmetic true bits (mirrored arithmetic plan.size bins) index)) left := by
  have space := ready.room
  have part : plan.size / 2 + 1 ≤ plan.size := by
    have := Nat.two_pow_pos bits
    omega
  obtain ⟨filled, writes, size, front, -⟩ :=
    (shows.lists (Nat.le_refl _)).overwrite plan.work (by omega)
  -- The bins fill the work buffer up to the middle, and their mirror images all of the rest.
  rw [power] at front
  obtain ⟨whole, mirrors, total, full⟩ := mirror_eq arithmetic (by omega) front
  rw [← power] at mirrors full
  obtain ⟨left, ran, answers⟩ := (ready.filled (total.trans size)).finish arithmetic power true full
    (fun work => (work.take plan.size).map arithmetic.realPart)
    (fun work after => (after.lists (Nat.le_refl _)).map arithmetic.realPart) output room
  refine ⟨left, ?_, answers.size, answers.ready, answers.work, answers.shows, answers.kept⟩
  -- No check fails, and the three parts of the job follow each other.
  rw [processComplexToReal_on, refusal_eq_none shows.size_le room]
  refine (on_bind (on_onWork writes)).trans ?_
  exact (on_bind (on_onWork mirrors)).trans ran

/-- A complex transform answers with the transformed sequence of its input. -/
theorem Ready.complexToComplex (ready : plan.Ready) (power : plan.size = 2 ^ bits) (inverse : Bool)
    {input : Array C} {items : Nat → C} (shows : Shows input plan.size items) (output : Array C)
    (room : plan.size ≤ output.size) :
    ∃ answer, plan.complexToComplex arithmetic output input plan.size inverse = .ok answer ∧
      Answers plan (transformed arithmetic inverse bits items) output plan.size
        (transformed arithmetic inverse bits items) answer := by
  obtain ⟨left, ran, answers⟩ :=
    ready.processComplexToComplex arithmetic power inverse shows output room
  exact ⟨left, settled_eq ran, answers⟩

/-- A transform of real samples answers with the lower half of their transformed sequence. -/
theorem Ready.realToComplex (ready : plan.Ready) (power : plan.size = 2 ^ bits) {input : Array R}
    {items : Nat → R} (shows : Shows input plan.size items) (output : Array C)
    (room : plan.size / 2 + 1 ≤ output.size) :
    ∃ answer, plan.realToComplex arithmetic output input plan.size = .ok answer ∧
      Answers plan (transformed arithmetic false bits fun index => arithmetic.embed (items index))
        output (plan.size / 2 + 1)
        (transformed arithmetic false bits fun index => arithmetic.embed (items index)) answer := by
  obtain ⟨left, ran, answers⟩ := ready.processRealToComplex arithmetic power shows output room
  exact ⟨left, settled_eq ran, answers⟩

/-- A transform to real samples answers with the real parts of the transformed full spectrum. -/
theorem Ready.complexToReal (ready : plan.Ready) (power : plan.size = 2 ^ bits) {input : Array C}
    {bins : Nat → C} (shows : Shows input (plan.size / 2 + 1) bins) (output : Array R)
    (room : plan.size ≤ output.size) :
    ∃ answer, plan.complexToReal arithmetic output input plan.size = .ok answer ∧
      Answers plan (transformed arithmetic true bits (mirrored arithmetic plan.size bins)) output
        plan.size (fun index => arithmetic.realPart
          (transformed arithmetic true bits (mirrored arithmetic plan.size bins) index))
        answer := by
  obtain ⟨left, ran, answers⟩ := ready.processComplexToReal arithmetic power shows output room
  exact ⟨left, settled_eq ran, answers⟩

end Processes

end Plan
end Mixdown.Fft
