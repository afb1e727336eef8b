import Mathlib.Logic.Function.Basic

/-! Steps that turn one item after the other into an output, alone and one behind the other. -/

namespace Mixdown

variable {σ τ α β ρ π : Type}

/-- Feeds items to a step in order, from a state to the state it leaves, with all outputs. -/
def feed (step : σ → α → σ × β) : σ → List α → σ × List β
  | state, [] => (state, [])
  | state, item :: items =>
    let (state, output) := step state item
    let (state, outputs) := feed step state items
    (state, output :: outputs)

/-- Feeding two lists in turn is feeding both at once. -/
theorem feed_append (step : σ → α → σ × β) (state : σ) (front back : List α) :
    feed step state (front ++ back) =
      ((feed step (feed step state front).1 back).1,
        (feed step state front).2 ++ (feed step (feed step state front).1 back).2) := by
  -- Each item leaves the state that the next one starts from.
  induction front generalizing state with
  | nil => rfl
  | cons item front ih => simp [feed, ih]

/-- Every item yields one output. -/
@[simp] theorem feed_length (step : σ → α → σ × β) (state : σ) (items : List α) :
    (feed step state items).2.length = items.length := by
  induction items generalizing state with
  | nil => rfl
  | cons item items ih => simp [feed, ih]

/-- Outputs do not depend on items that come later. -/
theorem feed_take (step : σ → α → σ × β) (state : σ) (front back : List α) :
    (feed step state (front ++ back)).2.take front.length = (feed step state front).2 := by
  -- The outputs of both lists begin with those of the first, one for each of its items.
  rw [feed_append]
  exact List.take_left' (feed_length step state front)

/-- A step that keeps its state treats every item alike. -/
theorem feed_still {step : σ → α → σ × β} {state : σ} {change : α → β}
    (still : ∀ item, step state item = (state, change item)) (items : List α) :
    feed step state items = (state, items.map change) := by
  induction items with
  | nil => rfl
  | cons item items ih => simp only [feed, still, ih, List.map_cons]

/-- Items may be looked at before they are fed or by the step itself. -/
theorem feed_map (step : σ → α → σ × β) (look : ρ → α) (state : σ) (items : List ρ) :
    feed step state (items.map look) = feed (fun state item => step state (look item)) state items := by
  induction items generalizing state with
  | nil => rfl
  | cons item items ih => simp only [List.map_cons, feed, ih]

/-- A state may be kept in another form. -/
theorem feed_lift (lift : σ → τ) (step : σ → α → σ × β) {lifted : τ → α → τ × β}
    (same : ∀ state item, lifted (lift state) item = (lift (step state item).1, (step state item).2))
    (state : σ) (items : List α) :
    feed lifted (lift state) items =
      (lift (feed step state items).1, (feed step state items).2) := by
  induction items generalizing state with
  | nil => rfl
  -- Lifting commutes with the first item, and the rest starts from the state lifted after it.
  | cons item items ih => simp [feed, same, ih]

/-- A step may work on a part of each item and put its output back into the whole. -/
theorem feed_part (step : σ → α → σ × β) (look : ρ → α) (put : ρ → β → ρ) (state : σ)
    (items : List ρ) :
    feed (fun state item => ((step state (look item)).1, put item (step state (look item)).2))
        state items =
      ((feed step state (items.map look)).1,
        List.zipWith put items (feed step state (items.map look)).2) := by
  induction items generalizing state with
  | nil => rfl
  | cons item items ih => simp [feed, ih]

/-- A step may be fed what is seen of its items, for what is seen of its outputs. -/
theorem feed_view (step : σ → ρ → σ × π) (look : ρ → α) (view : π → β) {hear : σ → α → σ × β}
    (same : ∀ state item, hear state (look item) = ((step state item).1, view (step state item).2))
    (state : σ) (items : List ρ) :
    feed hear state (items.map look) =
      ((feed step state items).1, (feed step state items).2.map view) := by
  induction items generalizing state with
  | nil => rfl
  | cons item items ih => simp only [List.map_cons, feed, same, ih]

/-- Steps one behind the other, each with a state of its own. -/
def series : List (σ → α → σ × α) → List σ → α → List σ × α
  | step :: steps, state :: states, item =>
    let (state, item) := step state item
    let (states, item) := series steps states item
    (state :: states, item)
  -- Items run out of steps, or steps out of states, and what is left passes.
  | _, states, item => (states, item)

/-- Without steps the items pass through. -/
theorem feed_series_nil (states : List σ) (items : List α) :
    feed (series ([] : List (σ → α → σ × α))) states items = (states, items) := by
  have pass : ∀ item, series ([] : List (σ → α → σ × α)) states item = (states, id item) :=
    fun _ => rfl
  rw [feed_still pass, List.map_id]

/-- The first step may run over all items before the others run over its outputs. -/
theorem feed_series_cons (step : σ → α → σ × α) (steps : List (σ → α → σ × α)) (state : σ)
    (states : List σ) (items : List α) :
    feed (series (step :: steps)) (state :: states) items =
      ((feed step state items).1 :: (feed (series steps) states (feed step state items).2).1,
        (feed (series steps) states (feed step state items).2).2) := by
  -- No step ever looks at the state of another, so the order between two items does not matter.
  induction items generalizing state states with
  | nil => rfl
  | cons item items ih => simp [feed, series, ih]

end Mixdown
