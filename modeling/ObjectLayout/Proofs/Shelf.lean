import ObjectLayout.Table.OrderedMap

/-!
# Values under names

A program that makes tables, derives one from another and goes on changing them holds them under
names. `Shelf.run` is what is held after a list of operations, each aimed at one name. What the
operations keep holds of everything that a run leaves (`Shelf.holds_run`), and a value stays what it
is while no operation is aimed at its name (`Shelf.get?_run_of_forall_ne`).
-/

set_option autoImplicit false

namespace ObjectLayout

/-- Values under names. -/
abbrev Shelf (α : Type) := OrderedMap String α

namespace Shelf

variable {α ω : Type} {P : α → Prop}

/-- One operation: what comes of it is put under the name at which it is aimed. An operation that
makes nothing changes nothing. -/
def perform (result : Shelf α → String → ω → Option α) (s : Shelf α) (step : String × ω) :
    Shelf α :=
  match result s step.1 step.2 with
  | some a => s.insert step.1 a
  | none => s

/-- A list of operations, one after another. -/
def run (result : Shelf α → String → ω → Option α) (s : Shelf α) (steps : List (String × ω)) :
    Shelf α :=
  steps.foldl (perform result) s

/-- Everything on the shelf has the property. -/
def Holds (P : α → Prop) (s : Shelf α) : Prop :=
  ∀ name a, s.get? name = some a → P a

/-- What holds of every value holds of none. -/
theorem holds_empty (P : α → Prop) : Holds P (∅ : Shelf α) := fun _ _ h => nomatch h

/-- A value for which it holds can be put under a name. -/
theorem Holds.insert {s : Shelf α} (h : Holds P s) (name : String) {a : α} (ha : P a) :
    Holds P (OrderedMap.insert s name a) := by
  intro other b hget
  rcases OrderedMap.of_get?_insert hget with ⟨-, rfl⟩ | hold
  · exact ha
  · exact h other b hold

variable {result : Shelf α → String → ω → Option α}

/-- A run over two lists is a run over the one and then over the other. -/
theorem run_append (s : Shelf α) (first later : List (String × ω)) :
    run result s (first ++ later) = run result (run result s first) later :=
  List.foldl_append

/-- A property that every operation gives to what it makes holds of everything. -/
theorem holds_run
    (hresult : ∀ s target operation a, Holds P s → result s target operation = some a → P a)
    {s : Shelf α} (hs : Holds P s) (steps : List (String × ω)) : Holds P (run result s steps) := by
  induction steps generalizing s with
  | nil => exact hs
  | cons step rest ih =>
    apply ih
    unfold perform
    split
    · next a ha => exact hs.insert step.1 (hresult s step.1 step.2 a hs ha)
    · exact hs

/-- What an operation gives is held under the name at which it is aimed. -/
theorem get?_perform_self {s : Shelf α} {name : String} {operation : ω} {a : α}
    (h : result s name operation = some a) :
    (perform result s (name, operation)).get? name = some a := by
  unfold perform
  rw [h]
  exact OrderedMap.get?_insert_self s name a

/-- An operation that is aimed at another name changes nothing. -/
theorem get?_perform_of_ne {s : Shelf α} {step : String × ω} {name : String}
    (h : name ≠ step.1) : (perform result s step).get? name = s.get? name := by
  unfold perform
  split
  · exact OrderedMap.get?_insert_of_ne s h _
  · rfl

/-- A value stays what it is while nothing is done under its name. -/
theorem get?_run_of_forall_ne {s : Shelf α} {steps : List (String × ω)} {name : String}
    (h : ∀ step ∈ steps, name ≠ step.1) : (run result s steps).get? name = s.get? name := by
  induction steps generalizing s with
  | nil => rfl
  | cons step rest ih =>
    have hrest : (run result (perform result s step) rest).get? name =
        (perform result s step).get? name :=
      ih fun other hother => h other (List.mem_cons_of_mem _ hother)
    exact hrest.trans (get?_perform_of_ne (h step List.mem_cons_self))

end Shelf

end ObjectLayout
