import ObjectLayout.Error

/-!
# Layout actions

An action may be refused with a layout error and may change a state; a refusal keeps the changes
made before it. `LayoutM.exec` is what an action does: its answer and the state it leaves. The
equations below say what it does for each way to put actions together.
-/

set_option autoImplicit false

namespace ObjectLayout

/-- Actions that may be refused and that keep their state when they are. -/
abbrev LayoutM (σ : Type) := ExceptT LayoutError (StateM σ)

namespace LayoutM

variable {σ α β : Type}

/-- The answer of an action in a state, and the state it leaves. -/
def exec (action : LayoutM σ α) (s : σ) : Except LayoutError α × σ := action.run.run s

/-- The answer of an operation on a value and the value that it leaves, which is the old one where
the operation is refused. -/
def settle (a : α) : Except LayoutError (α × β) → Except LayoutError β × α
  | .ok (a', b) => (.ok b, a')
  | .error error => (.error error, a)

/-- The answer of an action, be it a value or an error, as a value. -/
def attempt (action : LayoutM σ α) : LayoutM σ (Except LayoutError α) :=
  ExceptT.lift action.run

/-- The value, or the given error where there is none. -/
def orThrow (error : LayoutError) : Option α → LayoutM σ α
  | some a => pure a
  | none => throw error

/-- A value as an action leaves the state. -/
@[simp] theorem exec_pure (a : α) (s : σ) : (pure a : LayoutM σ α).exec s = (.ok a, s) := rfl

/-- A refusal leaves the state. -/
@[simp] theorem exec_throw (error : LayoutError) (s : σ) :
    (throw error : LayoutM σ α).exec s = (.error error, s) := rfl

/-- Reading answers the state and leaves it. -/
@[simp] theorem exec_get (s : σ) : (get : LayoutM σ σ).exec s = (.ok s, s) := rfl

/-- A change of the state is not refused. -/
@[simp] theorem exec_modify (f : σ → σ) (s : σ) :
    (modify f : LayoutM σ PUnit).exec s = (.ok ⟨⟩, f s) := rfl

/-- An answer as an action leaves the state. -/
@[simp] theorem exec_liftM (answer : Except LayoutError α) (s : σ) :
    (liftM answer : LayoutM σ α).exec s = (answer, s) := by
  cases answer <;> rfl

/-- An attempt is not refused, and keeps what the action changes. -/
@[simp] theorem exec_attempt (action : LayoutM σ α) (s : σ) :
    action.attempt.exec s = (.ok (action.exec s).1, (action.exec s).2) := rfl

/-- An action is followed by the next one unless it is refused. -/
theorem exec_bind (action : LayoutM σ α) (next : α → LayoutM σ β) (s : σ) :
    (action >>= next).exec s =
      match action.exec s with
      | (.ok a, t) => (next a).exec t
      | (.error error, t) => (.error error, t) := by
  have h : (action >>= next).exec s =
      (ExceptT.bindCont next (action.exec s).1).run (action.exec s).2 := rfl
  rw [h]
  rcases action.exec s with ⟨answer, t⟩
  cases answer <;> rfl

end LayoutM

end ObjectLayout
