import ObjectLayout.LayoutM

/-!
# Following an action

Most questions about a build compare a run of an action, which goes through states, with an answer
that is computed without any: by reading from a finished registry, or by reasoning about classes in
the abstract. A `Frame` says which states a run keeps to, what can be seen of such a state, and
whether refusals matter; `Follows` says that a run in a frame answers what a function of the view
says. The rules below carry this from the parts of an action to the whole, so that each action is
gone through once and then serves every frame.

The second part takes answers apart, and reads them off actions whose state holds nothing.
-/

set_option autoImplicit false

namespace ObjectLayout.LayoutM

variable {σ τ α β : Type}

/-- What a run keeps to and what can be seen of it. -/
structure Frame (σ τ : Type) where
  /-- The states in which actions begin and end. -/
  Holds : σ → Prop
  /-- The views that fit a state. -/
  Shows : σ → τ → Prop
  /-- Whether a refusal is compared as well. -/
  Exact : Prop

/-- The frame in which nothing is kept and everything is compared. -/
def Frame.bare (σ : Type) : Frame σ Unit where
  Holds _ := True
  Shows _ _ := True
  Exact := True

/-- The run of an action from a state follows an answer: it ends in a state of the frame, every view
that fits its end fits its beginning, and what it answers is the given answer in each of them. -/
structure Follows (F : Frame σ τ) (action : LayoutM σ α) (answer : τ → Except LayoutError α)
    (s : σ) : Prop where
  holds : F.Holds (action.exec s).2
  narrows : ∀ t, F.Shows (action.exec s).2 t → F.Shows s t
  answers : F.Exact ∨ (action.exec s).1.isOk → ∀ t, F.Shows (action.exec s).2 t →
    answer t = (action.exec s).1

namespace Follows

variable {F : Frame σ τ} {s : σ}

/-- An action that leaves the state follows an answer that is its own in every view of the state. -/
theorem of_exec {action : LayoutM σ α} {answer : τ → Except LayoutError α}
    {x : Except LayoutError α} (hs : F.Holds s) (hexec : action.exec s = (x, s))
    (h : F.Exact ∨ x.isOk → ∀ t, F.Shows s t → answer t = x) : Follows F action answer s where
  holds := by rw [hexec]; exact hs
  narrows := by rw [hexec]; exact fun _ ht => ht
  answers := by rw [hexec]; exact h

/-- A value is followed by itself. -/
theorem pure (hs : F.Holds s) (a : α) :
    Follows F (Pure.pure a : LayoutM σ α) (fun _ => .ok a) s :=
  of_exec hs (exec_pure a s) fun _ _ _ => rfl

/-- A refusal is followed by itself. -/
theorem throw (hs : F.Holds s) (error : LayoutError) :
    Follows F (MonadExcept.throw error : LayoutM σ α) (fun _ => .error error) s :=
  of_exec hs (exec_throw error s) fun _ _ _ => rfl

/-- An answer as an action is followed by itself. -/
theorem lift (hs : F.Holds s) (answer : Except LayoutError α) :
    Follows F (liftM answer : LayoutM σ α) (fun _ => answer) s :=
  of_exec hs (exec_liftM answer s) fun _ _ _ => rfl

/-- Runs are put together like answers: the second one begins where the first one ends. -/
theorem bind {action : LayoutM σ α} {next : α → LayoutM σ β} {answer : τ → Except LayoutError α}
    {answers : α → τ → Except LayoutError β} (h : Follows F action answer s)
    (hnext : ∀ a, (action.exec s).1 = .ok a →
      Follows F (next a) (answers a) (action.exec s).2) :
    Follows F (action >>= next) (fun t => answer t >>= fun a => answers a t) s := by
  have hexec := exec_bind action next s
  have hholds := h.holds
  have hnarrows := h.narrows
  have hanswers := h.answers
  rcases heq : action.exec s with ⟨x, s'⟩
  rw [heq] at hexec hnext hholds hnarrows hanswers
  cases x with
  | error error =>
    simp only at hexec hnext hholds hnarrows hanswers
    constructor
    · rw [hexec]
      exact hholds
    · rw [hexec]
      exact hnarrows
    · rw [hexec]
      intro hex t ht
      -- The second action does not run, so that only an exact frame says anything here.
      rcases hex with hex | hok
      · rw [hanswers (.inl hex) t ht]
        rfl
      · simp [Except.isOk, Except.toBool] at hok
  | ok a =>
    simp only at hexec hnext hholds hnarrows hanswers
    have hrest := hnext a rfl
    constructor
    · rw [hexec]
      exact hrest.holds
    · rw [hexec]
      exact fun t ht => hnarrows t (hrest.narrows t ht)
    · rw [hexec]
      intro hex t ht
      rw [hanswers (.inr rfl) t (hrest.narrows t ht)]
      exact hrest.answers hex t ht

/-- Where the first action only changes the state, the second one is to be followed. -/
theorem skip {action : LayoutM σ Unit} {next : Unit → LayoutM σ β}
    {answer : τ → Except LayoutError β} (h : Follows F action (fun _ => .ok ()) s)
    (hnext : Follows F (next ()) answer (action.exec s).2) :
    Follows F (action >>= next) answer s :=
  h.bind fun _ _ => hnext

/-- What an action follows can be replaced by what is the same in every view. -/
theorem congr {action : LayoutM σ α} {answer answer' : τ → Except LayoutError α}
    (h : Follows F action answer s) (heq : ∀ t, F.Shows s t → answer' t = answer t) :
    Follows F action answer' s where
  holds := h.holds
  narrows := h.narrows
  answers := fun hex t ht => by rw [heq t (h.narrows t ht)]; exact h.answers hex t ht

/-- Reading the state follows what is done with it. -/
theorem get {next : σ → LayoutM σ β} {answer : τ → Except LayoutError β}
    (h : Follows F (next s) answer s) : Follows F (MonadState.get >>= next) answer s where
  holds := h.holds
  narrows := h.narrows
  answers := h.answers

/-- An attempt follows the answer of the action as a value. -/
theorem attempt {action : LayoutM σ α} {answer : τ → Except LayoutError α}
    (h : Follows F action answer s) :
    Follows F action.attempt (fun _ => .ok (action.exec s).1) s where
  holds := h.holds
  narrows := h.narrows
  answers := fun _ _ _ => rfl

/-- In the bare frame every run follows its own answer. -/
theorem self (action : LayoutM σ α) (s : σ) :
    Follows (Frame.bare σ) action (fun _ => (action.exec s).1) s where
  holds := trivial
  narrows := fun _ _ => trivial
  answers := fun _ _ _ => rfl

/-- In the bare frame an action gives the answer that it follows. -/
theorem exec_fst {action : LayoutM σ α} {answer : Except LayoutError α}
    (h : Follows (Frame.bare σ) action (fun _ => answer) s) : (action.exec s).1 = answer :=
  (h.answers (.inl trivial) () trivial).symm

/-- An action that follows an answer ends in a state of the frame. -/
theorem holds_of_exec {action : LayoutM σ α} {answer : τ → Except LayoutError α}
    {x : Except LayoutError α} {s' : σ} (h : Follows F action answer s)
    (hexec : action.exec s = (x, s')) : F.Holds s' := by
  have hholds := h.holds
  rw [hexec] at hholds
  exact hholds

/-- A view of the state in which an action ends is a view of the state in which it began. -/
theorem narrows_of_exec {action : LayoutM σ α} {answer : τ → Except LayoutError α}
    {x : Except LayoutError α} {s' : σ} (h : Follows F action answer s)
    (hexec : action.exec s = (x, s')) {t : τ} (ht : F.Shows s' t) : F.Shows s t := by
  have hnarrows := h.narrows t
  rw [hexec] at hnarrows
  exact hnarrows ht

/-- What an action answers is what is computed from any view of the state in which it ends. -/
theorem answer_of_exec {action : LayoutM σ α} {answer : τ → Except LayoutError α} {a : α} {s' : σ}
    (h : Follows F action answer s) (hexec : action.exec s = (.ok a, s')) {t : τ}
    (ht : F.Shows s' t) : answer t = .ok a := by
  have hanswers := h.answers
  rw [hexec] at hanswers
  exact hanswers (.inr rfl) t ht

/-- Rewording the errors of an action rewords those of its answer. -/
theorem adapt {action : LayoutM σ α} {answer : τ → Except LayoutError α}
    (f : LayoutError → LayoutError) (h : Follows F action answer s) :
    Follows F (ExceptT.adapt f action : LayoutM σ α) (fun t => (answer t).mapError f) s := by
  have hexec : LayoutM.exec (ExceptT.adapt f action : LayoutM σ α) s =
      ((action.exec s).1.mapError f, (action.exec s).2) := rfl
  constructor
  · rw [hexec]
    exact h.holds
  · rw [hexec]
    exact h.narrows
  · rw [hexec]
    intro hex t ht
    have hex' : F.Exact ∨ (action.exec s).1.isOk := by
      apply hex.imp_right
      intro hok
      cases hx : (action.exec s).1 with
      | error error =>
        rw [hx] at hok
        cases hok
      | ok a => rfl
    exact congrArg (Except.mapError f) (h.answers hex' t ht)

/-- A value that may be absent is followed by itself or by the error that stands for its absence. -/
theorem orThrow (hs : F.Holds s) (error : LayoutError) (a : Option α) :
    Follows F (LayoutM.orThrow error a : LayoutM σ α)
      (fun _ => a.elim (.error error) .ok) s := by
  cases a with
  | none => exact throw hs error
  | some a => exact pure hs a

end Follows

/-! ## Answers -/

/-- If two steps succeed, so does each of them. -/
theorem exists_eq_ok_of_bind {ε α β : Type} {x : Except ε α} {f : α → Except ε β} {b : β}
    (h : x >>= f = .ok b) : ∃ a, x = .ok a ∧ f a = .ok b := by
  cases x with
  | error error => cases h
  | ok a => exact ⟨a, rfl, h⟩

/-- An action that goes on after another one only has an answer where the other one has. -/
theorem exists_exec_of_bind {action : LayoutM σ α} {next : α → LayoutM σ β} {s : σ} {b : β}
    (h : ((action >>= next).exec s).1 = .ok b) :
    ∃ a t, action.exec s = (.ok a, t) ∧ ((next a).exec t).1 = .ok b := by
  rw [exec_bind] at h
  rcases hrun : action.exec s with ⟨answer, t⟩
  rw [hrun] at h
  cases answer with
  | error error => cases h
  | ok a => exact ⟨a, t, rfl, h⟩

/-- An action that ends in an answer is refused before it comes to that, or answers so. -/
theorem exec_bind_liftM_eq_iff {action : LayoutM σ α} {f : α → Except LayoutError β} {s s' : σ}
    {x : Except LayoutError β} :
    (action >>= fun a => liftM (f a)).exec s = (x, s') ↔
      (∃ error, x = .error error ∧ action.exec s = (.error error, s')) ∨
        ∃ a, action.exec s = (.ok a, s') ∧ f a = x := by
  rw [exec_bind]
  rcases action.exec s with ⟨error | a, t⟩
  · simp only [Prod.mk.injEq, Except.error.injEq, reduceCtorEq, false_and, exists_false, or_false]
    constructor
    · rintro ⟨rfl, rfl⟩
      exact ⟨error, rfl, rfl, rfl⟩
    · rintro ⟨_, rfl, rfl, rfl⟩
      exact ⟨rfl, rfl⟩
  · simp only [exec_liftM, Prod.mk.injEq, Except.ok.injEq, reduceCtorEq, false_and, and_false,
      exists_false, false_or]
    constructor
    · rintro ⟨hanswer, rfl⟩
      exact ⟨a, ⟨rfl, rfl⟩, hanswer⟩
    · rintro ⟨_, ⟨rfl, rfl⟩, hanswer⟩
      exact ⟨hanswer, rfl⟩

/-- If two steps fail, one of them does. -/
theorem of_bind_eq_error {ε α β : Type} {x : Except ε α} {f : α → Except ε β} {error : ε}
    (h : x >>= f = .error error) : x = .error error ∨ ∃ a, x = .ok a ∧ f a = .error error := by
  cases x with
  | error e =>
    cases h
    exact .inl rfl
  | ok a => exact .inr ⟨a, rfl, h⟩

/-- What a map answers comes from what is mapped. -/
theorem exists_eq_ok_of_map {ε α β : Type} {x : Except ε α} {f : α → β} {b : β}
    (h : x.map f = .ok b) : ∃ a, x = .ok a ∧ f a = b := by
  cases x with
  | error e => cases h
  | ok a => exact ⟨a, rfl, Except.ok.inj h⟩

/-- A map fails only as what is mapped does. -/
theorem eq_error_of_map {ε α β : Type} {x : Except ε α} {f : α → β} {error : ε}
    (h : x.map f = .error error) : x = .error error := by
  cases x with
  | error _ => exact congrArg Except.error (Except.error.inj h)
  | ok a => cases h

/-- Two steps that succeed succeed one after the other. -/
theorem bind_eq_ok {ε α β : Type} {x : Except ε α} {f : α → Except ε β} {a : α} {b : β}
    (hx : x = .ok a) (hf : f a = .ok b) : x >>= f = .ok b := by
  rw [hx]
  exact hf

/-- The answer of an action whose state holds nothing. -/
def answer (action : LayoutM Unit α) : Except LayoutError α := (action.exec ()).1

/-- A value as an action answers the value. -/
@[simp] theorem answer_pure (a : α) : answer (pure a : LayoutM Unit α) = .ok a := rfl

/-- An answer as an action is answered. -/
@[simp] theorem answer_liftM (x : Except LayoutError α) :
    answer (liftM x : LayoutM Unit α) = x := by
  simp only [answer, exec_liftM]

/-- A value that may be absent is answered, or the error that stands for its absence. -/
@[simp] theorem answer_orThrow (error : LayoutError) (a : Option α) :
    answer (orThrow error a : LayoutM Unit α) = a.elim (.error error) .ok := by
  cases a <;> rfl

/-- Adapting the errors of an action adapts those of its answer. -/
@[simp] theorem answer_adapt (f : LayoutError → LayoutError) (action : LayoutM Unit α) :
    answer (ExceptT.adapt f action : LayoutM Unit α) = action.answer.mapError f := rfl

/-- The answers of two actions one after the other are those of the two. -/
theorem answer_bind (action : LayoutM Unit α) (next : α → LayoutM Unit β) :
    answer (action >>= next) = action.answer >>= fun a => (next a).answer := by
  unfold answer
  rw [exec_bind]
  rcases action.exec () with ⟨x, u⟩
  cases x <;> rfl

end ObjectLayout.LayoutM
