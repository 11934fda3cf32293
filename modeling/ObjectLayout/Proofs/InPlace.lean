import ObjectLayout.Proofs.Knowledge
import ObjectLayout.Proofs.Reattachment

/-!
# Changing tables and drafts in place

Here a table or a draft is changed where it stands, one write after another, and an operation that
is refused half-way leaves the writes that it has made. Declaring a method marks its name before the
signatures are compared, and has to take the mark back; attaching attributes lays the fields out
aside, and writes nothing into the draft before all of them have their places and the size is known.
That is why a refusal shows in neither (`exec_addMethodInPlace`, `exec_setAttributesInPlace`): in
place the operations do what they do on values.
-/

set_option autoImplicit false

namespace ObjectLayout

namespace LayoutM

variable {σ τ α β : Type}

/-- An action on the first part of a state. -/
def onFirst (action : LayoutM σ α) : LayoutM (σ × τ) α :=
  ExceptT.mk fun (s, t) => ((action.exec s).1, ((action.exec s).2, t))

/-- An action on the second part of a state. -/
def onSecond (action : LayoutM τ α) : LayoutM (σ × τ) α :=
  ExceptT.mk fun (s, t) => ((action.exec t).1, (s, (action.exec t).2))

/-- An action on the first part of a state does what it does and leaves the second part. -/
@[simp] theorem exec_onFirst (action : LayoutM σ α) (s : σ × τ) :
    action.onFirst.exec s = ((action.exec s.1).1, ((action.exec s.1).2, s.2)) := rfl

/-- An action on the second part of a state does what it does and leaves the first part. -/
@[simp] theorem exec_onSecond (action : LayoutM τ α) (s : σ × τ) :
    action.onSecond.exec s = ((action.exec s.2).1, (s.1, (action.exec s.2).2)) := rfl

end LayoutM

open LayoutM (settle)

namespace Attachment

variable {α : Type} {a : Attachment α}

/-- A table that is not attached is reported as missing. -/
theorem get_of_none (h : a.content = none) (owner : ClassId) (operation : String) :
    a.get owner operation = .error (.uninitializedState owner a.table operation) := by
  unfold get
  rw [h]

/-- A table that is attached is got. -/
theorem get_of_some {value : α} (h : a.content = some value) (owner : ClassId)
    (operation : String) : a.get owner operation = .ok value := by
  unfold get
  rw [h]

end Attachment

namespace DispatchTable

/-- Compares the signature of a method with that of its slot, where both are stated. -/
def checkSignature (owner : ClassId) (slot : MethodSlot) (method : MethodDecl) :
    Except LayoutError Unit :=
  match slot.signature, method.signature with
  | some expected, some found =>
    if expected.IsCompatible found then .ok ()
    else .error (.methodSignatureMismatch owner method.name expected.text found.text)
  | _, _ => .ok ()

/-- Declares a method in place. The name is marked as declared first. -/
def addMethodInPlace (method : MethodDecl) : LayoutM DispatchTable Placement := do
  let t ← get
  if method.name ∈ t.declared then throw (.duplicateName t.owner .methods method.name)
  else do
    modify fun t => { t with declared := method.name :: t.declared }
    match t.get? method.name with
    | none => do
      let slot : MethodSlot :=
        { index := t.slotCount
          signature := method.signature
          implementation := method.symbolIn t.owner
          definedIn := t.owner
          introducedBy := t.owner }
      modify fun t => { t with slots := t.slots.insert method.name slot }
      return .introducing slot.index
    | some slot =>
      match checkSignature t.owner slot method with
      | .error error => do
        modify fun t => { t with declared := t.declared.erase method.name }
        throw error
      | .ok () => do
        modify fun t =>
          { t with slots := t.slots.insert method.name (slot.overrideBy t.owner method) }
        return .overriding slot.index

/-- A method whose name has a slot overrides it, if the signatures agree. -/
theorem addMethod_of_some {t : DispatchTable} {method : MethodDecl} {slot : MethodSlot}
    (hfresh : method.name ∉ t.declared) (hslot : t.get? method.name = some slot) :
    t.addMethod method = (checkSignature t.owner slot method).map fun _ =>
      ({ t with
          slots := t.slots.insert method.name (slot.overrideBy t.owner method)
          declared := method.name :: t.declared }, .overriding slot.index) := by
  unfold addMethod checkSignature
  rw [if_neg hfresh, hslot]
  dsimp only
  cases slot.signature with
  | none => rfl
  | some expected =>
    cases method.signature with
    | none => rfl
    | some found =>
      dsimp only
      by_cases hcompatible : expected.IsCompatible found
      · rw [if_pos hcompatible, if_pos hcompatible]
        rfl
      · rw [if_neg hcompatible, if_neg hcompatible]
        rfl

/-- A method that is refused leaves no mark. -/
theorem exec_addMethodInPlace (t : DispatchTable) (method : MethodDecl) :
    (addMethodInPlace method).exec t = settle t (t.addMethod method) := by
  unfold addMethodInPlace
  rw [LayoutM.exec_bind, LayoutM.exec_get]
  dsimp only
  by_cases hdeclared : method.name ∈ t.declared
  · unfold addMethod
    rw [if_pos hdeclared, if_pos hdeclared]
    rfl
  · rw [if_neg hdeclared, LayoutM.exec_bind, LayoutM.exec_modify]
    dsimp only
    cases hslot : t.get? method.name with
    | none =>
      unfold addMethod
      rw [if_neg hdeclared, hslot]
      rfl
    | some slot =>
      rw [addMethod_of_some hdeclared hslot]
      dsimp only
      cases checkSignature t.owner slot method with
      | ok _ => rfl
      | error error =>
        have hmark : (method.name :: t.declared).erase method.name = t.declared :=
          List.erase_cons_head _ _
        dsimp only
        rw [LayoutM.exec_bind, LayoutM.exec_modify]
        dsimp only
        rw [LayoutM.exec_throw, hmark]
        rfl

end DispatchTable

namespace Draft

variable {σ : Type}

/-- Declares a method in the dispatch table of a draft in place. -/
def addMethodInPlace (method : MethodDecl) : LayoutM Draft Placement := do
  let draft ← get
  let table ← draft.dispatch.get draft.id "add_method"
  let run := (DispatchTable.addMethodInPlace method).exec table
  modify fun draft => draft.setDispatch run.2
  run.1

/-- Attaching the table that is attached changes nothing. -/
theorem setDispatch_self {draft : Draft} {table : DispatchTable}
    (h : draft.dispatch.content = some table) : draft.setDispatch table = draft := by
  have hattached : draft.dispatch.set table = draft.dispatch := by
    unfold Attachment.set
    rw [← h]
  unfold setDispatch
  rw [hattached]

/-- A draft declares a method as its dispatch table does. -/
theorem addMethod_of_content {draft : Draft} {table : DispatchTable}
    (h : draft.dispatch.content = some table) (method : MethodDecl) :
    draft.addMethod method =
      (table.addMethod method).map fun placed => (draft.setDispatch placed.1, placed.2) := by
  have hself := addMethod_setDispatch draft table method
  rw [setDispatch_self h] at hself
  exact hself

/-- A method that is refused leaves the draft. -/
theorem exec_addMethodInPlace (draft : Draft) (method : MethodDecl) :
    (addMethodInPlace method).exec draft = settle draft (draft.addMethod method) := by
  unfold addMethodInPlace
  rw [LayoutM.exec_bind, LayoutM.exec_get]
  dsimp only
  rw [LayoutM.exec_bind, LayoutM.exec_liftM]
  cases hcontent : draft.dispatch.content with
  | none =>
    have hget := Attachment.get_of_none hcontent draft.id "add_method"
    unfold addMethod
    rw [hget]
    rfl
  | some table =>
    rw [Attachment.get_of_some hcontent, addMethod_of_content hcontent]
    dsimp only
    rw [LayoutM.exec_bind, LayoutM.exec_modify]
    dsimp only
    rw [LayoutM.exec_liftM, DispatchTable.exec_addMethodInPlace]
    cases table.addMethod method with
    | error error =>
      have hsame : (settle table
          (.error error : Except LayoutError (DispatchTable × Placement))).2 = table := rfl
      rw [hsame, setDispatch_self hcontent]
      rfl
    | ok placed => rfl

/-- Attaches an attribute table to a draft in place, beside a state against which its types are
sized. The fields are laid out aside. -/
def setAttributesInPlace (table : AttributeTable) (env : TypeEnv σ)
    (note : PlacedField → LayoutM σ Unit) : LayoutM (Draft × σ) Unit := do
  let (draft, _) ← get
  let segment ←
    LayoutM.onSecond (draft.placeFields env note draft.firstSegment table.toList)
  let size ← draft.instanceSize segment
  LayoutM.onFirst (modify fun draft => { draft with size })
  LayoutM.onFirst (modify fun draft => { draft with alignment := segment.alignment })
  LayoutM.onFirst (modify fun draft => { draft with symbols := segment.symbols })
  LayoutM.onFirst (modify fun draft => { draft with attributes := draft.attributes.set table })

/-- What attaching attributes does to the state beside the draft is the same, and a draft that
refuses the attributes is not changed. -/
theorem exec_setAttributesInPlace (draft : Draft) (table : AttributeTable) (env : TypeEnv σ)
    (note : PlacedField → LayoutM σ Unit) (s : σ) :
    (setAttributesInPlace table env note).exec (draft, s) =
      match (draft.setAttributes table env note).exec s with
      | (.ok attached, t) => (.ok (), (attached, t))
      | (.error error, t) => (.error error, (draft, t)) := by
  unfold setAttributesInPlace
  rw [exec_setAttributes, LayoutM.exec_bind, LayoutM.exec_get]
  dsimp only
  rw [LayoutM.exec_bind, LayoutM.exec_onSecond]
  rcases (draft.placeFields env note draft.firstSegment table.toList).exec s with ⟨answer, t⟩
  cases answer with
  | error error => rfl
  | ok segment =>
    dsimp only
    rw [LayoutM.exec_bind, LayoutM.exec_liftM]
    cases hsize : draft.instanceSize segment with
    | error error => simp only [hsize, bind, Except.bind, Except.map]
    | ok size =>
      simp only [hsize, bind, Except.bind, Except.map]
      rfl

end Draft

end ObjectLayout
