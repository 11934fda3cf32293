import ObjectLayout.Proofs.InPlace

/-!
# Working on a draft

Between the moment that a draft is made and the moment that it is frozen, tables are attached to it,
methods are declared in it and its tables are read, in any order and with any success. `DraftStep`
says once what a single operation does in place. From it `Accounts` follows along a whole session:
what the draft holds is what the operations so far have attached, and nothing else has changed. So
an operation that is handed on to a table is refused exactly as long as the table is missing, a
refusal leaves the draft alone, and the descriptor shows the tables that were seen last
(`conversation`).
-/

set_option autoImplicit false

namespace ObjectLayout

open LayoutM (exists_exec_of_bind settle)

variable {σ : Type}

/-- What can be asked of a draft. -/
inductive DraftOperation (σ : Type) where
  /-- Attach a table of attributes, whose types are sized against a target. -/
  | setAttributes (table : AttributeTable) (env : TypeEnv σ)
  /-- Attach a dispatch table. -/
  | setDispatch (table : DispatchTable)
  /-- Declare a method in the dispatch table. -/
  | addMethod (method : MethodDecl)
  | attributes
  | attributedict
  | methoddict
  | methodnames

/-- The answer to an operation that is not refused. -/
inductive DraftAnswer where
  | done
  /-- The slot of the method. -/
  | slot (index : Nat)
  | attributes (entries : List (String × AttributeType))
  | methods (entries : List (String × MethodSlot))
  | names (methods : List String)
deriving DecidableEq, Repr

namespace DraftOperation

/-- The name of the operation, by which it reports that a table is missing. -/
def name : DraftOperation σ → String
  | setAttributes .. => "set_attributes"
  | setDispatch _ => "set_dispatch_table"
  | addMethod _ => "add_method"
  | attributes => "attributes"
  | attributedict => "attributedict"
  | methoddict => "methoddict"
  | methodnames => "methodnames"

/-- The table to which the operation is handed on. -/
def target? : DraftOperation σ → Option TableKind
  | attributes | attributedict => some .attributes
  | addMethod _ | methoddict | methodnames => some .methods
  | setAttributes .. | setDispatch _ => none

/-- Does what is asked of a draft in place. -/
def perform (note : PlacedField → LayoutM σ Unit) :
    DraftOperation σ → LayoutM (Draft × σ) DraftAnswer
  | setAttributes table env => do
    Draft.setAttributesInPlace table env note
    return .done
  | setDispatch table => do
    LayoutM.onFirst (modify fun draft => draft.setDispatch table)
    return .done
  | addMethod method => do
    let placement ← LayoutM.onFirst (Draft.addMethodInPlace method)
    return .slot placement.slot
  | attributes => do return .attributes (← (← get).1.attributeList "attributes")
  | attributedict => do return .attributes (← (← get).1.attributeList "attributedict")
  | methoddict => do return .methods (← (← get).1.methodList "methoddict")
  | methodnames => do return .names ((← (← get).1.methodList "methodnames").map Prod.fst)

end DraftOperation

/-- The answer to an operation that is handed on to a dispatch table. -/
def DraftOperation.reply (operation : DraftOperation σ) (table : DispatchTable) :
    Except LayoutError DraftAnswer :=
  match operation with
  | .addMethod method => (table.addMethod method).map fun placed => .slot placed.2.slot
  | .methoddict => .ok (.methods table.toList)
  | _ => .ok (.names table.names)

/-! ## One operation -/

/-- The ways in which an operation on a draft can end: its answer and the draft that it leaves. -/
inductive DraftStep (draft : Draft) :
    DraftOperation σ → Except LayoutError DraftAnswer → Draft → Prop where
  /-- The attributes have their places. -/
  | laidOut {table : AttributeTable} {env : TypeEnv σ} (segment : Segment) (size : Nat)
      (hkeys : table.names.Nodup → segment.symbols.keys = table.names) :
      DraftStep draft (.setAttributes table env) (.ok .done) (draft.laidOut table segment size)
  /-- The attributes cannot be laid out. -/
  | attributesRefused {table : AttributeTable} {env : TypeEnv σ} (error : LayoutError) :
      DraftStep draft (.setAttributes table env) (.error error) draft
  | dispatchSet (table : DispatchTable) :
      DraftStep draft (.setDispatch table) (.ok .done) (draft.setDispatch table)
  /-- The table has taken the method. -/
  | methodPlaced {table next : DispatchTable} {method : MethodDecl} {placement : Placement}
      (hcontent : draft.dispatch.content = some table)
      (hplaced : table.addMethod method = .ok (next, placement)) :
      DraftStep draft (.addMethod method) (.ok (.slot placement.slot)) (draft.setDispatch next)
  /-- The table has not taken the method. -/
  | methodRefused {table : DispatchTable} {method : MethodDecl} {error : LayoutError}
      (hcontent : draft.dispatch.content = some table)
      (hrefused : table.addMethod method = .error error) :
      DraftStep draft (.addMethod method) (.error error) draft
  /-- There are no attributes yet. -/
  | attributesMissing {operation : DraftOperation σ}
      (htarget : operation.target? = some .attributes)
      (hcontent : draft.attributes.content = none) :
      DraftStep draft operation
        (.error (.uninitializedState draft.id draft.attributes.table operation.name)) draft
  /-- There are no methods yet. -/
  | methodsMissing {operation : DraftOperation σ} (htarget : operation.target? = some .methods)
      (hcontent : draft.dispatch.content = none) :
      DraftStep draft operation
        (.error (.uninitializedState draft.id draft.dispatch.table operation.name)) draft
  | attributesRead {operation : DraftOperation σ} {table : AttributeTable}
      (htarget : operation.target? = some .attributes)
      (hcontent : draft.attributes.content = some table) :
      DraftStep draft operation (.ok (.attributes table.toList)) draft
  | methodsRead {table : DispatchTable} (hcontent : draft.dispatch.content = some table) :
      DraftStep draft .methoddict (.ok (.methods table.toList)) draft
  | namesRead {table : DispatchTable} (hcontent : draft.dispatch.content = some table) :
      DraftStep draft .methodnames (.ok (.names table.names)) draft

namespace DraftStep

variable {draft later : Draft} {operation : DraftOperation σ}
  {answer : Except LayoutError DraftAnswer}

/-- An operation that is refused leaves the draft. -/
theorem eq_of_error (h : DraftStep draft operation answer later) {error : LayoutError}
    (herror : answer = .error error) : later = draft := by
  cases h with
  | laidOut => cases herror
  | dispatchSet => cases herror
  | methodPlaced => cases herror
  | _ => rfl

/-- An operation that reads the attributes answers them, or that they are missing. -/
theorem answer_of_attributes (h : DraftStep draft operation answer later)
    (htarget : operation.target? = some .attributes) :
    answer = (draft.attributes.get draft.id operation.name).map fun table =>
      .attributes table.toList := by
  cases h with
  | attributesMissing _ hcontent => rw [Attachment.get_of_none hcontent]; rfl
  | attributesRead _ hcontent => rw [Attachment.get_of_some hcontent]; rfl
  | methodsMissing hother =>
    rw [hother] at htarget
    cases htarget
  | _ => cases htarget

/-- An operation on the methods answers as the dispatch table does, or that it is missing. -/
theorem answer_of_methods (h : DraftStep draft operation answer later)
    (htarget : operation.target? = some .methods) :
    answer = draft.dispatch.get draft.id operation.name >>= operation.reply := by
  cases h with
  | methodsMissing _ hcontent => rw [Attachment.get_of_none hcontent]; rfl
  | methodsRead hcontent => rw [Attachment.get_of_some hcontent]; rfl
  | namesRead hcontent => rw [Attachment.get_of_some hcontent]; rfl
  | @methodPlaced table _ method _ hcontent hplaced =>
    rw [Attachment.get_of_some hcontent]
    show _ = (table.addMethod method).map _
    rw [hplaced]
    rfl
  | @methodRefused table method _ hcontent hrefused =>
    rw [Attachment.get_of_some hcontent]
    show _ = (table.addMethod method).map _
    rw [hrefused]
    rfl
  | attributesMissing hother =>
    rw [hother] at htarget
    cases htarget
  | attributesRead hother =>
    rw [hother] at htarget
    cases htarget
  | _ => cases htarget

end DraftStep

namespace Draft

variable {draft : Draft} {env : TypeEnv σ} {note : PlacedField → LayoutM σ Unit} {s : σ}

/-- A field that is placed adds its name to the symbols. -/
theorem exists_insert_of_placeField {segment next : Segment} {name : String} {type : AttributeType}
    (h : ((draft.placeField env note segment name type).exec s).1 = .ok next) :
    ∃ v, next.symbols = segment.symbols.insert name v := by
  unfold placeField at h
  cases hinherited : draft.inherited? name with
  | some v =>
    rw [hinherited] at h
    cases h
    exact ⟨v, rfl⟩
  | none =>
    rw [hinherited] at h
    obtain ⟨field, _, -, h⟩ := exists_exec_of_bind h
    obtain ⟨start, _, -, h⟩ := exists_exec_of_bind h
    obtain ⟨_, _, -, h⟩ := exists_exec_of_bind h
    obtain ⟨stop, _, -, h⟩ := exists_exec_of_bind h
    cases h
    exact ⟨_, rfl⟩

/-- Every attribute gets a place, in the order of the attributes. -/
theorem keys_of_placeFields {segment last : Segment} {entries : List (String × AttributeType)}
    (h : ((draft.placeFields env note segment entries).exec s).1 = .ok last)
    (hnodup : (segment.symbols.keys ++ entries.map Prod.fst).Nodup) :
    last.symbols.keys = segment.symbols.keys ++ entries.map Prod.fst := by
  induction entries generalizing segment s with
  | nil =>
    cases h
    exact (List.append_nil _).symm
  | cons entry rest ih =>
    obtain ⟨name, type⟩ := entry
    obtain ⟨next, t, hfirst, h⟩ := exists_exec_of_bind h
    obtain ⟨v, hv⟩ := exists_insert_of_placeField (congrArg Prod.fst hfirst)
    have hnew : segment.symbols.get? name = none :=
      OrderedMap.get?_eq_none_iff.2 fun hmem =>
        (List.nodup_append.1 hnodup).2.2 name hmem name List.mem_cons_self rfl
    have hkeys : next.symbols.keys = segment.symbols.keys ++ [name] := by
      rw [hv, OrderedMap.keys_insert_of_none hnew]
    have hsplit : segment.symbols.keys ++ ((name, type) :: rest).map Prod.fst =
        next.symbols.keys ++ rest.map Prod.fst := by
      rw [hkeys, List.append_assoc]
      rfl
    rw [hsplit] at hnodup ⊢
    exact ih h hnodup

end Draft

namespace DraftOperation

variable {draft : Draft} {note : PlacedField → LayoutM σ Unit}

/-- Reading a draft does not change it. -/
theorem exec_read {α β : Type} (read : Draft → Except LayoutError α) (shown : α → β) (draft : Draft)
    (s : σ) :
    LayoutM.exec (do return shown (← read (← get).1) : LayoutM (Draft × σ) β) (draft, s) =
      ((read draft).map shown, (draft, s)) := by
  rw [LayoutM.exec_bind, LayoutM.exec_get]
  dsimp only
  rw [LayoutM.exec_bind, LayoutM.exec_liftM]
  cases read draft <;> rfl

/-- Reading the attributes is a step that leaves the draft. -/
theorem attributeList_step {operation : DraftOperation σ}
    (htarget : operation.target? = some .attributes) :
    DraftStep draft operation
      ((draft.attributeList operation.name).map DraftAnswer.attributes) draft := by
  unfold Draft.attributeList
  cases hcontent : draft.attributes.content with
  | none =>
    rw [Attachment.get_of_none hcontent]
    exact .attributesMissing htarget hcontent
  | some table =>
    rw [Attachment.get_of_some hcontent]
    exact .attributesRead htarget hcontent

/-- Reading the methods is a step that leaves the draft. -/
theorem methodList_step {operation : DraftOperation σ} {answer : List (String × MethodSlot) →
    DraftAnswer} (htarget : operation.target? = some .methods)
    (hread : ∀ table, draft.dispatch.content = some table →
      DraftStep draft operation (.ok (answer table.toList)) draft) :
    DraftStep draft operation ((draft.methodList operation.name).map answer) draft := by
  unfold Draft.methodList
  cases hcontent : draft.dispatch.content with
  | none =>
    rw [Attachment.get_of_none hcontent]
    exact .methodsMissing htarget hcontent
  | some table =>
    rw [Attachment.get_of_some hcontent]
    exact hread table hcontent

/-- Every operation ends in one of the ways of `DraftStep`. -/
theorem perform_step (note : PlacedField → LayoutM σ Unit) (operation : DraftOperation σ)
    (draft : Draft) (s : σ) :
    DraftStep draft operation ((operation.perform note).exec (draft, s)).1
      ((operation.perform note).exec (draft, s)).2.1 := by
  cases operation with
  | setAttributes table env =>
    unfold perform
    rw [LayoutM.exec_bind, Draft.exec_setAttributesInPlace]
    rcases hrun : (draft.setAttributes table env note).exec s with ⟨answer, t⟩
    cases answer with
    | error error => exact .attributesRefused error
    | ok attached =>
      obtain ⟨segment, size, hsegment, -, rfl⟩ := Draft.exists_laidOut (congrArg Prod.fst hrun)
      exact .laidOut segment size fun hnodup => Draft.keys_of_placeFields hsegment hnodup
  | setDispatch table => exact .dispatchSet table
  | addMethod method =>
    unfold perform
    rw [LayoutM.exec_bind, LayoutM.exec_onFirst, Draft.exec_addMethodInPlace]
    cases hcontent : draft.dispatch.content with
    | none =>
      unfold Draft.addMethod
      rw [Attachment.get_of_none hcontent]
      exact .methodsMissing rfl hcontent
    | some table =>
      rw [Draft.addMethod_of_content hcontent]
      cases hplaced : table.addMethod method with
      | error error => exact .methodRefused hcontent hplaced
      | ok placed => exact .methodPlaced hcontent hplaced
  | attributes =>
    unfold perform
    rw [exec_read (fun draft => draft.attributeList "attributes")]
    exact attributeList_step rfl
  | attributedict =>
    unfold perform
    rw [exec_read (fun draft => draft.attributeList "attributedict")]
    exact attributeList_step rfl
  | methoddict =>
    unfold perform
    rw [exec_read (fun draft => draft.methodList "methoddict")]
    exact methodList_step rfl fun table hcontent => .methodsRead hcontent
  | methodnames =>
    unfold perform
    rw [exec_read (fun draft => draft.methodList "methodnames")
      (fun methods => DraftAnswer.names (methods.map Prod.fst))]
    exact methodList_step rfl fun table hcontent => .namesRead hcontent

end DraftOperation

/-! ## A session -/

/-- An operation with its answer, and the draft before and after it. -/
structure Exchange (σ : Type) where
  operation : DraftOperation σ
  answer : Except LayoutError DraftAnswer
  earlier : Draft
  later : Draft

/-- Does one operation after another, whatever their answers are. The result is what was exchanged
and the draft that is left. -/
def session (note : PlacedField → LayoutM σ Unit) :
    List (DraftOperation σ) → Draft × σ → List (Exchange σ) × Draft
  | [], state => ([], state.1)
  | operation :: rest, state =>
    let run := (operation.perform note).exec state
    let following := session note rest run.2
    ({ operation, answer := run.1, earlier := state.1, later := run.2.1 } :: following.1,
      following.2)

namespace Exchange

/-- A table of attributes was attached. -/
def AttachesAttributes (e : Exchange σ) : Prop :=
  (∃ table env, e.operation = .setAttributes table env) ∧ ∃ answer, e.answer = .ok answer

/-- A dispatch table was attached. -/
def AttachesDispatch (e : Exchange σ) : Prop := ∃ table, e.operation = .setDispatch table

/-- The attributes that a draft shows after an exchange. -/
def attributesAfter (shown : Option AttributeTable) (e : Exchange σ) : Option AttributeTable :=
  match e.operation, e.answer with
  | .setAttributes table _, .ok _ => some table
  | _, _ => shown

/-- The methods that a draft shows after an exchange. -/
def methodsAfter (shown : Option DispatchTable) (e : Exchange σ) : Option DispatchTable :=
  match e.operation with
  | .setDispatch table => some table
  | .addMethod method =>
    shown.map fun table => ((table.addMethod method).toOption.map Prod.fst).getD table
  | _ => shown

end Exchange

/-- The attributes attached last. -/
def attributesShown (exchanges : List (Exchange σ)) : Option AttributeTable :=
  exchanges.foldl Exchange.attributesAfter none

/-- The dispatch table attached last, with the methods that it has taken since. -/
def methodsShown (exchanges : List (Exchange σ)) : Option DispatchTable :=
  exchanges.foldl Exchange.methodsAfter none

/-- What a draft keeps for good. -/
structure SameFrame (start draft : Draft) : Prop where
  id_eq : draft.id = start.id
  parent_eq : draft.parent = start.parent
  attrOffset_eq : draft.attrOffset = start.attrOffset
  vtabOffset_eq : draft.vtabOffset = start.vtabOffset
  /-- The slots are not counted before the draft is frozen. -/
  slotCount_eq : draft.slotCount = start.slotCount

/-- A draft is what the exchanges so far have made of it. -/
structure Accounts (start : Draft) (exchanges : List (Exchange σ)) (draft : Draft) : Prop where
  frame : SameFrame start draft
  attributes_eq : draft.attributes = { table := .attributes, content := attributesShown exchanges }
  dispatch_eq : draft.dispatch = { table := .methods, content := methodsShown exchanges }
  keys_eq : ∀ table, attributesShown exchanges = some table → table.names.Nodup →
    draft.symbols.keys = table.names

/-- A draft that is new is accounted for by no exchange. -/
theorem Accounts.ofDecl (decl : ClassDecl) (parent : Option Descriptor) (config : LayoutConfig) :
    Accounts (Draft.ofDecl decl parent config) ([] : List (Exchange σ))
      (Draft.ofDecl decl parent config) where
  frame := ⟨rfl, rfl, rfl, rfl, rfl⟩
  attributes_eq := rfl
  dispatch_eq := rfl
  keys_eq := fun _ h => nomatch h

variable {start draft : Draft} {exchanges : List (Exchange σ)} {e : Exchange σ}

/-- The last exchange decides which attributes are shown. -/
theorem attributesShown_concat (exchanges : List (Exchange σ)) (e : Exchange σ) :
    attributesShown (exchanges ++ [e]) = e.attributesAfter (attributesShown exchanges) := by
  unfold attributesShown
  rw [List.foldl_append]
  rfl

/-- The last exchange decides which methods are shown. -/
theorem methodsShown_concat (exchanges : List (Exchange σ)) (e : Exchange σ) :
    methodsShown (exchanges ++ [e]) = e.methodsAfter (methodsShown exchanges) := by
  unfold methodsShown
  rw [List.foldl_append]
  rfl

/-- The dispatch table of a draft is the one that the exchanges show. -/
theorem Accounts.dispatch_content (h : Accounts start exchanges draft) :
    draft.dispatch.content = methodsShown exchanges := by
  rw [h.dispatch_eq]

/-- An exchange that shows nothing new leaves the draft as it was. -/
theorem Accounts.same (h : Accounts start exchanges draft)
    (hattributes : e.attributesAfter (attributesShown exchanges) = attributesShown exchanges)
    (hmethods : e.methodsAfter (methodsShown exchanges) = methodsShown exchanges) :
    Accounts start (exchanges ++ [e]) draft where
  frame := h.frame
  attributes_eq := by rw [attributesShown_concat, hattributes, h.attributes_eq]
  dispatch_eq := by rw [methodsShown_concat, hmethods, h.dispatch_eq]
  keys_eq := by
    rw [attributesShown_concat, hattributes]
    exact h.keys_eq

/-- An operation that is handed on to a table attaches no attributes. -/
theorem Exchange.attributesAfter_of_target {kind : TableKind}
    (htarget : e.operation.target? = some kind) (shown : Option AttributeTable) :
    e.attributesAfter shown = shown := by
  obtain ⟨operation, answer, earlier, later⟩ := e
  cases operation with
  | setAttributes table env => cases htarget
  | _ => rfl

/-- What is handed on to the attributes, or to a dispatch table that is missing, shows no other
methods. -/
theorem Exchange.methodsAfter_of_target {shown : Option DispatchTable} {kind : TableKind}
    (htarget : e.operation.target? = some kind) (h : kind = .attributes ∨ shown = none) :
    e.methodsAfter shown = shown := by
  obtain ⟨operation, answer, earlier, later⟩ := e
  cases operation with
  | setDispatch table => cases htarget
  | addMethod method =>
    cases htarget
    obtain ⟨⟨⟩⟩ | rfl := h
    rfl
  | _ => rfl

/-- What a draft is made of after an operation is told by the exchanges up to it. -/
theorem Accounts.step (h : Accounts start exchanges e.earlier)
    (hstep : DraftStep e.earlier e.operation e.answer e.later) :
    Accounts start (exchanges ++ [e]) e.later := by
  obtain ⟨operation, answer, earlier, later⟩ := e
  dsimp only at h hstep ⊢
  cases hstep with
  | laidOut segment size hkeys =>
    constructor
    · exact ⟨h.frame.id_eq, h.frame.parent_eq, h.frame.attrOffset_eq, h.frame.vtabOffset_eq,
        h.frame.slotCount_eq⟩
    · rw [attributesShown_concat]
      show earlier.attributes.set _ = _
      rw [h.attributes_eq]
      rfl
    · rw [methodsShown_concat]
      exact h.dispatch_eq
    · intro table hshown hnodup
      rw [attributesShown_concat] at hshown
      cases hshown
      exact hkeys hnodup
  | attributesRefused error => exact h.same rfl rfl
  | dispatchSet table =>
    constructor
    · exact ⟨h.frame.id_eq, h.frame.parent_eq, h.frame.attrOffset_eq, h.frame.vtabOffset_eq,
        h.frame.slotCount_eq⟩
    · rw [attributesShown_concat]
      exact h.attributes_eq
    · rw [methodsShown_concat]
      show earlier.dispatch.set _ = _
      rw [h.dispatch_eq]
      rfl
    · rw [attributesShown_concat]
      exact h.keys_eq
  | @methodPlaced table next method placement hcontent hplaced =>
    have hshown := h.dispatch_content.symm.trans hcontent
    constructor
    · exact ⟨h.frame.id_eq, h.frame.parent_eq, h.frame.attrOffset_eq, h.frame.vtabOffset_eq,
        h.frame.slotCount_eq⟩
    · rw [attributesShown_concat]
      exact h.attributes_eq
    · rw [methodsShown_concat, hshown]
      show earlier.dispatch.set _ = _
      simp only [Exchange.methodsAfter, Option.map_some, hplaced, h.dispatch_eq, Attachment.set,
        Except.toOption, Option.getD_some]
    · rw [attributesShown_concat]
      exact h.keys_eq
  | @methodRefused table method error hcontent hrefused =>
    have hshown := h.dispatch_content.symm.trans hcontent
    apply h.same rfl
    rw [hshown]
    simp only [Exchange.methodsAfter, Option.map_some, hrefused, Except.toOption, Option.map_none,
      Option.getD_none]
  | attributesMissing htarget hcontent =>
    exact h.same (Exchange.attributesAfter_of_target htarget _)
      (Exchange.methodsAfter_of_target htarget (.inl rfl))
  | methodsMissing htarget hcontent =>
    exact h.same (Exchange.attributesAfter_of_target htarget _)
      (Exchange.methodsAfter_of_target htarget (.inr (h.dispatch_content.symm.trans hcontent)))
  | attributesRead htarget hcontent =>
    exact h.same (Exchange.attributesAfter_of_target htarget _)
      (Exchange.methodsAfter_of_target htarget (.inl rfl))
  | methodsRead hcontent => exact h.same rfl rfl
  | namesRead hcontent => exact h.same rfl rfl

/-- Every exchange of a session is a step from what the exchanges before it have made. -/
theorem Accounts.exchange {note : PlacedField → LayoutM σ Unit}
    {operations : List (DraftOperation σ)} (state : Draft × σ) {before after : List (Exchange σ)}
    (h : Accounts start exchanges state.1)
    (hsession : (session note operations state).1 = before ++ e :: after) :
    Accounts start (exchanges ++ before) e.earlier ∧
      DraftStep e.earlier e.operation e.answer e.later := by
  induction operations generalizing exchanges state before with
  | nil => simp [session] at hsession
  | cons operation rest ih =>
    have hstep := operation.perform_step note state.1 state.2
    cases before with
    | nil =>
      obtain ⟨rfl, -⟩ := List.cons.inj hsession
      rw [List.append_nil]
      exact ⟨h, hstep⟩
    | cons first before =>
      obtain ⟨rfl, hrest⟩ := List.cons.inj hsession
      have hnext := ih _ (h.step (e := { operation, answer := _, earlier := _, later := _ }) hstep)
        hrest
      rw [List.append_assoc] at hnext
      exact hnext

/-- A draft is accounted for by what was exchanged up to the end of a session. -/
theorem Accounts.last {note : PlacedField → LayoutM σ Unit} {operations : List (DraftOperation σ)}
    (state : Draft × σ) (h : Accounts start exchanges state.1) :
    Accounts start (exchanges ++ (session note operations state).1)
      (session note operations state).2 := by
  induction operations generalizing exchanges state with
  | nil =>
    rw [session, List.append_nil]
    exact h
  | cons operation rest ih =>
    have hstep := operation.perform_step note state.1 state.2
    have hnext := ih _ (h.step (e := { operation, answer := _, earlier := _, later := _ }) hstep)
    rw [List.append_assoc] at hnext
    exact hnext

/-! ## What a session shows -/

/-- A fold over options has a value if it had one or an item gives one. -/
theorem isSome_foldl {α β : Type} {f : Option α → β → Option α} {P : β → Prop}
    (h : ∀ a b, (f a b).isSome ↔ a.isSome ∨ P b) (l : List β) (a : Option α) :
    (l.foldl f a).isSome ↔ a.isSome ∨ ∃ b ∈ l, P b := by
  induction l generalizing a with
  | nil => simp
  | cons b rest ih =>
    simp only [List.foldl_cons, ih, h, List.mem_cons, exists_eq_or_imp, or_assoc]

/-- Attributes are shown exactly if a table of attributes was attached. -/
theorem isSome_attributesShown_iff (exchanges : List (Exchange σ)) :
    (attributesShown exchanges).isSome ↔ ∃ e ∈ exchanges, e.AttachesAttributes := by
  have hstep : ∀ (shown : Option AttributeTable) (e : Exchange σ),
      (e.attributesAfter shown).isSome ↔ shown.isSome ∨ e.AttachesAttributes := by
    rintro shown ⟨operation, answer, earlier, later⟩
    cases operation with
    | setAttributes table env => cases answer <;> simp [Exchange.attributesAfter,
        Exchange.AttachesAttributes]
    | _ => simp [Exchange.attributesAfter, Exchange.AttachesAttributes]
  refine (isSome_foldl hstep exchanges none).trans ?_
  simp

/-- Methods are shown exactly if a dispatch table was attached. -/
theorem isSome_methodsShown_iff (exchanges : List (Exchange σ)) :
    (methodsShown exchanges).isSome ↔ ∃ e ∈ exchanges, e.AttachesDispatch := by
  have hstep : ∀ (shown : Option DispatchTable) (e : Exchange σ),
      (e.methodsAfter shown).isSome ↔ shown.isSome ∨ e.AttachesDispatch := by
    rintro shown ⟨operation, answer, earlier, later⟩
    cases operation <;> simp [Exchange.methodsAfter, Exchange.AttachesDispatch]
  refine (isSome_foldl hstep exchanges none).trans ?_
  simp

/-- A descriptor is that of a draft after a session. -/
structure Shows (start : Draft) (exchanges : List (Exchange σ)) (last : Draft) (d : Descriptor) :
    Prop where
  attributes_eq : attributesShown exchanges = some d.attributes
  dispatch_eq : methodsShown exchanges = some d.dispatch
  /-- The tables are those that could be read from the draft. -/
  attributes_read : ∀ operation, last.attributeList operation = .ok d.attributes.toList
  methods_read : ∀ operation, last.methodList operation = .ok d.dispatch.toList
  /-- The slots are counted when the draft is frozen, whatever it held until then. -/
  slotCount_eq : d.slotCount = d.dispatch.names.length
  /-- Every attribute has a place, if the names are different, as declarations make them. -/
  keys_eq : d.attributes.names.Nodup → d.symbols.keys = d.attributes.names
  id_eq : d.id = start.id
  parent_eq : d.parent? = start.parent
  attrOffset_eq : d.attrOffset = start.attrOffset
  vtabOffset_eq : d.vtabOffset = start.vtabOffset

/-- What can be relied on in an exchange that comes after others. -/
structure Exchange.Fits (start : Draft) (before : List (Exchange σ)) (e : Exchange σ) : Prop where
  /-- Reading the attributes is refused as long as none have been attached. -/
  attributes_iff : e.operation.target? = some .attributes →
    ((∃ error, e.answer = .error error) ↔ ¬ ∃ f ∈ before, f.AttachesAttributes)
  attributes_error : e.operation.target? = some .attributes → ∀ error, e.answer = .error error →
    error = .uninitializedState start.id .attributes e.operation.name
  attributes_read : e.operation.target? = some .attributes → ∀ table,
    attributesShown before = some table → e.answer = .ok (.attributes table.toList)
  /-- The methods are missed as long as no dispatch table has been attached. -/
  methods_iff : e.operation.target? = some .methods →
    ((∃ cls table operation, e.answer = .error (.uninitializedState cls table operation)) ↔
      ¬ ∃ f ∈ before, f.AttachesDispatch)
  methods_error : e.operation.target? = some .methods → ∀ cls table operation,
    e.answer = .error (.uninitializedState cls table operation) →
    cls = start.id ∧ table = .methods ∧ operation = e.operation.name
  methods_read : e.operation.target? = some .methods → ∀ table,
    methodsShown before = some table →
    e.answer = e.operation.reply table
  /-- Whatever is refused leaves the draft as it was. -/
  refused : ∀ error, e.answer = .error error → e.later = e.earlier
  frame : SameFrame start e.earlier ∧ SameFrame start e.later

/-- What can be relied on in a session. -/
structure Conversation (start : Draft) (exchanges : List (Exchange σ)) (last : Draft) : Prop where
  fits : ∀ before e after, exchanges = before ++ e :: after → e.Fits start before
  frame : SameFrame start last
  /-- The draft can be frozen when both tables are attached. -/
  freeze_iff : (∃ d, last.freeze = .ok d) ↔
    (∃ e ∈ exchanges, e.AttachesAttributes) ∧ ∃ e ∈ exchanges, e.AttachesDispatch
  /-- The attributes are missed first. -/
  freeze_error : ∀ error, last.freeze = .error error →
    error = .uninitializedState start.id .attributes "freeze" ∧
      (¬ ∃ e ∈ exchanges, e.AttachesAttributes) ∨
    error = .uninitializedState start.id .methods "freeze" ∧
      ∃ e ∈ exchanges, e.AttachesAttributes
  shows : ∀ d, last.freeze = .ok d → Shows start exchanges last d

/-- Declaring a method misses no table. -/
theorem DispatchTable.addMethod_ne_uninitialized {t : DispatchTable} {method : MethodDecl}
    {cls : ClassId} {table : TableKind} {operation : String} :
    t.addMethod method ≠ .error (.uninitializedState cls table operation) := by
  intro h
  unfold addMethod at h
  grind

/-- The attributes that an operation gets are those that are shown. -/
theorem Accounts.get_attributes (h : Accounts start exchanges draft) (operation : String) :
    draft.attributes.get draft.id operation = (attributesShown exchanges).elim
      (.error (.uninitializedState start.id .attributes operation)) .ok := by
  rw [h.attributes_eq, h.frame.id_eq]
  unfold Attachment.get
  cases attributesShown exchanges <;> rfl

/-- The dispatch table that an operation gets is the one that is shown. -/
theorem Accounts.get_dispatch (h : Accounts start exchanges draft) (operation : String) :
    draft.dispatch.get draft.id operation = (methodsShown exchanges).elim
      (.error (.uninitializedState start.id .methods operation)) .ok := by
  rw [h.dispatch_eq, h.frame.id_eq]
  unfold Attachment.get
  cases methodsShown exchanges <;> rfl

/-- An operation that reads the attributes answers those that are shown. -/
theorem Accounts.answer_attributes (h : Accounts start exchanges e.earlier)
    (hstep : DraftStep e.earlier e.operation e.answer e.later)
    (htarget : e.operation.target? = some .attributes) :
    e.answer = (attributesShown exchanges).elim
      (.error (.uninitializedState start.id .attributes e.operation.name))
      fun table => .ok (.attributes table.toList) := by
  rw [hstep.answer_of_attributes htarget, h.get_attributes]
  cases attributesShown exchanges <;> rfl

/-- An operation on the methods answers as the dispatch table that is shown does. -/
theorem Accounts.answer_methods (h : Accounts start exchanges e.earlier)
    (hstep : DraftStep e.earlier e.operation e.answer e.later)
    (htarget : e.operation.target? = some .methods) :
    e.answer = (methodsShown exchanges).elim
      (.error (.uninitializedState start.id .methods e.operation.name)) e.operation.reply := by
  rw [hstep.answer_of_methods htarget, h.get_dispatch]
  cases methodsShown exchanges <;> rfl

/-- A dispatch table never answers that it is missing. -/
theorem reply_ne_uninitialized {operation : DraftOperation σ} {t : DispatchTable} {cls : ClassId}
    {table : TableKind} {name : String} :
    operation.reply t ≠ .error (.uninitializedState cls table name) := by
  intro h
  cases operation with
  | addMethod method =>
    exact DispatchTable.addMethod_ne_uninitialized (LayoutM.eq_error_of_map h)
  | _ => cases h

/-- What is exchanged with a draft that is accounted for can be relied on. -/
theorem Accounts.fits (h : Accounts start exchanges e.earlier)
    (hstep : DraftStep e.earlier e.operation e.answer e.later) : e.Fits start exchanges where
  attributes_iff htarget := by
    rw [h.answer_attributes hstep htarget, ← isSome_attributesShown_iff]
    cases attributesShown exchanges <;> simp
  attributes_error htarget error := by
    rw [h.answer_attributes hstep htarget]
    cases attributesShown exchanges with
    | none => exact fun herror => (Except.error.inj herror).symm
    | some table => exact fun herror => nomatch herror
  attributes_read htarget table hshown := by
    rw [h.answer_attributes hstep htarget, hshown]
    rfl
  methods_iff htarget := by
    rw [h.answer_methods hstep htarget, ← isSome_methodsShown_iff]
    cases methodsShown exchanges with
    | none => simp
    | some table => simp [reply_ne_uninitialized]
  methods_error htarget cls kind name := by
    rw [h.answer_methods hstep htarget]
    cases methodsShown exchanges with
    | none =>
      intro herror
      cases herror
      exact ⟨rfl, rfl, rfl⟩
    | some table => exact fun herror => absurd herror reply_ne_uninitialized
  methods_read htarget table hshown := by
    rw [h.answer_methods hstep htarget, hshown]
    rfl
  refused error herror := hstep.eq_of_error herror
  frame := ⟨h.frame, (h.step hstep).frame⟩

/-! ## Freezing -/

/-- The descriptor that a draft becomes with these tables. -/
def Draft.frozen (draft : Draft) (attributes : AttributeTable) (dispatch : DispatchTable) :
    Descriptor where
  id := draft.id
  kind := draft.kind
  attributes := attributes
  dispatch := dispatch
  symbols := draft.symbols
  vtabOffset := draft.vtabOffset
  attrOffset := draft.attrOffset
  ownSlotsOffset := draft.ownSlotsOffset
  size := draft.size
  alignment := draft.alignment
  slotCount := dispatch.slotCount
  pointerSize := draft.pointerSize
  vtableHeaderSize := draft.vtableHeaderSize
  ancestors := draft.parent.elim [] Descriptor.chain

/-- A draft is frozen with both of its tables, and is refused where one is missing. -/
theorem Draft.freeze_eq (draft : Draft) :
    draft.freeze = draft.attributes.get draft.id "freeze" >>= fun attributes =>
      draft.dispatch.get draft.id "freeze" >>= fun dispatch =>
        .ok (draft.frozen attributes dispatch) := rfl

/-- A draft is frozen with the tables that are shown. -/
theorem Accounts.freeze_eq (h : Accounts start exchanges draft) :
    draft.freeze =
      (attributesShown exchanges).elim
        (.error (.uninitializedState start.id .attributes "freeze")) fun attributes =>
      (methodsShown exchanges).elim
        (.error (.uninitializedState start.id .methods "freeze")) fun dispatch =>
      .ok (draft.frozen attributes dispatch) := by
  rw [draft.freeze_eq, h.get_attributes, h.get_dispatch]
  cases attributesShown exchanges <;> cases methodsShown exchanges <;> rfl

/-- A draft can be frozen exactly if both tables have been attached. -/
theorem Accounts.exists_freeze_iff (h : Accounts start exchanges draft) :
    (∃ d, draft.freeze = .ok d) ↔
      (∃ e ∈ exchanges, e.AttachesAttributes) ∧ ∃ e ∈ exchanges, e.AttachesDispatch := by
  rw [h.freeze_eq, ← isSome_attributesShown_iff, ← isSome_methodsShown_iff]
  cases attributesShown _ <;> cases methodsShown _ <;> simp

/-- A draft that is refused misses a table, the attributes first. -/
theorem Accounts.of_freeze_eq_error (h : Accounts start exchanges draft) {error : LayoutError}
    (herror : draft.freeze = .error error) :
    error = .uninitializedState start.id .attributes "freeze" ∧
      (¬ ∃ e ∈ exchanges, e.AttachesAttributes) ∨
    error = .uninitializedState start.id .methods "freeze" ∧
      ∃ e ∈ exchanges, e.AttachesAttributes := by
  rw [h.freeze_eq] at herror
  rw [← isSome_attributesShown_iff]
  cases hattributes : attributesShown exchanges with
  | none =>
    rw [hattributes] at herror
    cases herror
    exact .inl ⟨rfl, by simp⟩
  | some attributes =>
    cases hmethods : methodsShown exchanges with
    | none =>
      rw [hattributes, hmethods] at herror
      cases herror
      exact .inr ⟨rfl, rfl⟩
    | some dispatch =>
      rw [hattributes, hmethods] at herror
      cases herror

/-- The descriptor of a draft that is accounted for shows what was exchanged. -/
theorem Accounts.shows (h : Accounts start exchanges draft) {d : Descriptor}
    (hfreeze : draft.freeze = .ok d) : Shows start exchanges draft d := by
  rw [h.freeze_eq] at hfreeze
  cases hattributes : attributesShown exchanges with
  | none =>
    rw [hattributes] at hfreeze
    cases hfreeze
  | some attributes =>
    cases hmethods : methodsShown exchanges with
    | none =>
      rw [hattributes, hmethods] at hfreeze
      cases hfreeze
    | some dispatch =>
      rw [hattributes, hmethods] at hfreeze
      cases hfreeze
      constructor
      · exact hattributes
      · exact hmethods
      · intro operation
        unfold Draft.attributeList
        rw [h.get_attributes, hattributes]
        rfl
      · intro operation
        unfold Draft.methodList
        rw [h.get_dispatch, hmethods]
        rfl
      · exact (List.length_map _).symm
      · exact h.keys_eq attributes hattributes
      · exact h.frame.id_eq
      · show Descriptor.parent? _ = start.parent
        rw [← h.frame.parent_eq]
        unfold Draft.frozen Descriptor.parent?
        cases draft.parent <;> rfl
      · exact h.frame.attrOffset_eq
      · exact h.frame.vtabOffset_eq

/-- However a draft is worked on, it can be relied on as `Conversation` says. -/
theorem conversation (decl : ClassDecl) (parent : Option Descriptor) (config : LayoutConfig)
    (note : PlacedField → LayoutM σ Unit) (operations : List (DraftOperation σ)) (s : σ) :
    Conversation (Draft.ofDecl decl parent config)
      (session note operations (Draft.ofDecl decl parent config, s)).1
      (session note operations (Draft.ofDecl decl parent config, s)).2 := by
  have hstart : Accounts (Draft.ofDecl decl parent config) ([] : List (Exchange σ))
      (Draft.ofDecl decl parent config) := .ofDecl decl parent config
  have hlast : Accounts (Draft.ofDecl decl parent config)
      (session note operations (Draft.ofDecl decl parent config, s)).1
      (session note operations (Draft.ofDecl decl parent config, s)).2 :=
    Accounts.last (Draft.ofDecl decl parent config, s) hstart
  constructor
  · intro before e after hsession
    obtain ⟨haccounts, hstep⟩ :=
      Accounts.exchange (Draft.ofDecl decl parent config, s) hstart hsession
    exact haccounts.fits hstep
  · exact hlast.frame
  · exact hlast.exists_freeze_iff
  · exact fun error herror => hlast.of_freeze_eq_error herror
  · exact fun d hfreeze => hlast.shows hfreeze

/-- A table whose second attribute has no size is refused after the first one has its place. -/
example :
    let env := TypeEnv.ofTable 8 ⟨"A"⟩ []
    let bad : AttributeTable :=
      { owner := ⟨"A"⟩, types := ⟨[("x", .object), ("y", .embedded ⟨"B"⟩)]⟩ }
    let good : AttributeTable := { owner := ⟨"A"⟩, types := ⟨[("x", .object)]⟩ }
    let run := session (fun _ => pure ())
      [.setAttributes bad env, .attributes, .setAttributes good env, .attributedict, .methodnames]
      (Draft.ofDecl { id := ⟨"A"⟩ } none {}, ())
    run.1.map (fun e => e.answer) =
      [.error (.unresolvedType ⟨"A"⟩ ⟨"B"⟩),
        .error (.uninitializedState ⟨"A"⟩ .attributes "attributes"),
        .ok .done, .ok (.attributes [("x", .object)]),
        .error (.uninitializedState ⟨"A"⟩ .methods "methodnames")] := by
  decide +kernel

end ObjectLayout
