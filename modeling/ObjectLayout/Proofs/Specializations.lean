import Mathlib.Data.List.Dedup
import Mathlib.Data.List.Induction
import ObjectLayout.Specialization

/-!
# Runs of calls

Calls ask a table of specializations for bodies, one after another. A call changes the table where
it stands, and its only write is the last thing that it does; in place it does what it does on
values (`exec_specializeInPlace`), so that a call that is refused has written nothing. What a single
call does is `SpecializeStep`; what a table knows of all the calls before is `Tracks`, which every
call keeps (`Tracks.afterCall`). A body is found under the key of the call that compiled it, and
keys are never given to another body, so two calls answer the same body exactly when their keys are
the same (`Tracks.answers_eq_iff`). The two policies differ in the key: it is the call, or the
method alone.
-/

set_option autoImplicit false

namespace ObjectLayout

open LayoutM (settle)

/-- A method with the types of the arguments of a call. -/
abbrev MethodCall := String × List AttributeType

namespace SpecializationTable

/-! ## Calls in place -/

/-- The body that is compiled where there is none for a call. -/
def bodyFor (t : SpecializationTable) (slot : MethodSlot) (call : MethodCall) : Specialization where
  id := t.size
  method := call.1
  slot := slot.index
  argTypes := call.2
  implementation := t.symbol slot call.2

/-- The table with one more body. -/
def add (t : SpecializationTable) (body : Specialization) : SpecializationTable :=
  { t with entries := t.entries.insert (t.key body.method body.argTypes) body }

/-- Answers a body that exists, if its argument types are those of the call. -/
def bound (t : SpecializationTable) (existing : Specialization) (call : MethodCall) :
    Except LayoutError Specialization :=
  if existing.argTypes = call.2 then .ok existing
  else .error (t.mismatch call.1 (argumentText existing.argTypes) call.2)

/-- Asks for the body for a call in place. Where there is none the table is searched once more, and
only then the new body is written. -/
def specializeInPlace (call : MethodCall) : LayoutM SpecializationTable Specialization := do
  let t ← get
  let slot ← t.descriptor.methodSlot call.1
  t.checkSignature slot call.1 call.2
  match t.entries.get? (t.key call.1 call.2) with
  | some existing => t.bound existing call
  | none => do
    let t ← get
    match t.entries.get? (t.key call.1 call.2) with
    | some existing => t.bound existing call
    | none => do
      let body := t.bodyFor slot call
      modify fun t => t.add body
      return body

/-- The body that a call answers, or the error with which it is refused. -/
def answer (t : SpecializationTable) (call : MethodCall) : Except LayoutError Specialization :=
  ((specializeInPlace call).exec t).1

/-- The table that a call leaves. -/
def afterCall (t : SpecializationTable) (call : MethodCall) : SpecializationTable :=
  ((specializeInPlace call).exec t).2

/-- The table of a class after calls, one after another, whether they succeed or not. -/
def afterCalls (d : Descriptor) (history : List MethodCall) : SpecializationTable :=
  history.foldl afterCall (empty d)

/-! ## A single call -/

/-- What a call of a method does, and what it answers. -/
inductive SpecializeStep (t : SpecializationTable) (call : MethodCall) :
    Except LayoutError (SpecializationTable × Specialization) → Prop where
  /-- The class has no such method. -/
  | unknown (habsent : t.descriptor.dispatch.get? call.1 = none) :
      SpecializeStep t call (.error (.methodNotFound t.descriptor.id call.1))
  /-- The call disagrees with the signature of the slot. -/
  | unfit {slot : MethodSlot} {error : LayoutError}
      (hslot : t.descriptor.dispatch.get? call.1 = some slot)
      (hcheck : t.checkSignature slot call.1 call.2 = .error error) :
      SpecializeStep t call (.error error)
  /-- There is a body, for these argument types. -/
  | found {slot : MethodSlot} {body : Specialization}
      (hslot : t.descriptor.dispatch.get? call.1 = some slot)
      (hcheck : t.checkSignature slot call.1 call.2 = .ok ())
      (hget : t.entries.get? (t.key call.1 call.2) = some body) (hargs : body.argTypes = call.2) :
      SpecializeStep t call (.ok (t, body))
  /-- There is a body, for other argument types. -/
  | taken {slot : MethodSlot} {body : Specialization}
      (hslot : t.descriptor.dispatch.get? call.1 = some slot)
      (hcheck : t.checkSignature slot call.1 call.2 = .ok ())
      (hget : t.entries.get? (t.key call.1 call.2) = some body) (hargs : body.argTypes ≠ call.2) :
      SpecializeStep t call (.error (t.mismatch call.1 (argumentText body.argTypes) call.2))
  /-- There is none, and one is compiled. -/
  | compiled {slot : MethodSlot} (hslot : t.descriptor.dispatch.get? call.1 = some slot)
      (hcheck : t.checkSignature slot call.1 call.2 = .ok ())
      (hget : t.entries.get? (t.key call.1 call.2) = none) :
      SpecializeStep t call (.ok (t.add (t.bodyFor slot call), t.bodyFor slot call))

/-- A call ends in one of five ways. -/
theorem specialize_step (t : SpecializationTable) (call : MethodCall) :
    SpecializeStep t call (t.specialize call.1 call.2) := by
  unfold specialize ClassLayout.methodSlot
  cases hslot : t.descriptor.dispatch.get? call.1 with
  | none => exact .unknown hslot
  | some slot =>
    cases hcheck : t.checkSignature slot call.1 call.2 with
    | error error =>
      simp only [bind, Except.bind, hcheck]
      exact .unfit hslot hcheck
    | ok _ =>
      simp only [bind, Except.bind, hcheck]
      cases hget : t.entries.get? (t.key call.1 call.2) with
      | none => exact .compiled hslot hcheck hget
      | some body =>
        dsimp only
        by_cases hargs : body.argTypes = call.2
        · rw [if_pos hargs]
          exact .found hslot hcheck hget hargs
        · rw [if_neg hargs]
          exact .taken hslot hcheck hget hargs

/-- A call that is refused has written nothing, and any other leaves the table that it answers as a
value. -/
theorem exec_specializeInPlace (t : SpecializationTable) (call : MethodCall) :
    (specializeInPlace call).exec t = settle t (t.specialize call.1 call.2) := by
  have hstep := specialize_step t call
  generalize t.specialize call.1 call.2 = x at hstep
  unfold specializeInPlace ClassLayout.methodSlot
  simp only [LayoutM.exec_bind, LayoutM.exec_get, LayoutM.exec_liftM]
  cases hstep with
  | unknown habsent =>
    simp only [habsent]
    rfl
  | unfit hslot hcheck =>
    simp only [hslot, hcheck]
    rfl
  | found hslot hcheck hget hargs =>
    simp only [hslot, hcheck, hget, LayoutM.exec_liftM, bound, if_pos hargs]
    rfl
  | taken hslot hcheck hget hargs =>
    simp only [hslot, hcheck, hget, LayoutM.exec_liftM, bound, if_neg hargs]
    rfl
  | compiled hslot hcheck hget =>
    simp only [hslot, hcheck, hget, LayoutM.exec_bind, LayoutM.exec_get]
    rfl

/-! ## What a table knows -/

/-- The key under which the table of a class has the body for a call. -/
def keyOf (d : Descriptor) (call : MethodCall) : MethodCall := (empty d).key call.1 call.2

/-- Whether the class has the method, in a slot whose signature, if it has one, is for the types of
the arguments. -/
def fits (d : Descriptor) (call : MethodCall) : Bool :=
  match d.dispatch.get? call.1 with
  | none => false
  | some slot => ((empty d).checkSignature slot call.1 call.2).isOk

/-- The table of a class after these calls. -/
structure Tracks (d : Descriptor) (history : List MethodCall) (t : SpecializationTable) : Prop where
  descriptor_eq : t.descriptor = d
  nodup_keys : t.entries.keys.Nodup
  ids_eq : t.toList.map Specialization.id = List.range t.size
  /-- Under a key stands the body of the first call that has the key and fits. -/
  made : ∀ key, (t.entries.get? key).map (fun body => (body.method, body.argTypes)) =
    history.find? fun call => fits d call && keyOf d call = key
  slot : ∀ {key body}, t.entries.get? key = some body → ∃ slot,
    d.dispatch.get? body.method = some slot ∧ body.slot = slot.index ∧
      body.implementation = (empty d).symbol slot body.argTypes

variable {d : Descriptor} {history : List MethodCall} {t : SpecializationTable}
  {call call' : MethodCall} {body body' : Specialization}

/-- A table without bodies has seen no calls. -/
theorem tracks_empty (d : Descriptor) : Tracks d [] (empty d) where
  descriptor_eq := rfl
  nodup_keys := List.nodup_nil
  ids_eq := rfl
  made _ := rfl
  slot h := nomatch h

namespace Tracks

/-- The key of a call depends on the class alone. -/
theorem key_eq (h : Tracks d history t) (call : MethodCall) :
    t.key call.1 call.2 = keyOf d call := by
  unfold keyOf key
  rw [h.descriptor_eq]
  rfl

/-- Whether a call fits depends on the class alone. -/
theorem fits_eq (h : Tracks d history t) {slot : MethodSlot}
    (hslot : t.descriptor.dispatch.get? call.1 = some slot) :
    fits d call = (t.checkSignature slot call.1 call.2).isOk := by
  have hcheck : t.checkSignature slot call.1 call.2 =
      (empty d).checkSignature slot call.1 call.2 := by
    unfold checkSignature mismatch
    rw [h.descriptor_eq]
    rfl
  rw [h.descriptor_eq] at hslot
  unfold fits
  rw [hslot, hcheck]

/-- A call of a method that the class lacks does not fit. -/
theorem not_fits (h : Tracks d history t) (habsent : t.descriptor.dispatch.get? call.1 = none) :
    fits d call = false := by
  rw [h.descriptor_eq] at habsent
  unfold fits
  rw [habsent]

/-- A body stands under the key of the call that compiled it, and that call fits. -/
theorem of_get? (h : Tracks d history t) {key : MethodCall}
    (hget : t.entries.get? key = some body) :
    (body.method, body.argTypes) ∈ history ∧ fits d (body.method, body.argTypes) ∧
      keyOf d (body.method, body.argTypes) = key := by
  have hmade := h.made key
  rw [hget] at hmade
  have hfits := List.find?_some hmade.symm
  rw [Bool.and_eq_true, decide_eq_true_eq] at hfits
  exact ⟨List.mem_of_find?_eq_some hmade.symm, hfits⟩

/-- A call that changes nothing, since it does not fit or its key has a body, is remembered. -/
theorem remember (h : Tracks d history t)
    (hcall : fits d call → ∃ body, t.entries.get? (keyOf d call) = some body) :
    Tracks d (history ++ [call]) t where
  descriptor_eq := h.descriptor_eq
  nodup_keys := h.nodup_keys
  ids_eq := h.ids_eq
  slot := h.slot
  made key := by
    have hmade := h.made key
    rw [List.find?_append, ← hmade]
    by_cases hnew : (fits d call && decide (keyOf d call = key)) = true
    · rw [Bool.and_eq_true, decide_eq_true_eq] at hnew
      obtain ⟨body, hbody⟩ := hcall hnew.1
      rw [← hnew.2, hbody]
      rfl
    · rw [List.find?_singleton, if_neg hnew, Option.or_none]

/-- A call that fits and whose key is free is remembered with the body that it compiles. -/
theorem compile (h : Tracks d history t) {slot : MethodSlot}
    (hslot : t.descriptor.dispatch.get? call.1 = some slot)
    (hcheck : t.checkSignature slot call.1 call.2 = .ok ())
    (hget : t.entries.get? (t.key call.1 call.2) = none) :
    Tracks d (history ++ [call]) (t.add (t.bodyFor slot call)) := by
  have hfits : fits d call = true := by rw [h.fits_eq hslot, hcheck]; rfl
  have hkey : t.key (t.bodyFor slot call).method (t.bodyFor slot call).argTypes = keyOf d call :=
    h.key_eq call
  rw [h.key_eq] at hget
  constructor
  · exact h.descriptor_eq
  · exact OrderedMap.nodup_keys_insert h.nodup_keys _ _
  · have hlist : (t.add (t.bodyFor slot call)).entries.toList =
        t.entries.toList ++ [(keyOf d call, t.bodyFor slot call)] := by
      unfold add
      rw [hkey]
      exact OrderedMap.toList_insert_of_none hget _
    have hids := h.ids_eq
    unfold toList OrderedMap.values size OrderedMap.size at hids ⊢
    rw [hlist, List.map_append, List.map_append, hids, List.length_append, List.length_singleton,
      List.range_succ]
    rfl
  · intro key
    have hmade := h.made key
    unfold add
    rw [hkey, List.find?_append, ← hmade]
    by_cases hsame : key = keyOf d call
    · subst hsame
      rw [OrderedMap.get?_insert_self, hget]
      simp [hfits, bodyFor]
    · rw [OrderedMap.get?_insert_of_ne _ hsame]
      simp [Ne.symm hsame]
  · intro key body hbody
    unfold add at hbody
    rcases OrderedMap.of_get?_insert hbody with ⟨-, rfl⟩ | hold
    · rw [h.descriptor_eq] at hslot
      refine ⟨slot, hslot, rfl, ?_⟩
      unfold bodyFor symbol
      rw [h.descriptor_eq]
      rfl
    · exact h.slot hold

/-- Every call is remembered. -/
theorem afterCall (h : Tracks d history t) (call : MethodCall) :
    Tracks d (history ++ [call]) (t.afterCall call) := by
  have hstep := specialize_step t call
  unfold SpecializationTable.afterCall
  rw [exec_specializeInPlace]
  generalize t.specialize call.1 call.2 = x at hstep
  cases hstep with
  | unknown habsent =>
    exact h.remember fun hfits => by rw [h.not_fits habsent] at hfits; cases hfits
  | unfit hslot hcheck =>
    exact h.remember fun hfits => by rw [h.fits_eq hslot, hcheck] at hfits; cases hfits
  | found _ _ hget => exact h.remember fun _ => ⟨_, by rw [← h.key_eq]; exact hget⟩
  | taken _ _ hget => exact h.remember fun _ => ⟨_, by rw [← h.key_eq]; exact hget⟩
  | compiled hslot hcheck hget => exact h.compile hslot hcheck hget

end Tracks

/-- The last call is made last. -/
theorem afterCalls_concat (d : Descriptor) (history : List MethodCall) (call : MethodCall) :
    afterCalls d (history ++ [call]) = (afterCalls d history).afterCall call := by
  unfold afterCalls
  rw [List.foldl_append]
  rfl

/-- The table of a class knows all the calls that were made. -/
theorem tracks_afterCalls (d : Descriptor) (history : List MethodCall) :
    Tracks d history (afterCalls d history) := by
  induction history using List.reverseRecOn with
  | nil => exact tracks_empty d
  | append_singleton history call ih =>
    rw [afterCalls_concat]
    exact ih.afterCall call

/-! ## Answers -/

/-- A call adds at most one body, at the end. -/
theorem prefix_afterCall (t : SpecializationTable) (call : MethodCall) :
    t.entries.toList <+: (t.afterCall call).entries.toList := by
  have hstep := specialize_step t call
  unfold afterCall
  rw [exec_specializeInPlace]
  generalize t.specialize call.1 call.2 = x at hstep
  cases hstep with
  | @compiled slot _ _ hget =>
    have hlist := OrderedMap.toList_insert_of_none hget (t.bodyFor slot call)
    exact ⟨_, hlist.symm⟩
  | _ => exact List.prefix_rfl

/-- Later calls add bodies at the end. -/
theorem prefix_afterCalls (d : Descriptor) (history later : List MethodCall) :
    (afterCalls d history).entries.toList <+: (afterCalls d (history ++ later)).entries.toList := by
  induction later using List.reverseRecOn with
  | nil => simp
  | append_singleton later call ih =>
    rw [← List.append_assoc, afterCalls_concat]
    exact ih.trans (prefix_afterCall _ call)

/-- A call that is refused leaves the table. -/
theorem afterCall_of_error {error : LayoutError} (h : t.answer call = .error error) :
    t.afterCall call = t := by
  unfold answer at h
  unfold afterCall
  rw [exec_specializeInPlace] at h ⊢
  cases hcall : t.specialize call.1 call.2 with
  | error e => rfl
  | ok result =>
    rw [hcall] at h
    cases h

namespace Tracks

/-- A body stands under its key exactly if the entries have it there. -/
theorem get?_eq_some_iff (h : Tracks d history t) {key : MethodCall} :
    t.entries.get? key = some body ↔ (key, body) ∈ t.entries.toList :=
  ⟨OrderedMap.mem_toList_of_get?_eq_some, OrderedMap.get?_eq_some_of_mem h.nodup_keys⟩

/-- A body is one of the table exactly if it stands under the key of its call. -/
theorem mem_toList_iff (h : Tracks d history t) :
    body ∈ t.toList ↔ t.entries.get? (keyOf d (body.method, body.argTypes)) = some body := by
  constructor
  · intro hmem
    obtain ⟨⟨key, _⟩, hentry, rfl⟩ := List.mem_map.1 hmem
    have hget := h.get?_eq_some_iff.2 hentry
    rw [(h.of_get? hget).2.2]
    exact hget
  · intro hget
    exact List.mem_map.2 ⟨_, h.get?_eq_some_iff.1 hget, rfl⟩

/-- The number of a body is its position. -/
theorem id_eq (h : Tracks d history t) {i : Nat} (hbody : t.toList[i]? = some body) :
    body.id = i := by
  have hid : (t.toList.map Specialization.id)[i]? = some body.id := by
    rw [List.getElem?_map, hbody]
    rfl
  rw [h.ids_eq] at hid
  obtain ⟨hlt, hi⟩ := List.getElem?_eq_some_iff.1 hid
  rw [List.getElem_range] at hi
  exact hi.symm

/-- No two bodies have the same number. -/
theorem eq_of_id_eq (h : Tracks d history t) (hbody : body ∈ t.toList) (hbody' : body' ∈ t.toList)
    (hid : body.id = body'.id) : body = body' := by
  obtain ⟨i, hi⟩ := List.mem_iff_getElem?.1 hbody
  obtain ⟨j, hj⟩ := List.mem_iff_getElem?.1 hbody'
  rw [h.id_eq hi, h.id_eq hj] at hid
  rw [hid, hj] at hi
  exact (Option.some.inj hi).symm

/-- A call that fits succeeds when there is no body under its key, or one for its argument types. -/
theorem exists_answer_iff (h : Tracks d history t) :
    (∃ body, t.answer call = .ok body) ↔ fits d call ∧
      ∀ body, t.entries.get? (keyOf d call) = some body → body.argTypes = call.2 := by
  have hstep := specialize_step t call
  rw [← h.key_eq]
  unfold answer
  rw [exec_specializeInPlace]
  generalize t.specialize call.1 call.2 = x at hstep
  cases hstep with
  | unknown habsent => simp [settle, h.not_fits habsent]
  | unfit hslot hcheck => simp [settle, h.fits_eq hslot, hcheck, Except.isOk, Except.toBool]
  | found hslot hcheck hget hargs =>
    simp [settle, h.fits_eq hslot, hcheck, hget, hargs, Except.isOk, Except.toBool]
  | taken hslot hcheck hget hargs => simp [settle, hget, hargs]
  | compiled hslot hcheck hget =>
    simp [settle, h.fits_eq hslot, hcheck, hget, Except.isOk, Except.toBool]

/-- What a call answers is for its method and argument types, and stands under its key from then
on. -/
theorem of_answer (h : Tracks d history t) (hanswer : t.answer call = .ok body) :
    (t.afterCall call).entries.get? (keyOf d call) = some body ∧
      (body.method, body.argTypes) = call := by
  have hkey := h.key_eq call
  have hstep := specialize_step t call
  unfold answer at hanswer
  unfold SpecializationTable.afterCall
  rw [exec_specializeInPlace] at hanswer ⊢
  generalize t.specialize call.1 call.2 = x at hstep hanswer
  cases hstep with
  | unknown => cases hanswer
  | unfit => cases hanswer
  | taken => cases hanswer
  | found hslot hcheck hget hargs =>
    cases hanswer
    rw [hkey] at hget
    refine ⟨hget, ?_⟩
    -- Whatever the policy, the key has the method in it.
    have hmethod : ∀ call, (keyOf d call).1 = call.1 := fun call => by
      unfold keyOf key
      cases (empty d).descriptor.kind.lookupPolicy <;> rfl
    have hsame := congrArg Prod.fst (h.of_get? hget).2.2
    rw [hmethod, hmethod] at hsame
    exact Prod.ext hsame hargs
  | compiled hslot hcheck hget =>
    cases hanswer
    refine ⟨?_, rfl⟩
    rw [← hkey]
    exact OrderedMap.get?_insert_self _ _ _

/-- What two calls of a run answered stands under their keys at the end. -/
theorem get?_of_answers {later : List MethodCall}
    (h : (afterCalls d history).answer call = .ok body)
    (h' : (afterCalls d (history ++ call :: later)).answer call' = .ok body') :
    (afterCalls d (history ++ call :: later ++ [call'])).entries.get? (keyOf d call) = some body ∧
      (afterCalls d (history ++ call :: later ++ [call'])).entries.get? (keyOf d call') =
        some body' := by
  have hfirst := ((tracks_afterCalls d history).of_answer h).1
  have hsecond := ((tracks_afterCalls d _).of_answer h').1
  rw [← afterCalls_concat] at hfirst hsecond
  have hkept := prefix_afterCalls d (history ++ [call]) (later ++ [call'])
  have hlist : history ++ [call] ++ (later ++ [call']) = history ++ call :: later ++ [call'] := by
    simp
  rw [hlist] at hkept
  refine ⟨?_, hsecond⟩
  exact (tracks_afterCalls d _).get?_eq_some_iff.2
    (hkept.subset ((tracks_afterCalls d _).get?_eq_some_iff.1 hfirst))

/-- Two calls of a run answer the same body exactly when they have the same key, and they do so
exactly when their bodies have the same number. -/
theorem answers_eq_iff {later : List MethodCall}
    (h : (afterCalls d history).answer call = .ok body)
    (h' : (afterCalls d (history ++ call :: later)).answer call' = .ok body') :
    (body.id = body'.id ↔ body = body') ∧ (body = body' ↔ keyOf d call = keyOf d call') := by
  have htracks := tracks_afterCalls d (history ++ call :: later ++ [call'])
  obtain ⟨hget, hget'⟩ := get?_of_answers h h'
  have hkey := (htracks.of_get? hget).2.2
  have hkey' := (htracks.of_get? hget').2.2
  constructor
  · refine ⟨fun hid => htracks.eq_of_id_eq ?_ ?_ hid, congrArg Specialization.id⟩
    · exact htracks.mem_toList_iff.2 (by rw [hkey]; exact hget)
    · exact htracks.mem_toList_iff.2 (by rw [hkey']; exact hget')
  · constructor
    · rintro rfl
      rw [← hkey, ← hkey']
    · intro hsame
      rw [hsame, hget'] at hget
      exact (Option.some.inj hget).symm

end Tracks

/-! ## Policies -/

/-- Where bodies depend on the call, the call is the key. -/
theorem keyOf_of_perCallSite (hkind : d.kind = .inferredPerCall) (call : MethodCall) :
    keyOf d call = call := by
  unfold keyOf key empty
  rw [hkind]
  rfl

/-- Where bodies are bound once, the method is the key. -/
theorem keyOf_of_boundOnce (hkind : d.kind = .staticSignature) (call : MethodCall) :
    keyOf d call = (call.1, []) := by
  unfold keyOf key empty
  rw [hkind]
  rfl

/-- Where bodies depend on the call, every call of a method that the class has fits. -/
theorem fits_of_perCallSite (hkind : d.kind = .inferredPerCall) (call : MethodCall) :
    fits d call = (d.dispatch.get? call.1).isSome := by
  unfold fits checkSignature empty
  rw [hkind]
  cases d.dispatch.get? call.1 <;> rfl

/-- Where bodies are bound once, a call fits if the signature of the slot, if any, has its types. -/
theorem fits_of_boundOnce (hkind : d.kind = .staticSignature) {slot : MethodSlot}
    (hslot : d.dispatch.get? call.1 = some slot) :
    fits d call ↔ ∀ signature, slot.signature = some signature → signature.params = call.2 := by
  unfold fits checkSignature empty
  rw [hkind, hslot]
  dsimp only [ExtensionKind.lookupPolicy]
  cases slot.signature with
  | none => simp [Except.isOk, Except.toBool]
  | some signature =>
    by_cases hparams : signature.params = call.2 <;>
      simp [hparams, Except.isOk, Except.toBool]

/-- The argument types to which the method in a slot is bound: those of its signature, or else those
of the first call of the method. -/
def boundTypes (slot : MethodSlot) (method : String) (calls : List MethodCall) :
    Option (List AttributeType) :=
  match slot.signature with
  | some signature => some signature.params
  | none => (calls.find? fun call => call.1 = method).map Prod.snd

/-- Where bodies depend on the call, every call of a method that the class has succeeds. -/
theorem Tracks.exists_answer_of_perCallSite (h : Tracks d history t)
    (hkind : d.kind = .inferredPerCall) {slot : MethodSlot}
    (hslot : d.dispatch.get? call.1 = some slot) : ∃ body, t.answer call = .ok body := by
  rw [h.exists_answer_iff, fits_of_perCallSite hkind, hslot]
  refine ⟨rfl, fun body hget => ?_⟩
  have hkey := (h.of_get? hget).2.2
  rw [keyOf_of_perCallSite hkind, keyOf_of_perCallSite hkind] at hkey
  exact congrArg Prod.snd hkey

/-- Where bodies are bound once, a call succeeds exactly if its types are those to which its method
is bound. -/
theorem Tracks.exists_answer_of_boundOnce (h : Tracks d history t)
    (hkind : d.kind = .staticSignature) {slot : MethodSlot}
    (hslot : d.dispatch.get? call.1 = some slot) :
    (∃ body, t.answer call = .ok body) ↔
      boundTypes slot call.1 (history ++ [call]) = some call.2 := by
  rw [h.exists_answer_iff, fits_of_boundOnce hkind hslot]
  unfold boundTypes
  cases hsignature : slot.signature with
  | some signature =>
    simp only [Option.some.injEq, forall_eq']
    refine ⟨And.left, fun hparams => ⟨hparams, fun body hget => ?_⟩⟩
    -- The body was asked for by a call of the method that fits as well.
    obtain ⟨-, hfits, hkey⟩ := h.of_get? hget
    rw [keyOf_of_boundOnce hkind, keyOf_of_boundOnce hkind] at hkey
    have hmethod : body.method = call.1 := congrArg Prod.fst hkey
    have hsame : d.dispatch.get? (body.method, body.argTypes).1 = some slot := by
      rw [← hslot, ← hmethod]
    exact ((fits_of_boundOnce hkind hsame).1 hfits signature hsignature).symm.trans hparams
  | none =>
    have hmade := h.made (keyOf d call)
    have hfirst : (fun earlier => fits d earlier && decide (keyOf d earlier = keyOf d call)) =
        fun earlier : MethodCall => decide (earlier.1 = call.1) := by
      funext earlier
      rw [keyOf_of_boundOnce hkind, keyOf_of_boundOnce hkind]
      by_cases hmethod : earlier.1 = call.1
      · have hsame : d.dispatch.get? earlier.1 = some slot := by rw [hmethod, hslot]
        have hfits : fits d earlier = true :=
          (fits_of_boundOnce hkind hsame).2 fun _ hnone => by rw [hsignature] at hnone; cases hnone
        simp [hfits, hmethod]
      · simp [hmethod]
    rw [hfirst] at hmade
    simp only [reduceCtorEq, false_implies, implies_true, true_and, List.find?_append, ← hmade]
    cases hget : t.entries.get? (keyOf d call) with
    | none => simp
    | some body => simp

/-! ## Runs -/

/-- What holds of all runs of calls where bodies are compiled for each list of argument types. -/
structure CompilesPerCall (d : Descriptor) : Prop where
  /-- A call of a method that the class has succeeds. -/
  succeeds : ∀ history call slot, d.dispatch.get? call.1 = some slot →
    ∃ body, (afterCalls d history).answer call = .ok body
  /-- Two calls answer the same body when they are the same call, and only then. -/
  same_iff : ∀ history later call call' (body body' : Specialization),
    (afterCalls d history).answer call = .ok body →
    (afterCalls d (history ++ call :: later)).answer call' = .ok body' →
    (body.id = body'.id ↔ call = call')
  /-- There are as many bodies as different calls of methods that the class has. -/
  size_eq : ∀ history, (afterCalls d history).size =
    (history.filter fun call => (d.dispatch.get? call.1).isSome).dedup.length

/-- What holds of all runs of calls where a method is bound once. -/
structure BindsOnce (d : Descriptor) : Prop where
  /-- A method has at most one body. -/
  nodup_methods : ∀ history, ((afterCalls d history).toList.map Specialization.method).Nodup
  /-- The body is the one in the slot. -/
  implementation_eq : ∀ history, ∀ body ∈ (afterCalls d history).toList, ∃ slot,
    d.dispatch.get? body.method = some slot ∧ body.implementation = slot.implementation
  /-- A call succeeds when its argument types are those to which the method is bound, and only
  then. -/
  succeeds_iff : ∀ history call slot, d.dispatch.get? call.1 = some slot →
    ((∃ body, (afterCalls d history).answer call = .ok body) ↔
      boundTypes slot call.1 (history ++ [call]) = some call.2)
  /-- All calls of a method that succeed answer the same body. -/
  same : ∀ history later call call' body body',
    (afterCalls d history).answer call = .ok body →
    (afterCalls d (history ++ call :: later)).answer call' = .ok body' →
    call'.1 = call.1 → body' = body

/-- What holds of all runs of calls that ask for the bodies of a class. -/
structure CallRuns (d : Descriptor) : Prop where
  /-- No body is changed or removed. -/
  kept : ∀ history later,
    (afterCalls d history).entries.toList <+: (afterCalls d (history ++ later)).entries.toList
  /-- Bodies are numbered in the order in which they are compiled. -/
  id_eq : ∀ history i (body : Specialization),
    (afterCalls d history).toList[i]? = some body → body.id = i
  /-- Every body was asked for, and is for the slot of its method. -/
  requested : ∀ history, ∀ body ∈ (afterCalls d history).toList,
    (body.method, body.argTypes) ∈ history ∧ d.slotOf body.method = .ok body.slot
  /-- What a call answers is for its method and its argument types, and is in the table. -/
  answered : ∀ history call body, (afterCalls d history).answer call = .ok body →
    (body.method, body.argTypes) = call ∧ d.slotOf call.1 = .ok body.slot ∧
      body ∈ (afterCalls d (history ++ [call])).toList
  /-- A call that is refused changes nothing. -/
  refused : ∀ history call error, (afterCalls d history).answer call = .error error →
    afterCalls d (history ++ [call]) = afterCalls d history
  /-- A method that the class does not have is not found. -/
  unknown : ∀ history call, d.dispatch.get? call.1 = none →
    (afterCalls d history).answer call = .error (.methodNotFound d.id call.1)
  /-- A call does in place what it does on values. -/
  inPlace : ∀ history call, (specializeInPlace call).exec (afterCalls d history) =
    settle (afterCalls d history) ((afterCalls d history).specialize call.1 call.2)
  perCall : d.kind = .inferredPerCall → CompilesPerCall d
  once : d.kind = .staticSignature → BindsOnce d

/-- The slot of a body is that of its method. -/
theorem Tracks.slotOf_eq (h : Tracks d history t) (hmem : body ∈ t.toList) :
    d.slotOf body.method = .ok body.slot := by
  obtain ⟨slot, hslot, hindex, -⟩ := h.slot (h.mem_toList_iff.1 hmem)
  unfold ClassLayout.slotOf ClassLayout.methodSlot
  rw [hslot, hindex]
  rfl

/-- A key has a body exactly if a call with the key fits. -/
theorem Tracks.mem_keys_iff (h : Tracks d history t) {key : MethodCall} :
    key ∈ t.entries.keys ↔ ∃ call ∈ history, fits d call ∧ keyOf d call = key := by
  have hmade := h.made key
  constructor
  · intro hmem
    obtain ⟨body, hget⟩ := OrderedMap.exists_get?_of_mem_keys hmem
    exact ⟨_, h.of_get? hget⟩
  · rintro ⟨call, hmem, hfits, hkey⟩
    cases hget : t.entries.get? key with
    | some body => exact OrderedMap.mem_keys_of_get?_eq_some hget
    | none =>
      rw [hget] at hmade
      have hnone := List.find?_eq_none.1 hmade.symm call hmem
      simp [hfits, hkey] at hnone

/-- Where bodies depend on the call, runs of calls are as they should be. -/
theorem compilesPerCall (hkind : d.kind = .inferredPerCall) : CompilesPerCall d where
  succeeds history call slot hslot :=
    (tracks_afterCalls d history).exists_answer_of_perCallSite hkind hslot
  same_iff := by
    intro history later call call' body body' h h'
    obtain ⟨hid, hsame⟩ := Tracks.answers_eq_iff h h'
    rw [keyOf_of_perCallSite hkind, keyOf_of_perCallSite hkind] at hsame
    exact hid.trans hsame
  size_eq history := by
    have h := tracks_afterCalls d history
    have hperm : (afterCalls d history).entries.keys.Perm
        (history.filter fun call => (d.dispatch.get? call.1).isSome).dedup := by
      refine (List.perm_ext_iff_of_nodup h.nodup_keys (List.nodup_dedup _)).2 fun key => ?_
      rw [h.mem_keys_iff, List.mem_dedup, List.mem_filter]
      simp [fits_of_perCallSite hkind, keyOf_of_perCallSite hkind]
    rw [← hperm.length_eq]
    exact (List.length_map _).symm

/-- Where bodies are bound once, runs of calls are as they should be. -/
theorem bindsOnce (hkind : d.kind = .staticSignature) : BindsOnce d where
  nodup_methods history := by
    have h := tracks_afterCalls d history
    have hkeys : (afterCalls d history).entries.keys =
        ((afterCalls d history).toList.map Specialization.method).map (·, []) := by
      unfold OrderedMap.keys toList OrderedMap.values
      rw [List.map_map, List.map_map]
      refine List.map_congr_left fun entry hentry => ?_
      have hkey := (h.of_get? (h.get?_eq_some_iff.2 hentry)).2.2
      rw [keyOf_of_boundOnce hkind] at hkey
      exact hkey.symm
    have hnodup := h.nodup_keys
    rw [hkeys] at hnodup
    exact hnodup.of_map _
  implementation_eq history body hmem := by
    have h := tracks_afterCalls d history
    obtain ⟨slot, hslot, -, himplementation⟩ := h.slot (h.mem_toList_iff.1 hmem)
    refine ⟨slot, hslot, ?_⟩
    rw [himplementation]
    unfold symbol empty
    rw [hkind]
    rfl
  succeeds_iff history call slot hslot :=
    (tracks_afterCalls d history).exists_answer_of_boundOnce hkind hslot
  same := by
    intro history later call call' body body' h h' hmethod
    have hsame := (Tracks.answers_eq_iff h h').2
    rw [keyOf_of_boundOnce hkind, keyOf_of_boundOnce hkind, hmethod] at hsame
    exact (hsame.2 rfl).symm

/-- Runs of calls are sound, whatever class they are for. -/
theorem callRuns (d : Descriptor) : CallRuns d where
  kept := prefix_afterCalls d
  id_eq history i body := (tracks_afterCalls d history).id_eq
  requested history body hmem := by
    have h := tracks_afterCalls d history
    exact ⟨(h.of_get? (h.mem_toList_iff.1 hmem)).1, h.slotOf_eq hmem⟩
  answered := by
    intro history call body hanswer
    have h := tracks_afterCalls d (history ++ [call])
    obtain ⟨hget, rfl⟩ := (tracks_afterCalls d history).of_answer hanswer
    rw [← afterCalls_concat] at hget
    have hmem := h.mem_toList_iff.2 hget
    exact ⟨rfl, h.slotOf_eq hmem, hmem⟩
  refused := by
    intro history call error herror
    rw [afterCalls_concat, afterCall_of_error herror]
  unknown := by
    intro history call habsent
    have h := (tracks_afterCalls d history).descriptor_eq
    unfold answer
    rw [exec_specializeInPlace]
    unfold specialize ClassLayout.methodSlot
    rw [h, habsent]
    rfl
  inPlace history := exec_specializeInPlace (afterCalls d history)
  perCall := compilesPerCall
  once := bindsOnce

end SpecializationTable

end ObjectLayout
