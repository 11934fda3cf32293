import Mathlib.Tactic.ByContra
import ObjectLayout.Proofs.Lineage

/-!
# Method resolution

What the dispatch table of a class should hold can be told from the declarations along its chain
alone: `slotNames` are the methods in the order in which they are first declared, and `resolve?` is
the slot of a method, made of its first and its last declaration. A dispatch table is filled by
declaring methods one after another, and each declaration keeps the table in agreement with this
reading (`Resolves.addMethod`); along a chain, this makes the two the same
(`resolvesMethods_of_lineage`). The rest is about declarations and no longer about tables.
-/

set_option autoImplicit false

namespace ObjectLayout

open LayoutM (exists_eq_ok_of_bind)

/-- A method as a class declares it. -/
structure MethodDeclaration where
  cls : ClassId
  method : MethodDecl

/-- The methods that a class declares. -/
def ClassDefinition.methodDeclarations (definition : ClassDefinition) : List MethodDeclaration :=
  definition.methods.map fun method => ⟨definition.id, method⟩

/-- The methods that the classes of a chain declare, those of the root first. -/
def methodHistory : List Origin → List MethodDeclaration
  | [] => []
  | o :: above => methodHistory above ++ o.definition.methodDeclarations

/-- The declarations of one method. -/
def declarationsOf (history : List MethodDeclaration) (name : String) : List MethodDeclaration :=
  history.filter fun declaration => declaration.method.name = name

/-- The methods in the order in which they are first declared. -/
def slotNames (history : List MethodDeclaration) : List String :=
  (history.map fun declaration => declaration.method.name).eraseDups

/-- The slot of a method: it was introduced by the first declaration, its body is that of the last
declaration, and its signature is the first one stated. -/
def resolve? (history : List MethodDeclaration) (name : String) : Option MethodSlot :=
  match declarationsOf history name with
  | [] => none
  | first :: later =>
    let last := later.getLastD first
    some {
      index := (slotNames history).idxOf name
      signature := (first :: later).findSome? fun declaration => declaration.method.signature
      implementation := last.method.symbolIn last.cls
      definedIn := last.cls
      introducedBy := first.cls }

/-! ## One more declaration -/

section Append

variable {history : List MethodDeclaration} {declaration : MethodDeclaration} {name : String}

/-- A method without declarations has no slot, and only then. -/
theorem not_mem_slotNames : name ∉ slotNames history ↔ declarationsOf history name = [] := by
  unfold slotNames declarationsOf
  rw [List.mem_eraseDups, List.filter_eq_nil_iff]
  constructor
  · intro h declaration hmem heq
    exact h (List.mem_map.2 ⟨declaration, hmem, of_decide_eq_true heq⟩)
  · intro h hmem
    obtain ⟨declaration, hdecl, heq⟩ := List.mem_map.1 hmem
    exact h declaration hdecl (decide_eq_true heq)

/-- A method is resolved exactly if it is declared. -/
theorem resolve?_eq_none_iff : resolve? history name = none ↔ name ∉ slotNames history := by
  rw [not_mem_slotNames]
  unfold resolve?
  cases declarationsOf history name with
  | nil => simp
  | cons first later => simp

/-- A method that is resolved has a slot. -/
theorem mem_slotNames_of_resolve? {slot : MethodSlot} (h : resolve? history name = some slot) :
    name ∈ slotNames history := by
  by_contra hnot
  rw [resolve?_eq_none_iff.2 hnot] at h
  cases h

/-- A method that is new gets the next slot. -/
theorem slotNames_append_of_not_mem (h : declaration.method.name ∉ slotNames history) :
    slotNames (history ++ [declaration]) = slotNames history ++ [declaration.method.name] := by
  unfold slotNames at h ⊢
  rw [List.mem_eraseDups] at h
  have hrest : [declaration.method.name].removeAll
      (history.map fun declaration => declaration.method.name) = [declaration.method.name] := by
    unfold List.removeAll
    rw [List.filter_cons_of_pos (by simpa using h), List.filter_nil]
  rw [List.map_append, List.eraseDups_append, List.map_singleton, hrest]
  rfl

/-- A method that is declared again gets no slot. -/
theorem slotNames_append_of_mem (h : declaration.method.name ∈ slotNames history) :
    slotNames (history ++ [declaration]) = slotNames history := by
  unfold slotNames at h ⊢
  rw [List.mem_eraseDups] at h
  have hrest : [declaration.method.name].removeAll
      (history.map fun declaration => declaration.method.name) = [] := by
    unfold List.removeAll
    rw [List.filter_cons_of_neg (by simpa using h), List.filter_nil]
  rw [List.map_append, List.eraseDups_append, List.map_singleton, hrest, List.eraseDups_nil,
    List.append_nil]

/-- A later declaration moves no slot. -/
theorem idxOf_slotNames_append (h : name ∈ slotNames history) :
    (slotNames (history ++ [declaration])).idxOf name = (slotNames history).idxOf name := by
  by_cases hmem : declaration.method.name ∈ slotNames history
  · rw [slotNames_append_of_mem hmem]
  · rw [slotNames_append_of_not_mem hmem, List.idxOf_append, if_pos h]

/-- A declaration is the last one of its method. -/
theorem declarationsOf_append_self :
    declarationsOf (history ++ [declaration]) declaration.method.name =
      declarationsOf history declaration.method.name ++ [declaration] := by
  simp [declarationsOf]

/-- A declaration of another method does not change what a method is resolved to. -/
theorem resolve?_append_of_ne (h : declaration.method.name ≠ name) :
    resolve? (history ++ [declaration]) name = resolve? history name := by
  have hsame : declarationsOf (history ++ [declaration]) name = declarationsOf history name := by
    simp [declarationsOf, h]
  unfold resolve?
  rw [hsame]
  cases hdecls : declarationsOf history name with
  | nil => rfl
  | cons first later =>
    have hmem : name ∈ slotNames history := by
      by_contra hnot
      rw [not_mem_slotNames.1 hnot] at hdecls
      cases hdecls
    rw [idxOf_slotNames_append hmem]

/-- The first declaration of a method introduces a slot at the end. -/
theorem resolve?_append_of_none (h : resolve? history declaration.method.name = none) :
    resolve? (history ++ [declaration]) declaration.method.name =
      some {
        index := (slotNames history).length
        signature := declaration.method.signature
        implementation := declaration.method.symbolIn declaration.cls
        definedIn := declaration.cls
        introducedBy := declaration.cls } := by
  rw [resolve?_eq_none_iff] at h
  have hnone : declarationsOf history declaration.method.name = [] := not_mem_slotNames.1 h
  unfold resolve?
  rw [declarationsOf_append_self, hnone, slotNames_append_of_not_mem h, List.idxOf_append, if_neg h]
  simp

/-- Every later declaration overrides the body in the slot. -/
theorem resolve?_append_of_some {slot : MethodSlot}
    (h : resolve? history declaration.method.name = some slot) :
    resolve? (history ++ [declaration]) declaration.method.name =
      some (slot.overrideBy declaration.cls declaration.method) := by
  have hmem := mem_slotNames_of_resolve? h
  unfold resolve? at h ⊢
  rw [declarationsOf_append_self, idxOf_slotNames_append hmem]
  cases hdecls : declarationsOf history declaration.method.name with
  | nil =>
    rw [hdecls] at h
    cases h
  | cons first later =>
    rw [hdecls] at h
    cases h
    rw [List.cons_append]
    dsimp only [MethodSlot.overrideBy]
    rw [List.getLastD_concat, ← List.cons_append, List.findSome?_append]
    cases (first :: later).findSome? fun declaration => declaration.method.signature <;>
      cases hsig : declaration.method.signature <;> simp [hsig]

/-- Later declarations add slots at the end. -/
theorem exists_slotNames_append (history later : List MethodDeclaration) :
    ∃ new, slotNames (history ++ later) = slotNames history ++ new := by
  unfold slotNames
  rw [List.map_append, List.eraseDups_append]
  exact ⟨_, rfl⟩

/-- The index of a slot is the position of its method. -/
theorem index_of_resolve? {slot : MethodSlot} (h : resolve? history name = some slot) :
    slot.index = (slotNames history).idxOf name := by
  unfold resolve? at h
  split at h
  · cases h
  · cases h
    rfl

/-- A method keeps its slot, whatever is declared later. -/
theorem exists_resolve?_append {slot : MethodSlot} (h : resolve? history name = some slot)
    (later : List MethodDeclaration) :
    ∃ slot', resolve? (history ++ later) name = some slot' ∧ slot'.index = slot.index := by
  obtain ⟨new, hnew⟩ := exists_slotNames_append history later
  have hmem := mem_slotNames_of_resolve? h
  cases h' : resolve? (history ++ later) name with
  | none =>
    rw [resolve?_eq_none_iff, hnew] at h'
    exact absurd (List.mem_append_left _ hmem) h'
  | some slot' =>
    refine ⟨slot', rfl, ?_⟩
    rw [index_of_resolve? h, index_of_resolve? h', hnew, List.idxOf_append, if_pos hmem]

end Append

/-! ## Tables -/

/-- A dispatch table is what the declarations make of it, and they state one signature at most for
each method. -/
structure DispatchTable.Resolves (t : DispatchTable) (history : List MethodDeclaration) : Prop where
  nodup : t.names.Nodup
  names_eq : t.names = slotNames history
  get?_eq : ∀ name, t.get? name = resolve? history name
  agree : ∀ declaration ∈ history, ∀ signature, declaration.method.signature = some signature →
    ∀ slot, t.get? declaration.method.name = some slot → slot.signature = some signature

namespace DispatchTable.Resolves

variable {t t' : DispatchTable} {history : List MethodDeclaration}

/-- The empty table agrees with no declarations. -/
theorem empty (owner : ClassId) : (DispatchTable.empty owner).Resolves [] where
  nodup := List.nodup_nil
  names_eq := rfl
  get?_eq := fun _ => rfl
  agree := fun _ h => nomatch h

/-- A table that is derived agrees with the declarations of the other one. -/
theorem derive (h : t.Resolves history) (owner : ClassId) : (t.derive owner).Resolves history where
  nodup := h.nodup
  names_eq := h.names_eq
  get?_eq := h.get?_eq
  agree := h.agree

/-- What a declaration that is accepted does: it introduces a slot or overrides the body in one. -/
theorem addMethod_ok {method : MethodDecl} {placement : Placement}
    (hadd : t.addMethod method = .ok (t', placement)) :
    t'.owner = t.owner ∧ ∃ slot, t'.slots = t.slots.insert method.name slot ∧
      ((t.get? method.name = none ∧ slot =
        { index := t.slotCount
          signature := method.signature
          implementation := method.symbolIn t.owner
          definedIn := t.owner
          introducedBy := t.owner }) ∨
      ∃ inherited, t.get? method.name = some inherited ∧
        slot = inherited.overrideBy t.owner method ∧
        ∀ expected found, inherited.signature = some expected → method.signature = some found →
          expected = found) := by
  unfold DispatchTable.addMethod at hadd
  split at hadd
  · cases hadd
  · dsimp only at hadd
    split at hadd
    · next hnone =>
      cases hadd
      exact ⟨rfl, _, rfl, .inl ⟨hnone, rfl⟩⟩
    · next inherited hsome =>
      split at hadd
      · next expected found hexpected hfound =>
        split at hadd
        · next hcompatible =>
          cases hadd
          refine ⟨rfl, _, rfl, .inr ⟨inherited, hsome, rfl, ?_⟩⟩
          intro e f he hf
          rw [hexpected] at he
          rw [hfound] at hf
          cases he
          cases hf
          exact hcompatible
        · cases hadd
      · next hnone =>
        cases hadd
        exact ⟨rfl, _, rfl, .inr ⟨inherited, hsome, rfl, fun e f he hf => (hnone e f he hf).elim⟩⟩

/-- A slot that is put in place is found by its name, and the others stay. -/
theorem get?_of_slots {method : MethodDecl} {slot : MethodSlot}
    (hslots : t'.slots = t.slots.insert method.name slot) :
    t'.get? method.name = some slot ∧ ∀ name, method.name ≠ name → t'.get? name = t.get? name := by
  unfold DispatchTable.get?
  rw [hslots]
  exact ⟨OrderedMap.get?_insert_self _ _ _,
    fun name hne => OrderedMap.get?_insert_of_ne _ hne.symm _⟩

/-- A table whose slot for the declared method is the right one has the right slots. -/
theorem get?_eq_append (h : t.Resolves history) {declaration : MethodDeclaration}
    {slot : MethodSlot} (hslots : t'.slots = t.slots.insert declaration.method.name slot)
    (hslot : resolve? (history ++ [declaration]) declaration.method.name = some slot) :
    ∀ name, t'.get? name = resolve? (history ++ [declaration]) name := by
  obtain ⟨hself, hother⟩ := get?_of_slots hslots
  intro name
  by_cases hname : declaration.method.name = name
  · rw [← hname, hself, hslot]
  · rw [hother name hname, h.get?_eq, resolve?_append_of_ne hname]

/-- A method that is new keeps the table in agreement. -/
theorem introduce (h : t.Resolves history) (declaration : MethodDeclaration)
    (hnone : t.get? declaration.method.name = none)
    (hslots : t'.slots = t.slots.insert declaration.method.name
      { index := t.slotCount
        signature := declaration.method.signature
        implementation := declaration.method.symbolIn declaration.cls
        definedIn := declaration.cls
        introducedBy := declaration.cls }) :
    t'.Resolves (history ++ [declaration]) := by
  obtain ⟨hself, hother⟩ := get?_of_slots hslots
  have hresolve : resolve? history declaration.method.name = none := (h.get?_eq _).symm.trans hnone
  have hfresh := resolve?_eq_none_iff.1 hresolve
  constructor
  · unfold DispatchTable.names
    rw [hslots]
    exact OrderedMap.nodup_keys_insert h.nodup _ _
  · unfold DispatchTable.names
    rw [hslots, OrderedMap.keys_insert_of_none hnone, slotNames_append_of_not_mem hfresh]
    exact congrArg (· ++ [declaration.method.name]) h.names_eq
  · apply h.get?_eq_append hslots
    have hcount : t.slotCount = (slotNames history).length := by
      rw [← h.names_eq]
      exact (List.length_map _).symm
    rw [hcount]
    exact resolve?_append_of_none hresolve
  · intro other hmem signature hsignature slot hget
    rcases List.mem_append.1 hmem with hold | hnew
    · -- Nothing stated a signature for the method before.
      by_cases hname : declaration.method.name = other.method.name
      · rw [hname, not_mem_slotNames] at hfresh
        exact absurd (decide_eq_true rfl) (List.filter_eq_nil_iff.1 hfresh other hold)
      · rw [hother _ hname] at hget
        exact h.agree other hold signature hsignature slot hget
    · rw [List.mem_singleton.1 hnew] at hsignature hget
      rw [hself] at hget
      cases hget
      exact hsignature

/-- A method that overrides another one keeps the table in agreement. -/
theorem override (h : t.Resolves history) (declaration : MethodDeclaration)
    {inherited : MethodSlot}
    (hsome : t.get? declaration.method.name = some inherited)
    (hslots : t'.slots = t.slots.insert declaration.method.name
      (inherited.overrideBy declaration.cls declaration.method))
    (hcompatible : ∀ expected found, inherited.signature = some expected →
      declaration.method.signature = some found → expected = found) :
    t'.Resolves (history ++ [declaration]) := by
  obtain ⟨hself, hother⟩ := get?_of_slots hslots
  have hresolve : resolve? history declaration.method.name = some inherited :=
    (h.get?_eq _).symm.trans hsome
  have hmem := mem_slotNames_of_resolve? hresolve
  constructor
  · unfold DispatchTable.names
    rw [hslots]
    exact OrderedMap.nodup_keys_insert h.nodup _ _
  · unfold DispatchTable.names
    rw [hslots, OrderedMap.keys_insert_of_some hsome, slotNames_append_of_mem hmem]
    exact h.names_eq
  · exact h.get?_eq_append hslots (resolve?_append_of_some hresolve)
  · intro other hmem signature hsignature slot hget
    by_cases hname : declaration.method.name = other.method.name
    · rw [← hname, hself] at hget
      cases hget
      show (inherited.signature <|> declaration.method.signature) = some signature
      rcases List.mem_append.1 hmem with hold | hnew
      · have hagree := h.agree other hold signature hsignature inherited
          (by rw [← hname]; exact hsome)
        rw [hagree]
        rfl
      · rw [List.mem_singleton.1 hnew] at hsignature
        cases hexpected : inherited.signature with
        | none => exact hsignature
        | some expected => rw [hcompatible expected signature hexpected hsignature]; rfl
    · rw [hother _ hname] at hget
      rcases List.mem_append.1 hmem with hold | hnew
      · exact h.agree other hold signature hsignature slot hget
      · rw [List.mem_singleton.1 hnew] at hname
        exact absurd rfl hname

/-- A declaration keeps a table in agreement with the declarations. -/
theorem addMethod (h : t.Resolves history) {method : MethodDecl} {placement : Placement}
    (hadd : t.addMethod method = .ok (t', placement)) :
    t'.Resolves (history ++ [⟨t.owner, method⟩]) := by
  obtain ⟨-, slot, hslots, hslot⟩ := addMethod_ok hadd
  rcases hslot with ⟨hnone, rfl⟩ | ⟨inherited, hsome, rfl, hcompatible⟩
  · exact h.introduce ⟨t.owner, method⟩ hnone hslots
  · exact h.override ⟨t.owner, method⟩ hsome hslots hcompatible

/-- Methods that are declared one after another keep the table in agreement. -/
theorem addMethods (h : t.Resolves history) {methods : List MethodDecl}
    (hadd : t.addMethods methods = .ok t') :
    t'.Resolves (history ++ methods.map fun method => ⟨t.owner, method⟩) := by
  induction methods generalizing t history with
  | nil =>
    cases hadd
    simpa using h
  | cons method rest ih =>
    rw [addMethods_cons] at hadd
    obtain ⟨⟨next, placement⟩, hfirst, hrest⟩ := exists_eq_ok_of_bind hadd
    have howner := (addMethod_ok hfirst).1
    have hnext := ih (h.addMethod hfirst) hrest
    rw [howner, List.append_assoc] at hnext
    exact hnext

/-- The slot at a position is that of the method there, and its index is the position. -/
theorem of_atSlot? (h : t.Resolves history) {position : Nat} {name : String} {slot : MethodSlot}
    (hat : t.atSlot? position = some (name, slot)) :
    t.get? name = some slot ∧ slot.index = position := by
  have hget : t.get? name = some slot :=
    OrderedMap.get?_eq_some_of_mem h.nodup (List.mem_of_getElem? hat)
  have hname : t.names[position]? = some name := by
    unfold DispatchTable.names OrderedMap.keys
    rw [List.getElem?_map]
    exact congrArg (Option.map Prod.fst) hat
  obtain ⟨hlt, hname⟩ := List.getElem?_eq_some_iff.1 hname
  refine ⟨hget, ?_⟩
  rw [index_of_resolve? ((h.get?_eq name).symm.trans hget), ← h.names_eq, ← hname]
  exact h.nodup.idxOf_getElem position hlt

end DispatchTable.Resolves

/-! ## Chains -/

/-- The declarations of the upper part of a chain come first. -/
theorem exists_methodHistory_of_suffix {above origins : List Origin} (h : above <:+ origins) :
    ∃ later, methodHistory origins = methodHistory above ++ later := by
  obtain ⟨below, rfl⟩ := h
  induction below with
  | nil => exact ⟨[], (List.append_nil _).symm⟩
  | cons o rest ih =>
    obtain ⟨later, hlater⟩ := ih
    refine ⟨later ++ o.definition.methodDeclarations, ?_⟩
    rw [List.cons_append, methodHistory, hlater, List.append_assoc]

namespace Registry

variable {scope : Scope} {d : Descriptor} {origins : List Origin}

/-- The dispatch table of a class agrees with the declarations along its chain. -/
theorem Lineage.resolves (h : Lineage scope (some d) origins) :
    d.dispatch.Resolves (methodHistory origins) := by
  refine h.chain_induction (Q := fun d origins => d.dispatch.Resolves (methodHistory origins))
    ?_ ?_
  · intro o d hlink _
    obtain ⟨out, hout⟩ := hlink.exists_outline
    have hempty := DispatchTable.Resolves.empty o.definition.id
    have hadded := hempty.addMethods hout.dispatch_eq
    rw [hout.descriptor_eq]
    exact hadded
  · intro o p d above hlink _ _ ih
    obtain ⟨out, hout⟩ := hlink.exists_outline
    have hadded := (ih.derive o.definition.id).addMethods hout.dispatch_eq
    rw [hout.descriptor_eq]
    exact hadded

/-- The virtual table of a class is measured with the configuration of its registry. -/
theorem Lineage.config_eq {o : Origin} (h : Lineage scope (some d) (o :: origins)) :
    d.pointerSize = o.setup.config.pointerSize ∧
      d.vtableHeaderSize = o.setup.config.vtableHeaderSize := by
  obtain ⟨out, hout⟩ := h.link.1.exists_outline
  rw [hout.descriptor_eq]
  exact ⟨rfl, rfl⟩

/-- The slots of a class are counted from its dispatch table. -/
theorem Lineage.slotCount_eq (h : Lineage scope (some d) origins) :
    d.slotCount = d.dispatch.slotCount := by
  cases origins with
  | nil => cases h
  | cons o above =>
    obtain ⟨out, hout⟩ := h.link.1.exists_outline
    rw [hout.descriptor_eq]

/-- A class answers the index that its dispatch table has for a method. -/
theorem slotOf_eq_ok_iff {a : ClassLayout} {name : String} {index : Nat} :
    a.slotOf name = .ok index ↔ ∃ slot, a.dispatch.get? name = some slot ∧ slot.index = index := by
  unfold ClassLayout.slotOf ClassLayout.methodSlot
  cases a.dispatch.get? name with
  | none => simp [Except.map]
  | some slot => simp [Except.map]

/-- An ancestor resolves the methods that the upper part of the chain declares, and its count of
slots is that of its table. -/
theorem Lineage.resolves_ancestor (h : Lineage scope (some d) origins) {a : ClassLayout}
    (ha : a ∈ d.ancestors) : ∃ above later, methodHistory origins = above ++ later ∧
      a.dispatch.Resolves above ∧ a.slotCount = a.dispatch.slotCount := by
  obtain ⟨p, rest, rfl, hp, hsuffix⟩ := h.of_mem_ancestors ha
  obtain ⟨later, hlater⟩ := exists_methodHistory_of_suffix (hsuffix.trans (List.tail_suffix _))
  exact ⟨methodHistory rest, later, hlater, hp.resolves, hp.slotCount_eq⟩

/-- A method has the slot that an ancestor has for it. -/
theorem Lineage.slotOf_eq (h : Lineage scope (some d) origins) {a : ClassLayout}
    (ha : a ∈ d.ancestors) {name : String} {index : Nat} (hslot : a.slotOf name = .ok index) :
    d.slotOf name = .ok index := by
  obtain ⟨above, later, hhistory, hresolves, -⟩ := h.resolves_ancestor ha
  obtain ⟨slot, hget, rfl⟩ := slotOf_eq_ok_iff.1 hslot
  rw [hresolves.get?_eq] at hget
  obtain ⟨slot', hget', hindex⟩ := exists_resolve?_append hget later
  refine slotOf_eq_ok_iff.2 ⟨slot', ?_, hindex⟩
  rw [h.resolves.get?_eq, hhistory, hget']

/-- Along a chain that was built under one configuration, the slots of a class begin where the
virtual table of the parent ends. -/
theorem Lineage.ownSlotsOffset_eq (h : Lineage scope (some d) origins) {config : LayoutConfig}
    (hconfig : ∀ o ∈ origins, o.setup.config = config) {p : Descriptor} (hp : d.parent? = some p) :
    d.ownSlotsOffset = p.vtableSize := by
  cases origins with
  | nil => cases h
  | cons o rest =>
    obtain ⟨hlink, hparent⟩ := h.link
    rw [hp] at hlink hparent
    obtain ⟨out, hout⟩ := hlink.exists_outline
    have hown : d.ownSlotsOffset = Word.wrap
        (o.setup.config.vtableHeaderSize + p.slotCount * o.setup.config.pointerSize) := by
      rw [hout.descriptor_eq]
      rfl
    cases rest with
    | nil => cases hparent
    | cons o' rest =>
      obtain ⟨hpointer, hheader⟩ := hparent.config_eq
      rw [hconfig o' (by simp)] at hpointer hheader
      unfold ClassLayout.vtableSize
      rw [hown, hpointer, hheader, hconfig o List.mem_cons_self]

end Registry

end ObjectLayout
