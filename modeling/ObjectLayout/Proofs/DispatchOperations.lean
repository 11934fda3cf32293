import ObjectLayout.Proofs.InPlace
import ObjectLayout.Proofs.MethodResolution
import ObjectLayout.Proofs.Shelf

/-!
# Operations on dispatch tables

Dispatch tables are made empty, from methods or out of other tables, and are then changed in place,
where a declaration may be refused. Every table that comes about like this agrees with the
declarations that were accepted for it and for the tables from which it was derived
(`Tracked.Valid`, kept by `valid_of_result`). That is why a slot is where its index says, whatever
was refused in between, and why a method that was refused can be declared again
(`Tracked.Valid.keepsSlots`).
-/

set_option autoImplicit false

namespace ObjectLayout

open LayoutM (settle)

/-- A declaration fits a slot: where both state a signature, the two agree. -/
def MethodSlot.Accepts (slot : MethodSlot) (method : MethodDecl) : Prop :=
  ∀ expected found, slot.signature = some expected → method.signature = some found →
    expected = found

/-- A slot was changed in its body at most, or was given a signature where it had none. -/
structure MethodSlot.Keeps (old new : MethodSlot) : Prop where
  index_eq : new.index = old.index
  introducedBy_eq : new.introducedBy = old.introducedBy
  signature_eq : ∀ signature, old.signature = some signature → new.signature = some signature

/-- A slot keeps its own place. -/
theorem MethodSlot.Keeps.refl (slot : MethodSlot) : slot.Keeps slot := ⟨rfl, rfl, fun _ h => h⟩

/-- An override keeps the place of the slot. -/
theorem MethodSlot.keeps_overrideBy (slot : MethodSlot) (cls : ClassId) (method : MethodDecl) :
    slot.Keeps (slot.overrideBy cls method) where
  index_eq := rfl
  introducedBy_eq := rfl
  signature_eq := by
    intro signature hsignature
    unfold overrideBy
    rw [hsignature]
    rfl

namespace DispatchTable

variable {t t' : DispatchTable} {method : MethodDecl} {slot : MethodSlot} {placement : Placement}
  {error : LayoutError}

/-! ## One declaration -/

/-- A signature is refused exactly where both are stated and differ. -/
theorem checkSignature_eq_error_iff {owner : ClassId} :
    checkSignature owner slot method = .error error ↔ ∃ expected found,
      slot.signature = some expected ∧ method.signature = some found ∧ expected ≠ found ∧
      error = .methodSignatureMismatch owner method.name expected.text found.text := by
  unfold checkSignature
  cases hexpected : slot.signature with
  | none => simp
  | some expected =>
    cases hfound : method.signature with
    | none => simp
    | some found =>
      dsimp only
      by_cases hsame : expected.IsCompatible found
      · rw [if_pos hsame]
        constructor
        · intro h
          cases h
        · rintro ⟨_, _, he, hf, hne, -⟩
          cases he
          cases hf
          exact absurd hsame hne
      · rw [if_neg hsame]
        constructor
        · intro h
          cases h
          exact ⟨expected, found, rfl, rfl, hsame, rfl⟩
        · rintro ⟨_, _, he, hf, -, rfl⟩
          cases he
          cases hf
          rfl

/-- A method that the slot accepts passes the comparison of signatures. -/
theorem checkSignature_of_accepts (owner : ClassId) (h : slot.Accepts method) :
    checkSignature owner slot method = .ok () := by
  cases hcheck : checkSignature owner slot method with
  | ok _ => rfl
  | error error =>
    obtain ⟨expected, found, hexpected, hfound, hne, -⟩ := checkSignature_eq_error_iff.1 hcheck
    exact absurd (h expected found hexpected hfound) hne

/-- A name that is marked is refused. -/
theorem addMethod_of_declared (h : method.name ∈ t.declared) :
    t.addMethod method = .error (.duplicateName t.owner .methods method.name) := by
  unfold addMethod
  rw [if_pos h]

/-- A name that is neither marked nor taken gets a new slot. -/
theorem addMethod_of_none (hfresh : method.name ∉ t.declared) (hnone : t.get? method.name = none) :
    t.addMethod method =
      .ok ({ t with
              slots := t.slots.insert method.name
                { index := t.slotCount
                  signature := method.signature
                  implementation := method.symbolIn t.owner
                  definedIn := t.owner
                  introducedBy := t.owner }
              declared := method.name :: t.declared }, .introducing t.slotCount) := by
  unfold addMethod
  rw [if_neg hfresh, hnone]

/-- What a declaration does that is accepted: it changes the entry of its method, and of this one
only what is stated about the body, and the signature if there was none. -/
structure Places (t t' : DispatchTable) (method : MethodDecl) (placement : Placement) : Prop where
  owner_eq : t'.owner = t.owner
  declared_eq : t'.declared = method.name :: t.declared
  /-- The names stay in their order, and a new one comes last. -/
  names_eq : t'.names =
    if method.name ∈ t.names then t.names else t.names ++ [method.name]
  /-- The method has a slot with the body that was declared. -/
  placed : ∃ new, t'.get? method.name = some new ∧ new.index = placement.slot ∧
    new.implementation = method.symbolIn t.owner ∧ new.definedIn = t.owner ∧
    new.signature = ((t.get? method.name).bind MethodSlot.signature <|> method.signature)
  /-- The entries of the other methods are the same. -/
  others : ∀ name, name ≠ method.name → t'.get? name = t.get? name
  /-- A slot keeps its index, the class that introduced it and the signature that it has. -/
  kept : ∀ name old, t.get? name = some old → ∃ new, t'.get? name = some new ∧ old.Keeps new

/-- Where all slots but that of the declared method are the same, only this one has to be looked
at. -/
theorem kept_of_others (hothers : ∀ name, name ≠ method.name → t'.get? name = t.get? name)
    (hself : ∀ old, t.get? method.name = some old →
      ∃ new, t'.get? method.name = some new ∧ old.Keeps new) :
    ∀ name old, t.get? name = some old → ∃ new, t'.get? name = some new ∧ old.Keeps new := by
  intro name old hold
  by_cases hname : name = method.name
  · rw [hname] at hold ⊢
    exact hself old hold
  · exact ⟨old, (hothers name hname).trans hold, .refl old⟩

/-- A method that is accepted is marked, and its slot is the one that is answered. -/
theorem declared_of_addMethod (hadd : t.addMethod method = .ok (t', placement)) :
    t'.declared = method.name :: t.declared ∧
      ∃ slot, t'.get? method.name = some slot ∧ slot.index = placement.slot := by
  by_cases hdeclared : method.name ∈ t.declared
  · rw [addMethod_of_declared hdeclared] at hadd
    cases hadd
  · cases hget : t.get? method.name with
    | none =>
      rw [addMethod_of_none hdeclared hget] at hadd
      cases hadd
      exact ⟨rfl, _, OrderedMap.get?_insert_self _ _ _, rfl⟩
    | some slot =>
      rw [addMethod_of_some hdeclared hget] at hadd
      obtain ⟨-, -, heq⟩ := LayoutM.exists_eq_ok_of_map hadd
      cases heq
      exact ⟨rfl, _, OrderedMap.get?_insert_self _ _ _, rfl⟩

/-- A method that is accepted is placed, and moves no other method. -/
theorem places_of_addMethod (hadd : t.addMethod method = .ok (t', placement)) :
    Places t t' method placement := by
  obtain ⟨howner, slot, hslots, hslot⟩ := Resolves.addMethod_ok hadd
  obtain ⟨hdeclared, placed, hplaced, hindex⟩ := declared_of_addMethod hadd
  obtain ⟨hself, hother⟩ := Resolves.get?_of_slots hslots
  have hothers : ∀ name, name ≠ method.name → t'.get? name = t.get? name :=
    fun name hne => hother name hne.symm
  rw [hself] at hplaced
  cases hplaced
  rcases hslot with ⟨hnone, rfl⟩ | ⟨inherited, hsome, rfl, -⟩
  · have hnew : method.name ∉ t.names := OrderedMap.get?_eq_none_iff.1 hnone
    refine ⟨howner, hdeclared, ?_, ⟨_, hself, hindex, rfl, rfl, ?_⟩, hothers, ?_⟩
    · rw [if_neg hnew]
      exact (congrArg OrderedMap.keys hslots).trans (OrderedMap.keys_insert_of_none hnone _)
    · rw [hnone]
      rfl
    · apply kept_of_others hothers
      intro old hold
      rw [hnone] at hold
      cases hold
  · have hold : method.name ∈ t.names := OrderedMap.mem_keys_of_get?_eq_some hsome
    refine ⟨howner, hdeclared, ?_, ⟨_, hself, hindex, rfl, rfl, ?_⟩, hothers, ?_⟩
    · rw [if_pos hold]
      exact (congrArg OrderedMap.keys hslots).trans (OrderedMap.keys_insert_of_some hsome _)
    · rw [hsome]
      rfl
    · apply kept_of_others hothers
      intro old hold
      rw [hsome] at hold
      cases hold
      exact ⟨_, hself, inherited.keeps_overrideBy t.owner method⟩

/-! ## Tables with what was accepted -/

/-- A table with the names of the methods that were accepted from its owner since it was made. -/
structure Tracked where
  table : DispatchTable
  accepted : List String := []

namespace Tracked

/-- Declares a method in place. If it is refused, the table is left as the refusal leaves it. -/
def tryMethod (t : Tracked) (method : MethodDecl) : Tracked :=
  match (addMethodInPlace method).exec t.table with
  | (.ok _, table) => ⟨table, method.name :: t.accepted⟩
  | (.error _, table) => ⟨table, t.accepted⟩

/-- Declares methods in place, one after another, whatever is refused. -/
def tryMethods (t : Tracked) (methods : List MethodDecl) : Tracked := methods.foldl tryMethod t

/-- The table agrees with a list of declarations, and marks the methods that were accepted. -/
structure Valid (t : Tracked) : Prop where
  resolves : ∃ history, t.table.Resolves history
  mem_declared_iff : ∀ name, name ∈ t.table.declared ↔ name ∈ t.accepted
  mem_names : ∀ name ∈ t.accepted, name ∈ t.table.names

/-- Why a method is refused. -/
inductive Refuses (t : Tracked) (method : MethodDecl) : LayoutError → Prop where
  /-- The owner has declared the method already. -/
  | duplicate (h : method.name ∈ t.accepted) :
      Refuses t method (.duplicateName t.table.owner .methods method.name)
  /-- The slot and the declaration state different signatures. -/
  | mismatch {slot : MethodSlot} {expected found : MethodSignature}
      (hnew : method.name ∉ t.accepted) (hslot : t.table.get? method.name = some slot)
      (hexpected : slot.signature = some expected) (hfound : method.signature = some found)
      (hne : expected ≠ found) :
      Refuses t method
        (.methodSignatureMismatch t.table.owner method.name expected.text found.text)

/-- What is asked of a dispatch table: its slots are where their indices say, a method is refused
for one of two reasons and without a trace, and is placed otherwise. -/
structure KeepsSlots (t : Tracked) : Prop where
  nodup_names : t.table.names.Nodup
  /-- The index of a slot is the position of its method. -/
  index_eq : ∀ name slot, t.table.get? name = some slot → slot.index = t.table.names.idxOf name
  /-- The slot of a method is found at its index. -/
  atSlot?_index : ∀ name slot, t.table.get? name = some slot →
    slot.index < t.table.slotCount ∧ t.table.atSlot? slot.index = some (name, slot)
  /-- At each index there is the slot of a method, which is found by its name. -/
  exists_atSlot? : ∀ index, index < t.table.slotCount → ∃ name slot,
    t.table.atSlot? index = some (name, slot) ∧ t.table.get? name = some slot ∧ slot.index = index
  /-- What was accepted is in the table. -/
  mem_names : ∀ name ∈ t.accepted, name ∈ t.table.names
  refused_iff : ∀ method error,
    ((addMethodInPlace method).exec t.table).1 = .error error ↔ t.Refuses method error
  /-- A refusal changes nothing. -/
  unchanged : ∀ method error, ((addMethodInPlace method).exec t.table).1 = .error error →
    ((addMethodInPlace method).exec t.table).2 = t.table
  /-- What is not refused is placed. -/
  places : ∀ method placement, ((addMethodInPlace method).exec t.table).1 = .ok placement →
    Places t.table ((addMethodInPlace method).exec t.table).2 method placement
  /-- After tries that do not fit its slot, and whatever is declared of other methods, a method is
  placed by a declaration that fits. -/
  retry : ∀ method slot tries, method.name ∉ t.accepted →
    t.table.get? method.name = some slot → slot.Accepts method →
    (∀ other ∈ tries, other.name = method.name → ¬ slot.Accepts other) →
    ((addMethodInPlace method).exec (t.tryMethods tries).table).1 = .ok (.overriding slot.index)

variable {t : Tracked}

/-- A method that is accepted is remembered. -/
theorem tryMethod_of_ok (h : t.table.addMethod method = .ok (t', placement)) :
    t.tryMethod method = ⟨t', method.name :: t.accepted⟩ := by
  unfold tryMethod
  rw [exec_addMethodInPlace, h]
  rfl

/-- A method that is refused changes nothing. -/
theorem tryMethod_of_error (h : t.table.addMethod method = .error error) :
    t.tryMethod method = t := by
  unfold tryMethod
  rw [exec_addMethodInPlace, h]
  rfl

/-! ### What the operations keep -/

namespace Valid

/-- The empty table is valid, and nothing has been accepted for it. -/
theorem empty (owner : ClassId) : Valid ⟨.empty owner, []⟩ where
  resolves := ⟨[], .empty owner⟩
  mem_declared_iff := fun _ => Iff.rfl
  mem_names := fun _ h => nomatch h

/-- A table that is derived from a valid one is valid, and nothing has been accepted for it. -/
theorem derive (h : t.Valid) (owner : ClassId) : Valid ⟨t.table.derive owner, []⟩ where
  resolves :=
    let ⟨history, hresolves⟩ := h.resolves
    ⟨history, hresolves.derive owner⟩
  mem_declared_iff := fun _ => Iff.rfl
  mem_names := fun _ h => nomatch h

/-- A valid table stays valid with a method that it accepts. -/
theorem addMethod (h : t.Valid) (hadd : t.table.addMethod method = .ok (t', placement)) :
    Valid ⟨t', method.name :: t.accepted⟩ := by
  obtain ⟨history, hresolves⟩ := h.resolves
  have hplaces := places_of_addMethod hadd
  constructor
  · exact ⟨_, hresolves.addMethod hadd⟩
  · intro name
    rw [hplaces.declared_eq, List.mem_cons, List.mem_cons, h.mem_declared_iff]
  · intro name hname
    rw [hplaces.names_eq]
    split
    · next hold =>
      rcases List.mem_cons.1 hname with rfl | hname
      · exact hold
      · exact h.mem_names name hname
    · rcases List.mem_cons.1 hname with rfl | hname
      · exact List.mem_append_right _ List.mem_cons_self
      · exact List.mem_append_left _ (h.mem_names name hname)

/-- A valid table stays valid whether it accepts a method or not. -/
theorem tryMethod (h : t.Valid) (method : MethodDecl) : (t.tryMethod method).Valid := by
  cases hadd : t.table.addMethod method with
  | error error =>
    rw [tryMethod_of_error hadd]
    exact h
  | ok placed =>
    rw [tryMethod_of_ok hadd]
    exact h.addMethod hadd

/-- A valid table stays valid with methods that it accepts one after another. -/
theorem addMethods {methods : List MethodDecl} (h : t.Valid)
    (hadd : t.table.addMethods methods = .ok t') :
    Valid ⟨t', (methods.map MethodDecl.name).reverse ++ t.accepted⟩ := by
  induction methods generalizing t with
  | nil =>
    cases hadd
    exact h
  | cons method rest ih =>
    rw [addMethods_cons] at hadd
    obtain ⟨⟨next, placement⟩, hfirst, hrest⟩ := LayoutM.exists_eq_ok_of_bind hadd
    have hvalid := ih (h.addMethod hfirst) hrest
    rw [List.map_cons, List.reverse_cons, List.append_assoc]
    exact hvalid

/-! ### What follows for the slots -/

/-- A valid table repeats no name. -/
theorem nodup_names (h : t.Valid) : t.table.names.Nodup :=
  let ⟨_, hresolves⟩ := h.resolves
  hresolves.nodup

/-- The index of a slot is the position of its name. -/
theorem index_eq (h : t.Valid) {name : String} (hslot : t.table.get? name = some slot) :
    slot.index = t.table.names.idxOf name := by
  obtain ⟨history, hresolves⟩ := h.resolves
  rw [index_of_resolve? ((hresolves.get?_eq name).symm.trans hslot), hresolves.names_eq]

/-- What stands at a position is found by its name, and has the position as its index. -/
theorem get?_of_atSlot? (h : t.Valid) {index : Nat} {name : String}
    (hat : t.table.atSlot? index = some (name, slot)) :
    t.table.get? name = some slot ∧ slot.index = index :=
  let ⟨_, hresolves⟩ := h.resolves
  hresolves.of_atSlot? hat

/-- At every position below the number of slots there is a slot with that index. -/
theorem exists_atSlot? (h : t.Valid) {index : Nat} (hindex : index < t.table.slotCount) :
    ∃ name slot, t.table.atSlot? index = some (name, slot) ∧ t.table.get? name = some slot ∧
      slot.index = index := by
  have hat : t.table.atSlot? index = some (t.table.slots.toList.get ⟨index, hindex⟩) :=
    List.getElem?_eq_getElem hindex
  exact ⟨_, _, hat, h.get?_of_atSlot? hat⟩

/-- The slot of a name stands at its index. -/
theorem atSlot?_index (h : t.Valid) {name : String} (hslot : t.table.get? name = some slot) :
    slot.index < t.table.slotCount ∧ t.table.atSlot? slot.index = some (name, slot) := by
  obtain ⟨index, hlt, hentry⟩ :=
    List.mem_iff_getElem.1 (OrderedMap.mem_toList_of_get?_eq_some hslot)
  have hat : t.table.atSlot? index = some (name, slot) :=
    (List.getElem?_eq_getElem hlt).trans (congrArg some hentry)
  obtain ⟨-, hindex⟩ := h.get?_of_atSlot? hat
  rw [hindex]
  exact ⟨hlt, hat⟩

/-! ### What follows for further declarations -/

/-- A valid table refuses a method exactly for the reasons that its declarations give. -/
theorem addMethod_eq_error_iff (h : t.Valid) :
    t.table.addMethod method = .error error ↔ t.Refuses method error := by
  by_cases haccepted : method.name ∈ t.accepted
  · rw [addMethod_of_declared ((h.mem_declared_iff _).2 haccepted)]
    constructor
    · intro heq
      cases heq
      exact .duplicate haccepted
    · intro hrefuses
      cases hrefuses with
      | duplicate => rfl
      | mismatch hnew => exact absurd haccepted hnew
  · have hfresh : method.name ∉ t.table.declared :=
      fun hmem => haccepted ((h.mem_declared_iff _).1 hmem)
    cases hget : t.table.get? method.name with
    | none =>
      rw [addMethod_of_none hfresh hget]
      constructor
      · intro heq
        cases heq
      · intro hrefuses
        cases hrefuses with
        | duplicate hmem => exact absurd hmem haccepted
        | mismatch _ hslot =>
          rw [hget] at hslot
          cases hslot
    | some slot =>
      have hcheck : t.table.addMethod method = .error error ↔
          checkSignature t.table.owner slot method = .error error := by
        rw [addMethod_of_some hfresh hget]
        cases checkSignature t.table.owner slot method <;> simp [Except.map]
      rw [hcheck, checkSignature_eq_error_iff]
      constructor
      · rintro ⟨expected, found, hexpected, hfound, hne, rfl⟩
        exact .mismatch haccepted hget hexpected hfound hne
      · intro hrefuses
        cases hrefuses with
        | duplicate hmem => exact absurd hmem haccepted
        | mismatch _ hslot hexpected hfound hne =>
          rw [hget] at hslot
          cases hslot
          exact ⟨_, _, hexpected, hfound, hne, rfl⟩

/-- A method that was not accepted can still be declared. -/
theorem addMethod_of_accepts (h : t.Valid) (hnew : method.name ∉ t.accepted)
    (hslot : t.table.get? method.name = some slot) (haccepts : slot.Accepts method) :
    ∃ t', t.table.addMethod method = .ok (t', .overriding slot.index) := by
  have hfresh : method.name ∉ t.table.declared :=
    fun hmem => hnew ((h.mem_declared_iff _).1 hmem)
  rw [addMethod_of_some hfresh hslot, checkSignature_of_accepts _ haccepts]
  exact ⟨_, rfl⟩

/-- Tries that do not fit the slot of a method leave it open. -/
theorem open_after (h : t.Valid) {name : String} {tries : List MethodDecl}
    (hnew : name ∉ t.accepted) (hslot : t.table.get? name = some slot)
    (htries : ∀ other ∈ tries, other.name = name → ¬ slot.Accepts other) :
    (t.tryMethods tries).Valid ∧ name ∉ (t.tryMethods tries).accepted ∧
      (t.tryMethods tries).table.get? name = some slot := by
  induction tries generalizing t with
  | nil => exact ⟨h, hnew, hslot⟩
  | cons other rest ih =>
    have hrest : ∀ other ∈ rest, other.name = name → ¬ slot.Accepts other :=
      fun method hmethod => htries method (List.mem_cons_of_mem _ hmethod)
    have hstep : name ∉ (t.tryMethod other).accepted ∧
        (t.tryMethod other).table.get? name = some slot := by
      cases hadd : t.table.addMethod other with
      | error error =>
        rw [tryMethod_of_error hadd]
        exact ⟨hnew, hslot⟩
      | ok placed =>
        have hne : name ≠ other.name := by
          rintro rfl
          apply htries other List.mem_cons_self rfl
          intro expected found hexpected hfound
          by_contra hdiffer
          rw [h.addMethod_eq_error_iff.2 (.mismatch hnew hslot hexpected hfound hdiffer)] at hadd
          cases hadd
        rw [tryMethod_of_ok hadd]
        refine ⟨?_, ((places_of_addMethod hadd).others name hne).trans hslot⟩
        rw [List.mem_cons]
        rintro (heq | hold)
        · exact hne heq
        · exact hnew hold
    exact ih (h.tryMethod other) hstep.1 hstep.2 hrest

/-- A table that agrees with declarations has all that is asked of it. -/
theorem keepsSlots (h : t.Valid) : t.KeepsSlots where
  nodup_names := h.nodup_names
  index_eq := fun _ _ => h.index_eq
  atSlot?_index := fun _ _ => h.atSlot?_index
  exists_atSlot? := fun _ => h.exists_atSlot?
  mem_names := h.mem_names
  refused_iff := by
    intro method error
    rw [exec_addMethodInPlace, ← h.addMethod_eq_error_iff]
    cases t.table.addMethod method <;> simp [settle]
  unchanged := by
    intro method error hanswer
    rw [exec_addMethodInPlace] at hanswer ⊢
    cases hadd : t.table.addMethod method with
    | error _ => rfl
    | ok placed =>
      rw [hadd] at hanswer
      cases hanswer
  places := by
    intro method placement hanswer
    rw [exec_addMethodInPlace] at hanswer ⊢
    cases hadd : t.table.addMethod method with
    | error _ =>
      rw [hadd] at hanswer
      cases hanswer
    | ok placed =>
      rw [hadd] at hanswer
      cases hanswer
      exact places_of_addMethod hadd
  retry := by
    intro method slot tries hnew hslot haccepts htries
    obtain ⟨hvalid, hnew, hslot⟩ := h.open_after hnew hslot htries
    obtain ⟨t', hadd⟩ := hvalid.addMethod_of_accepts hnew hslot haccepts
    rw [exec_addMethodInPlace, hadd]
    rfl

end Valid

end Tracked

/-! ## Runs -/

/-- What can be done with dispatch tables under names. -/
inductive Operation where
  /-- A table without methods is made. -/
  | empty (owner : ClassId)
  /-- A table is made from methods. -/
  | ofList (owner : ClassId) (methods : List MethodDecl)
  /-- A table is derived from the one under a name. -/
  | derive (source : String) (owner : ClassId)
  /-- A method is declared in the table, be it accepted or refused. -/
  | addMethod (method : MethodDecl)

/-- What is under a name after an operation that is aimed at it, if the operation makes or changes
anything. -/
def Operation.result (s : Shelf Tracked) (target : String) : Operation → Option Tracked
  | empty owner => some ⟨.empty owner, []⟩
  | ofList owner methods =>
    match DispatchTable.ofList owner methods with
    | .ok table => some ⟨table, (methods.map MethodDecl.name).reverse⟩
    | .error _ => none
  | derive source owner => (s.get? source).map fun t => ⟨t.table.derive owner, []⟩
  | addMethod method => (s.get? target).map fun t => t.tryMethod method

/-- The tables under names after a list of operations, each aimed at one name. -/
def after (steps : List (String × Operation)) : Shelf Tracked := Shelf.run Operation.result ∅ steps

/-- Every operation makes a table that agrees with declarations out of such tables. -/
theorem valid_of_result (s : Shelf Tracked) (target : String) (operation : Operation) (t : Tracked)
    (hs : s.Holds Tracked.Valid) (h : operation.result s target = some t) : t.Valid := by
  cases operation with
  | empty owner =>
    cases h
    exact .empty owner
  | ofList owner methods =>
    cases hlist : DispatchTable.ofList owner methods with
    | error error => simp [Operation.result, hlist] at h
    | ok table =>
      have hvalid := (Tracked.Valid.empty owner).addMethods hlist
      simp only [Operation.result, hlist, Option.some.injEq] at h
      rw [← h, ← List.append_nil (List.reverse _)]
      exact hvalid
  | derive source owner =>
    obtain ⟨u, hsource, rfl⟩ := Option.map_eq_some_iff.1 h
    exact (hs source u hsource).derive owner
  | addMethod method =>
    obtain ⟨u, htarget, rfl⟩ := Option.map_eq_some_iff.1 h
    exact (hs target u htarget).tryMethod method

variable {steps : List (String × Operation)} {name : String} {t : Tracked}

/-- Every table that operations have made is valid. -/
theorem valid_of_get?_after (h : (after steps).get? name = some t) : t.Valid :=
  Shelf.holds_run valid_of_result (Shelf.holds_empty _) steps name t h

/-- What holds of the table that operations leave under a name. -/
structure SoundAt (steps : List (String × Operation)) (name : String) (t : Tracked) : Prop where
  keepsSlots : t.KeepsSlots
  /-- What is done under other names does not change it, be it with tables derived from it. -/
  unchanged : ∀ later, (∀ step ∈ later, name ≠ step.1) →
    (after (steps ++ later)).get? name = some t
  /-- A table that is derived from it has the same slots, and none of its marks. -/
  derived : ∀ target owner, (after (steps ++ [(target, .derive name owner)])).get? target =
    some ⟨t.table.derive owner, []⟩

/-- Every table that comes about by operations keeps its slots, and is not changed through another
one. -/
theorem keepsSlots_of_operations (h : (after steps).get? name = some t) :
    SoundAt steps name t where
  keepsSlots := (valid_of_get?_after h).keepsSlots
  unchanged := by
    intro later hlater
    unfold after at h ⊢
    rw [Shelf.run_append, Shelf.get?_run_of_forall_ne hlater, h]
  derived := by
    intro target owner
    unfold after at h ⊢
    rw [Shelf.run_append]
    apply Shelf.get?_perform_self
    simp only [Operation.result, h, Option.map_some]

/-- A subclass declares an inherited method with another signature, which is refused, then a method
of its own, and the inherited method once more without a signature. -/
theorem keepsSlots_of_refused_override :
    ∃ steps t, (after steps).get? "sub" = some t ∧ t.accepted = ["close", "open"] ∧
      t.table.names = ["close", "open"] ∧ SoundAt steps "sub" t := by
  let unary : MethodSignature := { params := [.object], returns := .object }
  let binary : MethodSignature := { params := [.object, .object], returns := .object }
  let steps : List (String × Operation) :=
    [("base", .ofList ⟨"Base"⟩ [{ name := "close", signature := unary }]),
      ("sub", .derive "base" ⟨"Sub"⟩),
      ("sub", .addMethod { name := "close", signature := binary }),
      ("sub", .addMethod { name := "open", signature := binary }),
      ("sub", .addMethod { name := "close" })]
  have hafter : ((after steps).get? "sub").map (fun t => (t.accepted, t.table.names)) =
      some (["close", "open"], ["close", "open"]) := by
    decide +kernel
  obtain ⟨t, ht, hnames⟩ := Option.map_eq_some_iff.1 hafter
  obtain ⟨haccepted, hnames⟩ := Prod.mk.inj hnames
  exact ⟨steps, t, ht, haccepted, hnames, keepsSlots_of_operations ht⟩

end DispatchTable

end ObjectLayout
