import ObjectLayout.Proofs.Lineage
import ObjectLayout.Proofs.Runs

/-!
# Which parent a class gets

The parent of a class is the one that is given with it or the class of one of its bases. Both ways
are compared by identity alone: a base whose class bears the identity of the given parent counts as
that parent, even if it is another descriptor (`parent_of_base`). Where no parent is given, the
parent is the very descriptor of the base, since a registry has one descriptor for an identity
(`Reachable.isKeyed`).
-/

set_option autoImplicit false

namespace ObjectLayout

open LayoutM (exists_eq_ok_of_bind)

namespace Knowledge

variable {known : Knowledge} {decl : ClassDecl} {given parent : Option Descriptor}
  {base : ClassId} {p q : Descriptor}

/-- The descriptor that is known of a class is one of that class. -/
def IsNamed (known : Knowledge) : Prop := ∀ ⦃cls d⦄, known cls = .ok (some d) → d.id = cls

/-- No parent that was found is dropped, and every base that is an extension type is among the
parents by its identity. -/
theorem mem_ids_of_parents (bases : List ClassId) {found ps : List Descriptor}
    (h : known.parents found bases = .ok ps) :
    found <+: ps ∧ ∀ base ∈ bases, ∀ q, known base = .ok (some q) →
      q.id ∈ ps.map fun p => p.id := by
  induction bases generalizing found with
  | nil =>
    cases h
    exact ⟨List.prefix_refl _, fun _ h => nomatch h⟩
  | cons first rest ih =>
    unfold parents at h
    obtain ⟨answer, hanswer, h⟩ := exists_eq_ok_of_bind h
    cases answer with
    | none =>
      obtain ⟨hkept, hrest⟩ := ih h
      refine ⟨hkept, List.forall_mem_cons.2 ⟨fun q hq => ?_, hrest⟩⟩
      cases hanswer.symm.trans hq
    | some descriptor =>
      by_cases hmem : descriptor.id ∈ found.map fun p => p.id
      · simp only [hmem, if_true] at h
        obtain ⟨hkept, hrest⟩ := ih h
        refine ⟨hkept, List.forall_mem_cons.2 ⟨fun q hq => ?_, hrest⟩⟩
        cases hanswer.symm.trans hq
        exact (hkept.map fun p => p.id).subset hmem
      · simp only [hmem, if_false] at h
        obtain ⟨hkept, hrest⟩ := ih h
        refine ⟨(List.prefix_append _ _).trans hkept,
          List.forall_mem_cons.2 ⟨fun q hq => ?_, hrest⟩⟩
        cases hanswer.symm.trans hq
        exact List.mem_map.2 ⟨_, hkept.subset (List.mem_append_right _ (by simp)), rfl⟩

/-- A given parent is the parent. -/
theorem parent_of_given (h : known.parent decl (some p) = .ok parent) : parent = some p := by
  obtain ⟨ps, hps, hsingle⟩ := exists_eq_ok_of_bind h
  obtain ⟨rfl, -⟩ := Registry.of_singleParent_eq_ok hsingle
  have hkept := (mem_ids_of_parents decl.bases hps).1
  exact Option.mem_toList.1 (hkept.subset List.mem_cons_self)

/-- A base that is an extension type bears the identity of the parent, and it is the parent unless a
parent is given. -/
theorem parent_of_base (hnamed : known.IsNamed) (h : known.parent decl given = .ok parent)
    (hbase : base ∈ decl.bases) (hq : known base = .ok (some q)) :
    ∃ p, parent = some p ∧ p.id = base ∧ (given = some p ∨ p = q) := by
  obtain ⟨ps, hps, hsingle⟩ := exists_eq_ok_of_bind h
  obtain ⟨rfl, -⟩ := Registry.of_singleParent_eq_ok hsingle
  obtain ⟨p, hp, hid⟩ := List.mem_map.1 ((mem_ids_of_parents decl.bases hps).2 base hbase q hq)
  rw [hnamed hq] at hid
  refine ⟨p, Option.mem_toList.1 hp, hid, ?_⟩
  rcases mem_parents decl.bases hps hp with hgiven | ⟨other, hother⟩
  · exact .inl (Option.mem_toList.1 hgiven)
  · -- The parent was found under its own identity, which is that of the base.
    have hsame := hnamed hother
    rw [hid] at hsame
    subst hsame
    cases hother.symm.trans hq
    exact .inr rfl

end Knowledge

namespace Registry

variable {scope : Scope} {setup : RegistrySetup} {s : Registry}

/-- What a keyed registry knows bears its own identity. -/
theorem isNamed_known (h : IsKeyed s) : (s.known setup).IsNamed := by
  intro cls d hknown
  exact h (get?_of_known_eq_some hknown)

/-- A registry to which builds lead has every descriptor under its own identity. -/
theorem Reachable.isKeyed (h : Reachable scope setup s) : IsKeyed s := by
  refine @Reachable.rec scope (fun _ s _ => IsKeyed s) (fun _ _ _ => True) ?_ ?_ ?_ ?_ ?_ _ _ h
  · exact fun _ => isKeyed_empty
  · exact fun _ _ _ ih => ih
  · intro setup s definition given _ levels h _ _ ih _
    exact (buildNested_records (keyed_invariant setup) h.allows.keyed levels definition given
      trivial ih).holds
  · trivial
  · exact fun _ _ _ _ _ _ _ _ _ _ => trivial

/-- A build in a registry that can be reached records what it publishes. -/
theorem Reachable.records (h : Reachable scope setup s) (levels : Nat)
    (definition : ClassDefinition) (given : Option Descriptor) :
    Recorded setup IsKeyed definition given s
      ((buildNested setup levels definition given).exec s) :=
  buildNested_records (keyed_invariant setup) h.allows.keyed levels definition given trivial
    h.isKeyed

end Registry

end ObjectLayout
