import Mathlib.Data.List.Chain
import Mathlib.Data.List.TakeWhile
import ObjectLayout.Proofs.Ancestry

/-!
# Parents that descend from the class

A class cannot be put below a parent that has the class in its chain. What the refusal tells is the
chain of the parent from the root down to it, and then the class (`tellsDescent_of_reachable`).
Read backwards this begins with the class, its parent, the parent of that, and so on: the cycle, and
then what stands above the class in the chain. Read forwards it is a cycle only where the class is a
root and the parent the class itself or a child of it (`TellsDescent.isCycle_iff`). Otherwise it
leads from each class to one of its children, and begins with the root of the chain
(`grandchild_not_parentCycle`).
-/

set_option autoImplicit false

namespace ObjectLayout

variable {p : Descriptor} {cls : ClassId} {chain : List ClassId}

/-- With the class put below `p`, its parent is `p`, and the parent of any other class is the next
one in the chain of `p`. -/
def ParentBelow (p : Descriptor) (cls child parent : ClassId) : Prop :=
  if child = cls then parent = p.id else [child, parent] <:+: p.chainIds

/-- A path of classes from the class back to it, on which each one is followed by its parent. -/
structure ParentCycle (p : Descriptor) (cls : ClassId) (chain : List ClassId) : Prop where
  head_eq : chain.head? = some cls
  getLast_eq : chain.getLast? = some cls
  parents : chain.IsChain (ParentBelow p cls)

/-- The cycle that putting the class below `p` closes. -/
def descentCycle (p : Descriptor) (cls : ClassId) : List ClassId :=
  cls :: (p.chainIds.takeWhile (· ≠ cls) ++ [cls])

/-- How a class is refused that would be put below a descendant of itself. -/
structure TellsDescent (cls : ClassId) (p : Descriptor) (chain : List ClassId) : Prop where
  /-- The chain of the parent is told from the root on, and then the class. -/
  chain_eq : chain = p.chainIds.reverse ++ [cls]
  /-- There is a cycle, and what is told ends with it, in the other direction. -/
  parentCycle : ParentCycle p cls (descentCycle p cls)
  isSuffix : (descentCycle p cls).reverse <:+ chain
  /-- What is told is itself a cycle exactly when the class is a root, and is its own parent or the
  parent of its parent. -/
  isCycle_iff : ParentCycle p cls chain ↔ p.depth ≤ 1 ∧ p.chainIds.getLast? = some cls

/-- What comes before a class, with the class, is the front of the list. -/
theorem takeWhile_isPrefix {ids : List ClassId} (h : cls ∈ ids) :
    ids.takeWhile (· ≠ cls) ++ [cls] <+: ids := by
  induction ids with
  | nil => cases h
  | cons first rest ih =>
    by_cases hfirst : first = cls
    · simp [hfirst]
    · have hrest := ih ((List.mem_cons.1 h).resolve_left (Ne.symm hfirst))
      simpa [hfirst] using hrest

/-- What is told, read backwards, begins with the cycle. -/
theorem parentCycle_descentCycle (h : cls ∈ p.chainIds) :
    ParentCycle p cls (descentCycle p cls) := by
  obtain ⟨rest, hrest⟩ := takeWhile_isPrefix h
  have hchain : (p.chainIds.takeWhile (· ≠ cls) ++ [cls] ++ rest).IsChain
      fun child parent => [child, parent] <:+: p.chainIds := by
    rw [hrest]
    exact List.isChain_isInfix p.chainIds
  have hnext := hchain.left_of_append
  have hfree : ∀ child ∈ p.chainIds.takeWhile (· ≠ cls), child ≠ cls := by
    intro child hmem
    simpa using List.mem_takeWhile_imp hmem
  constructor
  · rfl
  · unfold descentCycle
    rw [← List.cons_append, List.getLast?_concat]
  · apply List.IsChain.cons
    · -- Only the last entry is the class itself, and nothing follows it.
      rw [List.isChain_append] at hnext ⊢
      obtain ⟨hbefore, hlast, hjoin⟩ := hnext
      refine ⟨hbefore.imp_of_mem_imp fun child parent hchild _ hadjacent => ?_, .singleton cls, ?_⟩
      · simpa [ParentBelow, hfree child hchild] using hadjacent
      · intro child hchild parent hparent
        have hmem := List.mem_of_mem_getLast? hchild
        simpa [ParentBelow, hfree child hmem] using hjoin child hchild parent hparent
    · intro first hfirst
      -- The chain of the parent begins with the parent, and so does its part up to the class.
      have hhead : (p.chainIds.takeWhile (· ≠ cls) ++ [cls]).head? = some p.id := by
        have hids : p.chainIds.head? = some p.id := rfl
        rw [← hrest] at hids
        simpa using hids
      rw [hhead, Option.mem_some_iff] at hfirst
      simp [ParentBelow, hfirst]

/-- What is told leads from the root down. It is a cycle only where that is as good as up. -/
theorem parentCycle_reverse_iff (hnodup : p.chainIds.Nodup) :
    ParentCycle p cls (p.chainIds.reverse ++ [cls]) ↔
      p.depth ≤ 1 ∧ p.chainIds.getLast? = some cls := by
  have hids : p.chainIds = p.id :: p.ancestors.map ClassLayout.id := rfl
  have hdepth : p.depth = (p.ancestors.map ClassLayout.id).length := (List.length_map _).symm
  rw [hdepth, hids]
  rw [hids] at hnodup
  constructor
  · intro h
    have hlast : (p.id :: p.ancestors.map ClassLayout.id).getLast? = some cls := by
      have hhead := h.head_eq
      rw [List.head?_append_of_ne_nil _ (by simp), List.head?_reverse] at hhead
      exact hhead
    refine ⟨?_, hlast⟩
    have hparents := h.parents
    -- The class is the root, and its child comes next. That should be the parent of the class,
    -- which is the other end of the chain.
    rcases List.eq_nil_or_concat' (p.ancestors.map ClassLayout.id) with hnil | ⟨above, root, habove⟩
    · simp [hnil]
    · rw [habove] at hlast hparents hnodup ⊢
      rw [← List.cons_append, List.getLast?_concat] at hlast
      cases hlast
      rcases List.eq_nil_or_concat' above with hnil | ⟨between, child, hbetween⟩
      · simp [hnil]
      · subst hbetween
        have hstep : ParentBelow p cls cls child := by
          have hstart : (p.id :: (between ++ [child] ++ [cls])).reverse ++ [cls] =
              cls :: child :: (between.reverse ++ [p.id, cls]) := by simp
          rw [hstart] at hparents
          exact hparents.rel
        have hchild : child = p.id := by simpa [ParentBelow] using hstep
        simp [hchild] at hnodup
  · rintro ⟨hle, hlast⟩
    match hlist : p.ancestors.map ClassLayout.id with
    | [] =>
      rw [hlist] at hlast
      have hid : p.id = cls := by simpa using hlast
      subst hid
      exact ⟨rfl, rfl, .cons_cons (by simp [ParentBelow]) (.singleton _)⟩
    | [root] =>
      rw [hlist] at hlast hnodup
      have hroot : root = cls := by simpa using hlast
      subst hroot
      have hne : p.id ≠ root := by simpa using hnodup
      refine ⟨rfl, rfl, .cons_cons (by simp [ParentBelow]) (.cons_cons ?_ (.singleton _))⟩
      simp [ParentBelow, hne, hids, hlist]
    | _ :: _ :: _ => simp [hlist] at hle

/-- In a chain that repeats no class the descent is told as it should be. -/
theorem tellsDescent_of_nodup (hnodup : p.chainIds.Nodup) (h : cls ∈ p.chainIds) :
    TellsDescent cls p (p.chainIds.reverse ++ [cls]) where
  chain_eq := rfl
  parentCycle := parentCycle_descentCycle h
  isSuffix := by
    have hreverse : p.chainIds.reverse ++ [cls] = (cls :: p.chainIds).reverse := by simp
    rw [hreverse, List.reverse_suffix]
    exact (List.prefix_cons_inj cls).2 (takeWhile_isPrefix h)
  isCycle_iff := parentCycle_reverse_iff hnodup

namespace Registry

variable {scope : Scope} {setup : RegistrySetup} {s : Registry} {definition : ClassDefinition}
  {given : Option Descriptor} {above : List Origin}

/-- Every parent that a build finds has a lineage, be it given or the class of a base. -/
theorem exists_lineage_of_collectParents (h : Reachable scope setup s)
    (hgiven : Lineage scope given above) (levels : Nat) {bases : List ClassId}
    {parents : List Descriptor}
    (hparents : ((collectParents setup (fun needed => buildNested setup levels needed none)
      given.toList bases).exec s).1 = .ok parents) (hmem : p ∈ parents) :
    ∃ origins, Lineage scope (some p) origins := by
  have hinvariant := (hereditary_true scope).invariant h.allows
  have hnested : ∀ needed, setup.definition? needed.id = some needed → ∀ s,
      (Reachable scope setup s ∧ ∀ cls e, s.get? cls = some e → True) →
      Recorded setup (fun s => Reachable scope setup s ∧ ∀ cls e, s.get? cls = some e → True) needed
        none s ((buildNested setup levels needed none).exec s) :=
    fun needed hdef s hs => buildNested_records hinvariant h.allows.keyed levels needed none
      (hinvariant.admits hdef) hs
  have hfollows := collectParents_follows bases
    (fun base _ s hs => resolve_records hinvariant h.allows.keyed hnested base hs)
    given.toList ⟨h, fun _ _ _ => trivial⟩
  rcases hrun : (collectParents setup (fun needed => buildNested setup levels needed none)
    given.toList bases).exec s with ⟨answer, t⟩
  rw [hrun] at hparents
  cases hparents
  have hknown := hfollows.answer_of_exec hrun (Grows.refl t)
  rcases Knowledge.mem_parents bases hknown hmem with hfound | ⟨base, hbase⟩
  · rw [Option.mem_toList.1 hfound] at hgiven
    exact ⟨above, hgiven⟩
  · exact (hfollows.holds_of_exec hrun).1.exists_lineage (get?_of_known_eq_some hbase)

/-- A build whose only parent descends from the class is refused with the chain of the parent. -/
theorem exec_fst_of_isSubtypeOf (hkeyed : setup.IsKeyed) {levels : Nat}
    (hvalid : definition.validate = .ok ()) (hfree : s.cycleThrough? definition.id = none)
    (habsent : s.get? definition.id = none)
    (hparents : ((collectParents setup (fun needed => buildNested setup levels needed none)
      given.toList definition.bases).exec (s.begin definition.id)).1 = .ok [p])
    (hdescends : p.isSubtypeOf definition.id = true) :
    ((buildNested setup (levels + 1) definition given).exec s).1 =
      .error (.cyclicDefinition definition.id (p.chainIds.reverse ++ [definition.id])) := by
  rw [exec_fst_buildNested hkeyed levels hvalid hfree habsent]
  unfold construct resolveParent
  rw [LayoutM.exec_bind, LayoutM.exec_bind]
  rcases hrun : (collectParents setup (fun needed => buildNested setup levels needed none)
    given.toList definition.bases).exec (s.begin definition.id) with ⟨answer, t⟩
  rw [hrun] at hparents
  cases hparents
  simp only [singleParent, hdescends, if_true, LayoutM.exec_liftM]

/-- A class whose only parent descends from it is refused, and this is what is told. -/
theorem tellsDescent_of_reachable (h : Reachable scope setup s) (hgiven : Lineage scope given above)
    {levels : Nat} (hvalid : definition.validate = .ok ())
    (hfree : s.cycleThrough? definition.id = none) (habsent : s.get? definition.id = none)
    (hparents : ((collectParents setup (fun needed => buildNested setup levels needed none)
      given.toList definition.bases).exec (s.begin definition.id)).1 = .ok [p])
    (hdescends : p.isSubtypeOf definition.id = true) :
    ∃ chain, ((buildNested setup (levels + 1) definition given).exec s).1 =
      .error (.cyclicDefinition definition.id chain) ∧ TellsDescent definition.id p chain := by
  have hbegin : Reachable scope setup (s.begin definition.id) := h.moment _ s.journal
  obtain ⟨origins, hlineage⟩ :=
    exists_lineage_of_collectParents hbegin hgiven levels hparents List.mem_cons_self
  have hmem : definition.id ∈ p.chainIds := List.contains_iff_mem.1 hdescends
  exact ⟨_, exec_fst_of_isSubtypeOf h.allows.keyed hvalid hfree habsent hparents hdescends,
    tellsDescent_of_nodup hlineage.nodup_chainIds hmem⟩

/-- In another registry the class stands between a root and the parent. -/
theorem tellsDescent_of_middle :
    ∃ setup s definition p above chain, Reachable .every setup s ∧
      Lineage .every (some p) above ∧ definition.validate = .ok () ∧
      s.cycleThrough? definition.id = none ∧ s.get? definition.id = none ∧
      ((collectParents setup (fun needed => buildNested setup 1 needed none)
        (some p).toList definition.bases).exec (s.begin definition.id)).1 = .ok [p] ∧
      p.isSubtypeOf definition.id = true ∧
      ((buildNested setup 2 definition (some p)).exec s).1 =
        .error (.cyclicDefinition definition.id chain) ∧ TellsDescent definition.id p chain := by
  let middle : ClassDefinition := { id := ⟨"Middle"⟩, bases := [⟨"Root"⟩] }
  let leaf : ClassDefinition := { id := ⟨"Leaf"⟩, bases := [⟨"Middle"⟩] }
  let s₁ := ((build {} { id := ⟨"Root"⟩ } none).exec ∅).2
  let s₂ := ((build {} middle none).exec s₁).2
  let s₃ := ((build {} leaf none).exec s₂).2
  have hallows : Scope.every.Allows {} := allows_of_valid trivial rfl
  have h₁ : Reachable .every {} s₁ := .build (nestingBound {}) (.empty hallows) trivial .nil
  have h₂ : Reachable .every {} s₂ := .build (nestingBound {}) h₁ trivial .nil
  have h₃ : Reachable .every {} s₃ := .build (nestingBound {}) h₂ trivial .nil
  have hleaf : (s₃.get? ⟨"Leaf"⟩).map (fun p => p.isSubtypeOf ⟨"Middle"⟩) = some true := by
    decide +kernel
  obtain ⟨p, hp, hdescends⟩ := Option.map_eq_some_iff.1 hleaf
  obtain ⟨above, habove⟩ := h₃.exists_lineage hp
  obtain ⟨chain, hchain⟩ : ∃ chain, ((buildNested {} 2 { id := ⟨"Middle"⟩ } (some p)).exec ∅).1 =
      .error (.cyclicDefinition ⟨"Middle"⟩ chain) ∧ TellsDescent ⟨"Middle"⟩ p chain :=
    tellsDescent_of_reachable (.empty hallows) habove rfl rfl rfl rfl hdescends
  exact ⟨{}, ∅, _, p, above, chain, .empty hallows, habove, rfl, rfl, rfl, rfl, hdescends, hchain⟩

/-- In another registry the parent is a grandchild of the class. What is told runs down from the
class to the parent: it is not a cycle in which each class is followed by its parent. -/
theorem grandchild_not_parentCycle :
    ∃ setup s definition p above chain, Reachable .every setup s ∧
      Lineage .every (some p) above ∧ definition.validate = .ok () ∧
      s.get? definition.id = none ∧ p.isSubtypeOf definition.id = true ∧
      ((build setup definition (some p)).exec s).1 =
        .error (.cyclicDefinition definition.id chain) ∧
      chain = [⟨"A"⟩, ⟨"B"⟩, ⟨"C"⟩, ⟨"A"⟩] ∧ ¬ ParentCycle p definition.id chain := by
  let child : ClassDefinition := { id := ⟨"B"⟩, bases := [⟨"A"⟩] }
  let grandchild : ClassDefinition := { id := ⟨"C"⟩, bases := [⟨"B"⟩] }
  let s₁ := ((build {} { id := ⟨"A"⟩ } none).exec ∅).2
  let s₂ := ((build {} child none).exec s₁).2
  let s₃ := ((build {} grandchild none).exec s₂).2
  have hallows : Scope.every.Allows {} := allows_of_valid trivial rfl
  have h₁ : Reachable .every {} s₁ := .build (nestingBound {}) (.empty hallows) trivial .nil
  have h₂ : Reachable .every {} s₂ := .build (nestingBound {}) h₁ trivial .nil
  have h₃ : Reachable .every {} s₃ := .build (nestingBound {}) h₂ trivial .nil
  have hids : (s₃.get? ⟨"C"⟩).map (fun p => p.chainIds) = some [⟨"C"⟩, ⟨"B"⟩, ⟨"A"⟩] := by
    decide +kernel
  obtain ⟨p, hp, hids⟩ := Option.map_eq_some_iff.1 hids
  obtain ⟨above, habove⟩ := h₃.exists_lineage hp
  have hdescends : p.isSubtypeOf ⟨"A"⟩ = true := by
    rw [Descriptor.isSubtypeOf, hids]
    rfl
  refine ⟨{}, ∅, { id := ⟨"A"⟩ }, p, above, [⟨"A"⟩, ⟨"B"⟩, ⟨"C"⟩, ⟨"A"⟩], .empty hallows, habove,
    rfl, rfl, hdescends, ?_, rfl, fun h => ?_⟩
  · have hanswer : ((buildNested {} 2 { id := ⟨"A"⟩ } (some p)).exec ∅).1 =
        .error (.cyclicDefinition ⟨"A"⟩ (p.chainIds.reverse ++ [⟨"A"⟩])) :=
      exec_fst_of_isSubtypeOf hallows.keyed rfl rfl rfl rfl hdescends
    rw [hids] at hanswer
    exact hanswer
  · have hfirst : ParentBelow p ⟨"A"⟩ ⟨"A"⟩ ⟨"B"⟩ := h.parents.rel
    have hid : p.id = ⟨"C"⟩ := (List.cons.inj hids).1
    rw [ParentBelow, if_pos rfl, hid] at hfirst
    exact absurd hfirst (by decide)

end Registry

end ObjectLayout
