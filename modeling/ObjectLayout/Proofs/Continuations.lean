import ObjectLayout.Proofs.Growth

/-!
# Continuing a registry

A registry goes on with builds that its classes in progress ask for, and each of them puts further
classes in progress for a while. `Continues` holds of all registries that this can lead to. What one
of them has built every other one can build (`Grown.rebuilds`), so that a build made before never
saves a later one from an error, and a build never fails for what another one has registered: the
answer to a question is the same in all continuations (`resolve_settled_from`).
-/

set_option autoImplicit false

namespace ObjectLayout.Registry

open LayoutM (Frame Follows bind_eq_ok)

variable {setup : RegistrySetup} {s t u : Registry} {stack : List ClassId} {cls : ClassId}
  {definition : ClassDefinition} {parent : Option Descriptor} {d : Descriptor} {levels : Nat}

/-! ## Stacks -/

/-- A stack to which a class is added that is not on it repeats no class. -/
theorem nodup_push {stack : List ClassId} (h : stack.Nodup) {cls : ClassId} (hcls : cls ∉ stack) :
    (stack ++ [cls]).Nodup := by
  refine List.nodup_append.2 ⟨h, by simp, ?_⟩
  rintro other hother last hlast rfl
  rw [List.mem_singleton.1 hlast] at hother
  exact hcls hother

/-- Classes of the source, each in progress once. -/
structure IsStack (setup : RegistrySetup) (stack : List ClassId) : Prop where
  nodup : stack.Nodup
  defines : ∀ cls ∈ stack, setup.Defines cls

/-- The empty stack is a stack of the source. -/
theorem isStack_nil (setup : RegistrySetup) : IsStack setup [] where
  nodup := List.nodup_nil
  defines := fun _ h => nomatch h

/-- A class of the source can be put on a stack that it is not on. -/
theorem IsStack.push {stack : List ClassId} (h : IsStack setup stack) {cls : ClassId}
    (hdef : setup.Defines cls) (hcls : cls ∉ stack) : IsStack setup (stack ++ [cls]) where
  nodup := nodup_push h.nodup hcls
  defines := List.forall_mem_append.2 ⟨h.defines, List.forall_mem_singleton.2 hdef⟩

/-- There are fewer classes in progress than levels of nesting. -/
theorem IsStack.length_lt {stack : List ClassId} (h : IsStack setup stack) :
    stack.length + 1 < nestingBound setup := by
  unfold nestingBound
  cases hsource : setup.source with
  | none =>
    have hnil : stack = [] := by
      apply List.eq_nil_iff_forall_not_mem.2
      intro cls hcls
      obtain ⟨definition, hdef⟩ := h.defines cls hcls
      simp [RegistrySetup.definition?, hsource] at hdef
    simp [hnil]
  | some source =>
    have hsubset : stack ⊆ source.definitions.keys := by
      intro cls hcls
      obtain ⟨definition, hdef⟩ := h.defines cls hcls
      simp only [RegistrySetup.definition?, hsource, Option.bind_some] at hdef
      exact OrderedMap.mem_keys_of_get?_eq_some hdef
    have hle := h.nodup.length_le_of_subset hsubset
    have hsize : source.definitions.keys.length = source.definitions.size := List.length_map _
    simp only [Option.elim_some]
    omega

/-- The bound on nesting leaves room for one more class on the stack. -/
theorem nestingBound_le_push {levels : Nat} {stack : List ClassId} (cls : ClassId)
    (h : nestingBound setup ≤ levels + 1 + stack.length) :
    nestingBound setup ≤ levels + (stack ++ [cls]).length := by
  rw [List.length_append, List.length_singleton]
  omega

/-- Classes of the source that are in progress on top of those in progress in `s`. -/
structure StacksOn (setup : RegistrySetup) (s : Registry) (stack : List ClassId) : Prop
    extends IsStack setup stack where
  fresh : ∀ cls ∈ stack, cls ∉ s.inProgress

/-- The empty stack stands on every registry. -/
theorem stacksOn_nil (setup : RegistrySetup) (s : Registry) : StacksOn setup s [] :=
  ⟨isStack_nil setup, fun _ h => nomatch h⟩

/-- A class of the source can be put on a stack that stands on a registry. -/
theorem StacksOn.push (h : StacksOn setup s stack) (hdef : setup.Defines cls)
    (hcls : cls ∉ s.inProgress ++ stack) : StacksOn setup s (stack ++ [cls]) where
  toIsStack := h.toIsStack.push hdef fun hmem => hcls (List.mem_append_right _ hmem)
  fresh := List.forall_mem_append.2
    ⟨h.fresh, List.forall_mem_singleton.2 fun hmem => hcls (List.mem_append_left _ hmem)⟩

/-- So many levels of nesting are enough, however many classes come on top of those in progress. -/
def Room (setup : RegistrySetup) (s : Registry) (levels : Nat) (stack : List ClassId) : Prop :=
  ∀ more, StacksOn setup s (stack ++ more) → more.length < levels

/-- A class that is put on the stack takes one level of room. -/
theorem Room.push (h : Room setup s (levels + 1) stack) (cls : ClassId) :
    Room setup s levels (stack ++ [cls]) := by
  intro more hmore
  rw [List.append_assoc] at hmore
  exact Nat.lt_of_succ_lt_succ (h _ hmore)

/-- Where there is room for a stack of classes of the source, there is a level left. -/
theorem Room.exists_level (h : Room setup s levels stack) (hstack : StacksOn setup s stack) :
    ∃ rest, levels = rest + 1 := by
  have hpos := h [] (by rwa [List.append_nil])
  exact Nat.exists_eq_add_one.2 hpos

/-! ## Continuations -/

/-- A registry that has grown from `s`, with these classes in progress on top of those in progress
in `s`. No class that is in progress is registered. -/
structure Continues (setup : RegistrySetup) (s : Registry) (stack : List ClassId) (t : Registry) :
    Prop where
  grown : Grown setup s t.entries
  inProgress_eq : t.inProgress = s.inProgress ++ stack
  absent : ∀ cls ∈ s.inProgress ++ stack, t.get? cls = none

/-- The frame in which answers are compared between all continuations, refusals included. -/
def continuing (setup : RegistrySetup) (s : Registry) (stack : List ClassId) :
    Frame Registry Unit where
  Holds := Continues setup s stack
  Shows _ _ := True
  Exact := True

/-- Continuing does not depend on the journal. -/
theorem ignoresJournal_continuing (s : Registry) (stack : List ClassId) :
    IgnoresJournal (continuing setup s stack) :=
  fun _ _ ht => ⟨⟨ht.grown, ht.inProgress_eq, ht.absent⟩, fun _ _ => trivial⟩

namespace Continues

/-- A registry that holds none of its classes in progress continues itself. -/
theorem refl (habsent : ∀ cls ∈ s.inProgress, s.get? cls = none) : Continues setup s [] s where
  grown := .start
  inProgress_eq := (List.append_nil _).symm
  absent := by rwa [List.append_nil]

/-- A build that begins continues a registry. -/
theorem begin (h : Continues setup s stack t) (habsent : t.get? cls = none) :
    Continues setup s (stack ++ [cls]) (t.begin cls) where
  grown := h.grown
  inProgress_eq := by
    rw [← List.append_assoc, ← h.inProgress_eq]
    rfl
  absent := by
    rw [← List.append_assoc]
    exact List.forall_mem_append.2 ⟨h.absent, List.forall_mem_singleton.2 habsent⟩

/-- The error with which asking for a class in progress is refused depends on the classes in
progress alone. -/
theorem cycleThrough?_eq (h : Continues setup s stack t) (cls : ClassId) :
    t.cycleThrough? cls = cycleThrough? { inProgress := s.inProgress ++ stack } cls := by
  unfold cycleThrough? isBuilding
  rw [h.inProgress_eq]

/-- A build of a class of the source continues a registry. -/
theorem build (h : Continues setup s stack t) (hkeyed : setup.IsKeyed) (levels : Nat)
    (hdef : setup.definition? definition.id = some definition) :
    Continues setup s stack ((buildNested setup levels definition none).exec t).2 := by
  have hgrows := (buildNested_recorded hkeyed levels definition none t).grows
  have hbottom : s.inProgress ⊆ t.inProgress := by
    rw [h.inProgress_eq]
    exact List.subset_append_left _ _
  refine ⟨buildNested_among (keptAmong_grown setup s) hkeyed levels hdef h.grown hbottom,
    hgrows.inProgress_eq.trans h.inProgress_eq, fun cls hcls => ?_⟩
  refine hgrows.fresh (h.absent cls hcls) (.inr ?_)
  rw [h.inProgress_eq]
  exact hcls

/-- A build whose answer is the same from all continuations follows that answer. -/
theorem follows (h : Continues setup s stack t) (hkeyed : setup.IsKeyed)
    (hdef : setup.definition? definition.id = some definition) {x : Except LayoutError Descriptor}
    (hx : ((buildNested setup levels definition none).exec t).1 = x) :
    Follows (continuing setup s stack) (buildNested setup levels definition none) (fun _ => x)
      t where
  holds := h.build hkeyed levels hdef
  narrows := fun _ _ => trivial
  answers := fun _ _ _ => hx.symm

/-- A build on demand follows one answer in all continuations. -/
theorem nested_follows (hkeyed : setup.IsKeyed) (definition : ClassDefinition)
    (hdef : setup.definition? definition.id = some definition) (t : Registry)
    (ht : (continuing setup s stack).Holds t) : ∃ answer, Follows (continuing setup s stack)
      (buildNested setup levels definition none) answer t :=
  ⟨_, Continues.follows ht hkeyed hdef rfl⟩

end Continues

/-- The answer of a build, from the ways in which it can end. -/
theorem exec_fst_of_continuing (hkeyed : setup.IsKeyed) (s : Registry) (stack : List ClassId)
    {x : Except LayoutError Descriptor}
    (hinvalid : ∀ error, definition.validate = .error error → x = .error error)
    (hcyclic : ∀ error, definition.validate = .ok () → t.cycleThrough? definition.id = some error →
      x = .error error)
    (hfound : ∀ d, t.cycleThrough? definition.id = none → t.get? definition.id = some d →
      x = .ok d)
    (hbuilt : definition.validate = .ok () → t.cycleThrough? definition.id = none →
      t.get? definition.id = none →
      Follows (continuing setup s (stack ++ [definition.id]))
        (construct setup (fun needed => buildNested setup levels needed none) definition none)
        (fun _ => x) (t.begin definition.id)) :
    ((buildNested setup (levels + 1) definition none).exec t).1 = x := by
  have hstep := buildNested_step hkeyed levels definition none t
  rcases hrun : (buildNested setup (levels + 1) definition none).exec t with ⟨answer, after⟩
  rw [hrun] at hstep
  cases hstep with
  | invalid hvalid => exact (hinvalid _ hvalid).symm
  | cyclic hvalid hcycle => exact (hcyclic _ hvalid hcycle).symm
  | reused journal hvalid hcycle hget => exact (hfound _ hcycle hget).symm
  | refused hvalid hcycle habsent hexec =>
    have hanswers := (hbuilt hvalid hcycle habsent).answers (.inl trivial) () trivial
    rw [hexec] at hanswers
    exact hanswers.symm
  | published journal hvalid hcycle habsent hexec hnew =>
    have hanswers := (hbuilt hvalid hcycle habsent).answers (.inl trivial) () trivial
    rw [hexec] at hanswers
    exact hanswers.symm
  | preceded journal hvalid hcycle habsent hexec hold =>
    rw [(of_construct hkeyed habsent hexec).2.1] at hold
    cases hold

/-! ## Building again -/

/-- What a growth knows of a class is found out by a build in every continuation, if the growth
holds none of the classes in progress there and what is new in it can be built again. -/
theorem resolve_continuing (hkeyed : setup.IsKeyed) (hstack : StacksOn setup s stack)
    {entries : OrderedMap ClassId Descriptor} (hgrown : Grown setup s entries)
    (hfree : ∀ cls ∈ stack, entries.get? cls = none)
    (hrebuilds : ∀ definition d, setup.definition? definition.id = some definition →
      entries.get? definition.id = some d → s.get? definition.id = none →
      ∀ t, Continues setup s stack t →
      ((buildNested setup levels definition none).exec t).1 = .ok d)
    {v : Option Descriptor} (hknown : knownAmong setup s.inProgress { entries } cls = .ok v)
    (ht : Continues setup s stack t) :
    Follows (continuing setup s stack)
      (resolve setup (fun needed => buildNested setup levels needed none) cls)
      (fun _ => knownAmong setup s.inProgress { entries } cls) t := by
  rw [hknown]
  obtain ⟨hnotbottom, hknown⟩ := of_knownAmong_eq_ok hknown
  apply resolve_follows (ignoresJournal_continuing s stack) hkeyed
    (Continues.nested_follows hkeyed) ht
  · intro error hcycle _ _ _
    have hmem := mem_inProgress_of_cycleThrough? hcycle
    rw [ht.inProgress_eq] at hmem
    have hstacked := (List.mem_append.1 hmem).resolve_left hnotbottom
    rcases of_known_eq_ok hknown with ⟨d, hheld, -⟩ | ⟨-, hplain, -⟩
    · exact absurd ((hfree cls hstacked).symm.trans hheld) (by simp)
    · obtain ⟨definition, hdef⟩ := hstack.defines cls hstacked
      rw [hplain] at hdef
      cases hdef
  · intro d' _ hget _ _
    rcases of_known_eq_ok hknown with ⟨d, hheld, rfl⟩ | ⟨habsent, hplain, -⟩
    · rw [hgrown.agree ht.grown hheld hget]
    · exact absurd ((ht.grown.get?_of_undefined hgrown hget hplain).symm.trans habsent) (by simp)
  · intro _ hget hplain _ _
    rcases of_known_eq_ok hknown with ⟨d, hheld, rfl⟩ | ⟨-, -, rfl⟩
    · exact absurd ((hgrown.get?_of_undefined ht.grown hheld hplain).symm.trans hget) (by simp)
    · rfl
  · intro definition _ hget hdef t' ht' _
    rcases of_known_eq_ok hknown with ⟨d, hheld, rfl⟩ | ⟨-, hplain, -⟩
    · have hid := hkeyed.id_eq hdef
      subst hid
      have hrebuilt := hrebuilds definition d hdef hheld (ht.grown.absent_start hget) t' ht'
      exact ⟨_, ht'.follows hkeyed hdef hrebuilt, fun _ _ => rfl⟩
    · rw [hplain] at hdef
      cases hdef

namespace Grown

variable {entries : OrderedMap ClassId Descriptor}

/-- The class registered last is laid out again in every continuation, if what it asked for is found
there. -/
theorem rebuilds_last (before : Grown setup s entries) (hkeyed : setup.IsKeyed)
    (hdef : setup.definition? definition.id = some definition)
    (hvalid : definition.validate = .ok ()) (hfree : definition.id ∉ s.inProgress)
    (habsent : entries.get? definition.id = none)
    (hparent : (knownAmong setup s.inProgress { entries }).parent definition.toClassDecl none =
      .ok parent)
    (hlayOut : (knownAmong setup s.inProgress { entries }).layOut setup.config definition parent =
      .ok d)
    (hmem : definition.id ∉ stack)
    (hresolve : ∀ cls v, knownAmong setup s.inProgress { entries } cls = .ok v →
      ∀ t, Continues setup s (stack ++ [definition.id]) t →
      Follows (continuing setup s (stack ++ [definition.id]))
        (resolve setup (fun needed => buildNested setup levels needed none) cls)
        (fun _ => knownAmong setup s.inProgress { entries } cls) t)
    (ht : Continues setup s stack t) :
    ((buildNested setup (levels + 1) definition none).exec t).1 = .ok d := by
  have hinsert := before.insert hdef hvalid hfree habsent hparent hlayOut
  apply exec_fst_of_continuing hkeyed s stack
  · intro error hinvalid
    rw [hvalid] at hinvalid
    cases hinvalid
  · intro error _ hcycle
    have hcyclic := mem_inProgress_of_cycleThrough? hcycle
    rw [ht.inProgress_eq] at hcyclic
    exact absurd hcyclic fun h => (List.mem_append.1 h).elim hfree hmem
  · intro d' _ hfound
    rw [hinsert.agree ht.grown (OrderedMap.get?_insert_self _ _ _) hfound]
  · intro _ _ hnone
    have hconstruct : Follows (continuing setup s (stack ++ [definition.id]))
        (Registry.construct setup (fun needed => buildNested setup levels needed none) definition
          none)
        (fun _ => (knownAmong setup s.inProgress { entries }).parent definition.toClassDecl none >>=
          fun parent =>
            (knownAmong setup s.inProgress { entries }).layOut setup.config definition parent)
        (t.begin definition.id) := by
      apply construct_follows (ignoresJournal_continuing s _) (ht.begin hnone)
      · intro base hbase
        obtain ⟨v, hv⟩ := Knowledge.known_of_parent hparent hbase
        exact hresolve base v hv
      · intro p hp cls hcls
        have hsame := hp () trivial
        rw [hparent] at hsame
        cases hsame
        obtain ⟨e, he⟩ := Knowledge.known_of_layOut hlayOut hcls
        exact hresolve cls (some e) he
    exact hconstruct.congr fun _ _ => (bind_eq_ok hparent hlayOut).symm

/-- What is new in one growth of a registry is built in every continuation, whatever classes are in
progress on top, as long as the growth holds none of them. -/
theorem rebuilds (h : Grown setup s entries) (hkeyed : setup.IsKeyed)
    (hdef : setup.definition? definition.id = some definition)
    (hget : entries.get? definition.id = some d) (hnew : s.get? definition.id = none)
    (hstack : StacksOn setup s stack) (hfree : ∀ cls ∈ stack, entries.get? cls = none)
    (hroom : Room setup s levels stack) (ht : Continues setup s stack t) :
    ((buildNested setup levels definition none).exec t).1 = .ok d := by
  -- What the last class asked for was registered before it, and is built again by induction, with
  -- one more class in progress and one level less.
  induction h generalizing definition d levels stack t with
  | start => exact absurd (hnew.symm.trans hget) (by simp)
  | @insert entries last parent e before hlast hvalid hbottom habsent hparent hlayOut ih =>
    have hnotlast : last.id ∉ stack := by
      intro hmem
      have hnone := hfree _ hmem
      rw [OrderedMap.get?_insert_self] at hnone
      cases hnone
    have hfree' : ∀ cls ∈ stack, entries.get? cls = none := by
      intro cls hcls
      have hne : cls ≠ last.id := by
        rintro rfl
        exact hnotlast hcls
      rw [← OrderedMap.get?_insert_of_ne entries hne e]
      exact hfree cls hcls
    by_cases hid : definition.id = last.id
    · have hsame : last = definition := by
        rw [hid, hlast] at hdef
        exact Option.some.inj hdef
      subst hsame
      rw [OrderedMap.get?_insert_self] at hget
      cases hget
      have hpush := hstack.push ⟨last, hlast⟩ fun hmem =>
        (List.mem_append.1 hmem).elim hbottom hnotlast
      have hfree'' : ∀ cls ∈ stack ++ [last.id], entries.get? cls = none :=
        List.forall_mem_append.2 ⟨hfree', List.forall_mem_singleton.2 habsent⟩
      obtain ⟨levels, rfl⟩ := hroom.exists_level hstack
      exact before.rebuilds_last hkeyed hdef hvalid hbottom habsent hparent hlayOut hnotlast
        (fun cls v hknown t ht => resolve_continuing hkeyed hpush before hfree''
          (fun needed d hneeded hheld hnew t ht =>
            ih hneeded hheld hnew hpush hfree'' (hroom.push _) ht)
          hknown ht) ht
    · rw [OrderedMap.get?_insert_of_ne _ hid] at hget
      exact ih hdef hget hnew hstack hfree' hroom ht

end Grown

/-! ## Settled answers -/

/-- What a class learns of another one while these classes are in progress on top of those in
progress in `s`, where `answers` are the answers of the builds that it asks for. -/
def learned (setup : RegistrySetup) (s : Registry) (stack : List ClassId)
    (answers : ClassDefinition → Except LayoutError Descriptor) : Knowledge := fun cls =>
  match cycleThrough? { inProgress := s.inProgress ++ stack } cls, s.get? cls,
    setup.definition? cls with
  | some error, _, _ => .error error
  | none, some d, _ => .ok (some d)
  | none, none, none => .ok none
  | none, none, some definition => (answers definition).map some

/-- Where the answers of builds are settled, so is what a class learns by asking. -/
theorem resolve_learned (hkeyed : setup.IsKeyed) (hstack : StacksOn setup s stack)
    (hroom : Room setup s levels stack)
    {answers : ClassDefinition → Except LayoutError Descriptor}
    (hanswers : ∀ definition, setup.definition? definition.id = some definition →
      s.get? definition.id = none → ∀ t, Continues setup s stack t →
      ((buildNested setup levels definition none).exec t).1 = answers definition)
    (cls : ClassId) (ht : Continues setup s stack t) :
    Follows (continuing setup s stack)
      (resolve setup (fun needed => buildNested setup levels needed none) cls)
      (fun _ => learned setup s stack answers cls) t := by
  have hcycle := ht.cycleThrough?_eq cls
  unfold learned
  apply resolve_follows (ignoresJournal_continuing s stack) hkeyed
    (Continues.nested_follows hkeyed) ht
  · intro error hcyclic _ _ _
    rw [← hcycle, hcyclic]
  · intro d hnone hget _ _
    rw [← hcycle, hnone]
    cases hstart : s.get? cls with
    | some e =>
      cases (ht.grown.kept hstart).symm.trans hget
      rfl
    | none =>
      obtain ⟨definition, hdef⟩ := ht.grown.defines hget hstart
      have hid := hkeyed.id_eq hdef
      subst hid
      have hfree : ∀ cls ∈ stack, t.entries.get? cls = none :=
        fun cls hcls => ht.absent cls (List.mem_append_right _ hcls)
      have hrebuilt := ht.grown.rebuilds hkeyed hdef hget hstart hstack hfree hroom ht
      rw [hanswers definition hdef hstart t ht] at hrebuilt
      rw [hdef]
      dsimp only
      rw [hrebuilt]
      rfl
  · intro hnone habsent hplain _ _
    rw [← hcycle, hnone, ht.grown.absent_start habsent, hplain]
  · intro definition hnone habsent hdef t' ht' _
    have hid := hkeyed.id_eq hdef
    subst hid
    have hstart := ht.grown.absent_start habsent
    refine ⟨_, ht'.follows hkeyed hdef (hanswers definition hdef hstart t' ht'), fun _ _ => ?_⟩
    rw [← hcycle, hnone, hstart, hdef]

/-- The answer of a build of a class that has to be laid out, where `answers` are the answers of the
builds that it asks for. -/
def learnedAnswer (setup : RegistrySetup) (s : Registry) (stack : List ClassId)
    (answers : ClassDefinition → Except LayoutError Descriptor) (definition : ClassDefinition) :
    Except LayoutError Descriptor :=
  match definition.validate,
    cycleThrough? { inProgress := s.inProgress ++ stack } definition.id with
  | .error error, _ => .error error
  | .ok _, some error => .error error
  | .ok _, none => do
    let known := learned setup s (stack ++ [definition.id]) answers
    known.layOut setup.config definition (← known.parent definition.toClassDecl none)

/-- Where no continuation holds a class and the builds that it asks for are settled, so is its
own. -/
theorem Continues.answer_eq_learnedAnswer (ht : Continues setup s stack t) (hkeyed : setup.IsKeyed)
    (hstack : StacksOn setup s stack) (hroom : Room setup s (levels + 1) stack)
    (hdef : setup.definition? definition.id = some definition)
    {answers : ClassDefinition → Except LayoutError Descriptor}
    (hanswers : ∀ needed, setup.definition? needed.id = some needed → s.get? needed.id = none →
      definition.id ∉ s.inProgress ++ stack →
      ∀ t, Continues setup s (stack ++ [definition.id]) t →
      ((buildNested setup levels needed none).exec t).1 = answers needed)
    (habsent : t.get? definition.id = none) :
    ((buildNested setup (levels + 1) definition none).exec t).1 =
      learnedAnswer setup s stack answers definition := by
  unfold learnedAnswer
  apply exec_fst_of_continuing hkeyed s stack
  · intro error hinvalid
    rw [hinvalid]
  · intro error hvalid hcycle
    rw [hvalid, ← ht.cycleThrough?_eq, hcycle]
  · intro d _ hget
    rw [habsent] at hget
    cases hget
  · intro hvalid hcycle _
    have hmem := not_mem_inProgress_of_cycleThrough? hcycle
    rw [ht.inProgress_eq] at hmem
    have hresolve : ∀ cls t, Continues setup s (stack ++ [definition.id]) t →
        Follows (continuing setup s (stack ++ [definition.id]))
          (resolve setup (fun needed => buildNested setup levels needed none) cls)
          (fun _ => learned setup s (stack ++ [definition.id]) answers cls) t :=
      fun cls t ht => resolve_learned hkeyed (hstack.push ⟨definition, hdef⟩ hmem) (hroom.push _)
        (fun needed hneeded hnew => hanswers needed hneeded hnew hmem) cls ht
    rw [hvalid, ← ht.cycleThrough?_eq, hcycle]
    exact construct_follows (ignoresJournal_continuing s _) (ht.begin habsent)
      (fun base _ => hresolve base) fun _ _ cls _ => hresolve cls

/-- The answer of a build of a class that is not registered in `s` is the same in all
continuations. -/
theorem settled_from (hkeyed : setup.IsKeyed) (hstack : StacksOn setup s stack)
    (hroom : Room setup s levels stack)
    (hdef : setup.definition? definition.id = some definition)
    (hnew : s.get? definition.id = none) :
    ∃ x, ∀ t, Continues setup s stack t →
      ((buildNested setup levels definition none).exec t).1 = x := by
  -- Either some continuation holds the class, and then all others build the same descriptor, or
  -- none holds it, and every one lays it out from answers that are settled by induction.
  induction levels generalizing stack definition with
  | zero =>
    obtain ⟨rest, hrest⟩ := hroom.exists_level hstack
    cases hrest
  | succ levels ih =>
    by_cases hheld : ∃ t d, Continues setup s stack t ∧ t.get? definition.id = some d
    · obtain ⟨t, d, ht, hget⟩ := hheld
      have hfree : ∀ cls ∈ stack, t.entries.get? cls = none :=
        fun cls hcls => ht.absent cls (List.mem_append_right _ hcls)
      exact ⟨.ok d, fun t' ht' => ht.grown.rebuilds hkeyed hdef hget hnew hstack hfree hroom ht'⟩
    · have hnested : ∀ needed, ∃ x, setup.definition? needed.id = some needed →
          s.get? needed.id = none → definition.id ∉ s.inProgress ++ stack →
          ∀ t, Continues setup s (stack ++ [definition.id]) t →
          ((buildNested setup levels needed none).exec t).1 = x := by
        intro needed
        by_cases h : setup.definition? needed.id = some needed ∧ s.get? needed.id = none ∧
            definition.id ∉ s.inProgress ++ stack
        · obtain ⟨hneeded, hfresh, hmem⟩ := h
          obtain ⟨x, hx⟩ := ih (hstack.push ⟨definition, hdef⟩ hmem) (hroom.push _) hneeded hfresh
          exact ⟨x, fun _ _ _ => hx⟩
        · exact ⟨.error (.cyclicDefinition needed.id []),
            fun h₁ h₂ h₃ => absurd ⟨h₁, h₂, h₃⟩ h⟩
      obtain ⟨answers, hanswers⟩ := Classical.axiomOfChoice hnested
      refine ⟨learnedAnswer setup s stack answers definition, fun t ht => ?_⟩
      apply ht.answer_eq_learnedAnswer hkeyed hstack hroom hdef hanswers
      cases hget : t.get? definition.id with
      | none => rfl
      | some d => exact absurd ⟨t, d, ht, hget⟩ hheld

/-- What asking for a class answers in one continuation, it answers in all of them. -/
theorem resolve_settled_from (hkeyed : setup.IsKeyed) (hstack : StacksOn setup s stack)
    (hroom : Room setup s levels stack) (cls : ClassId) (hu : Continues setup s stack u)
    (ht : Continues setup s stack t) :
    Follows (continuing setup s stack)
      (resolve setup (fun needed => buildNested setup levels needed none) cls)
      (fun _ => ((resolve setup (fun needed => buildNested setup levels needed none) cls).exec u).1)
      t := by
  have hnested : ∀ needed, ∃ x, setup.definition? needed.id = some needed →
      s.get? needed.id = none → ∀ t, Continues setup s stack t →
      ((buildNested setup levels needed none).exec t).1 = x := by
    intro needed
    by_cases h : setup.definition? needed.id = some needed ∧ s.get? needed.id = none
    · obtain ⟨x, hx⟩ := settled_from hkeyed hstack hroom h.1 h.2
      exact ⟨x, fun _ _ => hx⟩
    · exact ⟨.error (.cyclicDefinition needed.id []), fun h₁ h₂ => absurd ⟨h₁, h₂⟩ h⟩
  obtain ⟨answers, hanswers⟩ := Classical.axiomOfChoice hnested
  have hlearned := fun t ht => resolve_learned (t := t) hkeyed hstack hroom hanswers cls ht
  exact (hlearned t ht).congr fun _ _ => ((hlearned u hu).answers (.inl trivial) () trivial).symm

end ObjectLayout.Registry
