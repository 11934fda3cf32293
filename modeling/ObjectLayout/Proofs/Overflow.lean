import ObjectLayout.Proofs.Dependencies
import ObjectLayout.Proofs.UnboundedLayout

/-!
# Overflow

A set of definitions gives its classes layouts over the natural numbers (`unbounded`), as far as the
classes pass all the checks that do not depend on sizes. A build of such a class answers this very
layout if an instance fits into the address space, and an overflow if it does not
(`Registry.freshAnswer_isExact`). The induction is on the number of levels through which the class
depends on others: what a build learns of them is settled, and exact by induction, and from there
the layout is exact. No other class is built at all (`Registry.Stands.exists_unbounded`).

An array without elements is refused where its element is too large, though the array takes no space
(`Registry.exists_fits_not_builds`). So neither the class nor a class that it depends on may have
one (`RegistrySetup.IsFilledBelow`).
-/

set_option autoImplicit false

namespace ObjectLayout

open LayoutM (exists_eq_ok_of_bind bind_eq_ok)
open Relation (ReflTransGen)

/-! ## Layouts of a set of definitions -/

/-- The layouts of the classes of a set over the natural numbers, where a class depends on others
through fewer than so many levels. There is none of a class for which a check fails, or for which
one fails in a class that it depends on. -/
def unbounded (config : LayoutConfig) (set : DefinitionSet) : Nat → Knowledge
  | 0, cls => .error (.cyclicDefinition cls [])
  | depth + 1, cls =>
    match set.get? cls with
    | none => .ok none
    | some definition => do
      definition.validate
      let parent ← (unbounded config set depth).parent definition.toClassDecl none
      let d ← (unbounded config set depth).layOutUnbounded config definition parent
      return some d

section Unbounded

variable {config : LayoutConfig} {set : DefinitionSet} {depth : Nat} {cls : ClassId}
  {d : Descriptor}

/-- A class with a layout is defined, passes its checks and is laid out below its parent. -/
theorem of_unbounded_eq_some (h : unbounded config set (depth + 1) cls = .ok (some d)) :
    ∃ definition parent, set.get? cls = some definition ∧ definition.validate = .ok () ∧
      (unbounded config set depth).parent definition.toClassDecl none = .ok parent ∧
      (unbounded config set depth).layOutUnbounded config definition parent = .ok d := by
  unfold unbounded at h
  cases hdef : set.get? cls with
  | none =>
    rw [hdef] at h
    cases h
  | some definition =>
    rw [hdef] at h
    obtain ⟨_, hvalid, h⟩ := exists_eq_ok_of_bind h
    obtain ⟨parent, hparent, h⟩ := exists_eq_ok_of_bind h
    obtain ⟨e, he, h⟩ := exists_eq_ok_of_bind h
    cases h
    exact ⟨definition, parent, rfl, hvalid, hparent, he⟩

/-- A class that is known to be no extension type is not defined. -/
theorem get?_eq_none_of_unbounded (h : unbounded config set depth cls = .ok none) :
    set.get? cls = none := by
  cases depth with
  | zero => cases h
  | succ depth =>
    unfold unbounded at h
    cases hdef : set.get? cls with
    | none => rfl
    | some definition =>
      rw [hdef] at h
      obtain ⟨_, -, h⟩ := exists_eq_ok_of_bind h
      obtain ⟨_, -, h⟩ := exists_eq_ok_of_bind h
      obtain ⟨_, -, h⟩ := exists_eq_ok_of_bind h
      cases h

/-- The set defines every class that has a layout. -/
theorem defines_of_unbounded (h : unbounded config set depth cls = .ok (some d)) :
    (Registry.setupOf config set).Defines cls := by
  cases depth with
  | zero => cases h
  | succ depth =>
    obtain ⟨definition, _, hdef, -⟩ := of_unbounded_eq_some h
    exact ⟨definition, hdef⟩

/-- A class that is not defined is known to be no extension type. -/
theorem unbounded_eq_none (hdef : set.get? cls = none) :
    unbounded config set (depth + 1) cls = .ok none := by
  unfold unbounded
  rw [hdef]

/-- A class that is defined and passes its checks has a layout. -/
theorem unbounded_eq_some {definition : ClassDefinition} {parent : Option Descriptor}
    (hdef : set.get? cls = some definition) (hvalid : definition.validate = .ok ())
    (hparent : (unbounded config set depth).parent definition.toClassDecl none = .ok parent)
    (hd : (unbounded config set depth).layOutUnbounded config definition parent = .ok d) :
    unbounded config set (depth + 1) cls = .ok (some d) := by
  unfold unbounded
  rw [hdef]
  exact bind_eq_ok hvalid (bind_eq_ok hparent (bind_eq_ok hd rfl))

/-- With one more level more is known. -/
theorem unbounded_extends (config : LayoutConfig) (set : DefinitionSet) (depth : Nat) :
    (unbounded config set (depth + 1)).Extends (unbounded config set depth) := by
  induction depth with
  | zero =>
    intro cls v h
    cases h
  | succ depth ih =>
    intro cls v h
    cases v with
    | none => exact unbounded_eq_none (get?_eq_none_of_unbounded h)
    | some d =>
      obtain ⟨definition, parent, hdef, hvalid, hparent, hd⟩ := of_unbounded_eq_some h
      exact unbounded_eq_some hdef hvalid (Knowledge.parent_mono ih hparent)
        (Knowledge.layOutUnbounded_mono ih hd)

/-- A layout bears the identity of its class. -/
theorem id_eq_of_unbounded (hset : set.IsKeyed)
    (h : unbounded config set depth cls = .ok (some d)) : d.id = cls := by
  cases depth with
  | zero => cases h
  | succ depth =>
    obtain ⟨definition, parent, hdef, -, -, hd⟩ := of_unbounded_eq_some h
    obtain ⟨o, -, rfl⟩ := Knowledge.exists_unbounded hd
    exact hset.id_eq hdef

/-- The attributes of a class begin where an instance of the parent ends, and those of a root behind
the header and the pointer to the virtual table. -/
theorem attrOffset_of_unbounded (hheader : config.HeaderFits)
    (h : unbounded config set depth cls = .ok (some d)) :
    d.attrOffset =
      d.parent?.elim (config.objectHeaderSize + config.pointerSize) fun p => p.size := by
  cases depth with
  | zero => cases h
  | succ depth =>
    obtain ⟨definition, parent, -, -, -, hd⟩ := of_unbounded_eq_some h
    rw [Knowledge.parent?_of_layOutUnbounded hd, ← hheader.headerSize_eq]
    obtain ⟨o, -, rfl⟩ := Knowledge.exists_unbounded hd
    rfl

/-- The slots of a class begin behind those of its parent. -/
theorem ownSlotsOffset_of_unbounded (h : unbounded config set depth cls = .ok (some d))
    {p : Descriptor} (hp : d.parent? = some p)
    (hfits : config.vtableHeaderSize + p.slotCount * config.pointerSize < addressSpace) :
    d.ownSlotsOffset = config.vtableHeaderSize + p.slotCount * config.pointerSize := by
  cases depth with
  | zero => cases h
  | succ depth =>
    obtain ⟨definition, parent, -, -, -, hd⟩ := of_unbounded_eq_some h
    rw [Knowledge.parent?_of_layOutUnbounded hd] at hp
    subst hp
    obtain ⟨o, -, rfl⟩ := Knowledge.exists_unbounded hd
    exact Word.wrap_of_lt hfits

/-- Every layout over the natural numbers is measured. -/
theorem unbounded_isMeasured (hvalid : config.validate = .ok ())
    (hpointer : config.pointerSize < addressSpace) (set : DefinitionSet) (depth : Nat) :
    (unbounded config set depth).IsMeasured := by
  induction depth with
  | zero =>
    intro cls e h
    cases h
  | succ depth ih =>
    intro cls e h
    obtain ⟨definition, parent, -, -, hparent, he⟩ := of_unbounded_eq_some h
    exact ih.layOutUnbounded hvalid hpointer (ih.parent_measured hparent) he

end Unbounded

/-- The answer is that of a class whose layout over the natural numbers is `d`. -/
structure ExactAnswer (d : Descriptor) (answer : Except LayoutError Descriptor) : Prop
    extends IsExact d.size d answer where
  /-- Below a parent that fits, an overflow is put down to an attribute of the class. -/
  names : (∀ p, d.parent? = some p → p.size < addressSpace) → NamesOverflow d answer

/-- No attribute is an array without elements, neither of the class nor of a class that it depends
on. -/
def RegistrySetup.IsFilledBelow (setup : RegistrySetup) (cls : ClassId) : Prop :=
  ∀ ⦃other definition⦄, ReflTransGen setup.Mentions cls other →
    setup.definition? other = some definition → ∀ entry ∈ definition.attributes, entry.2.IsFilled

/-- What holds below a class holds below the classes that it mentions. -/
theorem RegistrySetup.IsFilledBelow.of_mentions {setup : RegistrySetup} {cls other : ClassId}
    (h : setup.IsFilledBelow cls) (hmentions : setup.Mentions cls other) :
    setup.IsFilledBelow other :=
  fun _ _ hpath => h (.head hmentions hpath)

/-- The attributes of a class store none but the classes that it mentions. -/
theorem RegistrySetup.IsFilledBelow.isFilledFrom {setup : RegistrySetup}
    {definition : ClassDefinition} (h : setup.IsFilledBelow definition.id)
    (hdef : setup.definition? definition.id = some definition) :
    ∀ entry ∈ definition.attributes, entry.2.IsFilledFrom (setup.Mentions definition.id) :=
  fun entry hentry => ⟨h .refl hdef entry hentry,
    fun _ hstored => ⟨definition, hdef, .inr ⟨entry, hentry, hstored⟩⟩⟩

namespace Registry

section Builds

variable {within : ClassId → Prop} {config : LayoutConfig} {set : DefinitionSet}
  {depth levels : Nat} {stack : List ClassId} {definition : ClassDefinition} {d : Descriptor}

/-- There is no cycle through a class that is not in progress. -/
theorem cycleThrough?_eq_none {cls : ClassId} (hcls : cls ∉ stack) :
    cycleThrough? { inProgress := stack } cls = none := by
  simp [cycleThrough?, isBuilding, hcls]

/-- What is settled is exact, as far as the classes can be laid out and none of them is in
progress. -/
theorem bounded_settledKnowledge (hset : set.IsKeyed) (hstack : IsStack (setupOf config set) stack)
    (hfree : ∀ cls ∈ stack, ∀ e, unbounded config set depth cls ≠ .ok (some e))
    {answers : ClassDefinition → Except LayoutError Descriptor}
    (hanswers : ∀ needed e, within needed.id → set.get? needed.id = some needed →
      unbounded config set depth needed.id = .ok (some e) → IsExact e.size e (answers needed)) :
    Bounded within (settledKnowledge (setupOf config set) stack answers)
      (unbounded config set depth) := by
  constructor
  · intro cls e hwithin he
    have hcls : cls ∉ stack := fun hmem => hfree cls hmem e he
    cases depth with
    | zero => cases he
    | succ depth =>
      obtain ⟨definition, _, hdef, -⟩ := of_unbounded_eq_some he
      have hid := hset.id_eq hdef
      subst hid
      have hsetup : (setupOf config set).definition? definition.id = some definition := hdef
      unfold settledKnowledge
      rw [cycleThrough?_eq_none hcls, hsetup]
      exact (hanswers definition e hwithin hdef he).map some
  · intro cls hplain
    have hdef := get?_eq_none_of_unbounded hplain
    have hcls : cls ∉ stack := by
      intro hmem
      obtain ⟨definition, hdefines⟩ := hstack.defines cls hmem
      rw [show (setupOf config set).definition? cls = none from hdef] at hdefines
      cases hdefines
    unfold settledKnowledge
    rw [cycleThrough?_eq_none hcls, show (setupOf config set).definition? cls = none from hdef]

/-- From what is bounded a class is laid out exactly, below a parent that is found exactly. -/
theorem exactAnswer_of_bounded {known : Knowledge}
    (h : Bounded within known (unbounded config set depth)) (hset : set.IsKeyed)
    (hvalid : config.validate = .ok ()) (hheader : config.HeaderFits)
    (hfilled : ∀ entry ∈ definition.attributes, entry.2.IsFilledFrom within)
    (hbases : ∀ base ∈ definition.bases, ∀ e, unbounded config set depth base = .ok (some e) →
      within base) {parent : Option Descriptor}
    (hparent : (unbounded config set depth).parent definition.toClassDecl none = .ok parent)
    (hd : (unbounded config set depth).layOutUnbounded config definition parent = .ok d) :
    ExactAnswer d (known.parent definition.toClassDecl none >>= fun parent =>
      known.layOut config definition parent) := by
  have hpointer := hheader.pointerSize_lt
  have hclasses := unbounded_isMeasured hvalid hpointer set depth
  have hmeasured := hclasses.parent_measured hparent
  have hbase := h.parent_isExact (id_eq_of_unbounded hset) hbases hparent
  have hsize := hclasses.parent_size_le hvalid hpointer (fun p hp => (hmeasured p hp).toSound) hd
  by_cases hfits : parent.elim 0 (fun p => p.size) < addressSpace
  · rw [hbase.fits hfits]
    have hlaid : NamesOverflow d (known.layOut config definition parent) := by
      refine h.layOut_isExact hclasses hvalid hheader hfilled hmeasured ?_ hd
      rintro p rfl
      exact hfits
    exact ⟨hlaid.isExact, fun _ => hlaid⟩
  · -- What is too large as a parent is not too small as a class.
    have hover := (hbase.overflows (Nat.not_lt.1 hfits)).bind fun parent =>
      known.layOut config definition parent
    refine ⟨⟨fun hlt => absurd (Nat.lt_of_le_of_lt hsize hlt) hfits, fun _ => hover⟩, ?_⟩
    intro hparents
    rw [Knowledge.parent?_of_layOutUnbounded hd] at hparents
    cases parent with
    | none => exact absurd (by decide : 0 < addressSpace) hfits
    | some p => exact absurd (hparents p rfl) hfits

/-- What a build answers in a registry that holds nothing, with these classes in progress. -/
def freshAnswer (setup : RegistrySetup) (levels : Nat) (stack : List ClassId)
    (definition : ClassDefinition) : Except LayoutError Descriptor :=
  ((buildNested setup levels definition none).exec { inProgress := stack }).1

/-- The empty registry stands with classes in progress. -/
theorem stands_fresh (setup : RegistrySetup) (stack : List ClassId) :
    Stands setup stack { inProgress := stack } where
  grounded := .empty
  inProgress_eq := rfl
  absent := fun _ _ => rfl

section Fresh

variable {setup : RegistrySetup} {s : Registry}

/-- What a build answers is what it answers in the empty registry. -/
theorem Stands.answer_eq_freshAnswer (hs : Stands setup stack s) (hkeyed : setup.IsKeyed)
    (hstack : IsStack setup stack) (hlevels : nestingBound setup ≤ levels + stack.length)
    (hdef : setup.definition? definition.id = some definition) :
    ((buildNested setup levels definition none).exec s).1 =
      freshAnswer setup levels stack definition := by
  obtain ⟨x, hx⟩ := settled hkeyed hstack hlevels hdef
  exact (hx s hs).trans (hx _ (stands_fresh setup stack)).symm

/-- What a build answers is settled by what the builds on demand answer. -/
theorem freshAnswer_succ (hkeyed : setup.IsKeyed) (hstack : IsStack setup stack)
    (hlevels : nestingBound setup ≤ levels + 1 + stack.length)
    (hdef : setup.definition? definition.id = some definition) :
    freshAnswer setup (levels + 1) stack definition = settledAnswer setup stack
      (freshAnswer setup levels (stack ++ [definition.id])) definition := by
  refine (stands_fresh setup stack).answer_eq_settledAnswer hkeyed hstack hlevels hdef ?_ rfl
  intro needed hneeded hmem t ht
  have hroom := nestingBound_le_push definition.id hlevels
  exact ht.answer_eq_freshAnswer hkeyed (hstack.push ⟨definition, hdef⟩ hmem) hroom hneeded

end Fresh

/-- In a registry that holds nothing a class is built exactly, unless it depends on a class in
progress. -/
theorem freshAnswer_isExact (hset : set.IsKeyed) (hvalid : config.validate = .ok ())
    (hheader : config.HeaderFits) (hfilled : (setupOf config set).IsFilledBelow definition.id)
    (hdef : set.get? definition.id = some definition)
    (hd : unbounded config set depth definition.id = .ok (some d))
    (hstack : IsStack (setupOf config set) stack)
    (hfree : ∀ cls ∈ stack, ∀ e, unbounded config set depth cls ≠ .ok (some e))
    (hlevels : nestingBound (setupOf config set) ≤ levels + stack.length) :
    ExactAnswer d (freshAnswer (setupOf config set) levels stack definition) := by
  have hkeyed := isKeyed_setupOf config hset
  -- With one more level to depend on others through, one more class is in progress.
  induction depth generalizing definition d levels stack with
  | zero => cases hd
  | succ depth ih =>
    have hstill : ∀ cls ∈ stack, ∀ e, unbounded config set depth cls ≠ .ok (some e) :=
      fun cls hcls e he => hfree cls hcls e (unbounded_extends config set depth he)
    by_cases hbelow : ∃ e, unbounded config set depth definition.id = .ok (some e)
    · obtain ⟨e, he⟩ := hbelow
      have hmore := unbounded_extends config set depth he
      rw [hd] at hmore
      cases hmore
      exact ih hfilled hdef he hstack hstill hlevels
    · have hmem : definition.id ∉ stack := fun hcls => hfree _ hcls d hd
      have hpush := hstack.push ⟨definition, hdef⟩ hmem
      have hfree' : ∀ cls ∈ stack ++ [definition.id], ∀ e,
          unbounded config set depth cls ≠ .ok (some e) :=
        List.forall_mem_append.2
          ⟨hstill, List.forall_mem_singleton.2 fun e he => hbelow ⟨e, he⟩⟩
      cases levels with
      | zero =>
        have hlt := hstack.length_lt
        omega
      | succ levels =>
        have hroom := nestingBound_le_push definition.id hlevels
        obtain ⟨found, parent, hfound, hvalidated, hparent, hlaid⟩ := of_unbounded_eq_some hd
        rw [hdef] at hfound
        cases hfound
        have hbounded : Bounded ((setupOf config set).Mentions definition.id)
            (settledKnowledge (setupOf config set) (stack ++ [definition.id])
              (freshAnswer (setupOf config set) levels (stack ++ [definition.id])))
            (unbounded config set depth) :=
          bounded_settledKnowledge hset hpush hfree' fun needed e hmentions hneeded he =>
            (ih (hfilled.of_mentions hmentions) hneeded he hpush hfree' hroom).toIsExact
        have hbases : ∀ base ∈ definition.bases, ∀ e,
            unbounded config set depth base = .ok (some e) →
            (setupOf config set).Mentions definition.id base := by
          intro base hbase e he
          exact ⟨definition, hdef, .inl ⟨hbase, defines_of_unbounded he⟩⟩
        rw [freshAnswer_succ hkeyed hstack hlevels hdef]
        unfold settledAnswer
        rw [hvalidated, cycleThrough?_eq_none hmem]
        exact exactAnswer_of_bounded hbounded hset hvalid hheader (hfilled.isFilledFrom hdef) hbases
          hparent hlaid

end Builds

/-! ## Classes that are built -/

/-- What a registry knows that builds of classes of the set have filled is what its classes are over
the natural numbers. -/
theorem Grounded.exists_extends {config : LayoutConfig} {set : DefinitionSet}
    {entries : OrderedMap ClassId Descriptor} (hvalid : config.validate = .ok ())
    (hheader : config.HeaderFits) (h : Grounded (setupOf config set) entries) :
    ∃ depth, (unbounded config set depth).Extends (known (setupOf config set) { entries }) := by
  induction h with
  | empty =>
    refine ⟨1, fun cls v hv => ?_⟩
    rcases of_known_eq_ok hv with ⟨_, hget, -⟩ | ⟨-, hdef, rfl⟩
    · cases hget
    · exact unbounded_eq_none hdef
  | @insert entries definition parent d _ hdef hvalidated _ hparent hlayOut ih =>
    obtain ⟨depth, hdepth⟩ := ih
    have hmeasured : (known (setupOf config set) { entries }).IsMeasured := fun _ _ hknown =>
      unbounded_isMeasured hvalid hheader.pointerSize_lt set depth (hdepth hknown)
    refine ⟨depth + 1, fun cls v hv => ?_⟩
    rcases of_known_eq_ok hv with ⟨e, hget, rfl⟩ | ⟨-, hnone, rfl⟩
    · rcases OrderedMap.of_get?_insert hget with ⟨rfl, rfl⟩ | hold
      · have hlaid := Knowledge.layOutUnbounded_of_layOut hmeasured.isAligned
          (fun _ _ hknown => hdepth hknown) hvalid
          (fun p hp => (hmeasured.parent_measured hparent p hp).toSound) hlayOut
        exact unbounded_eq_some hdef hvalidated (Knowledge.parent_mono hdepth hparent) hlaid
      · exact unbounded_extends config set depth (hdepth (known_of_get? hold))
    · exact unbounded_eq_none hnone

/-- A class that is built has the same layout over the natural numbers. -/
theorem Stands.exists_unbounded {config : LayoutConfig} {set : DefinitionSet} (hset : set.IsKeyed)
    (hvalid : config.validate = .ok ()) (hheader : config.HeaderFits) {s : Registry}
    (hs : Stands (setupOf config set) [] s) {definition : ClassDefinition}
    (hdef : set.get? definition.id = some definition) {d : Descriptor}
    (h : ((buildDefinition (setupOf config set) definition).exec s).1 = .ok d) :
    ∃ depth, unbounded config set depth definition.id = .ok (some d) := by
  have hkeyed := isKeyed_setupOf config hset
  have hrecorded := buildNested_records (grounded_invariant hkeyed) hkeyed
    (nestingBound (setupOf config set)) definition none (s := s) ⟨hdef, rfl⟩ hs.grounded
  obtain ⟨depth, hdepth⟩ := hrecorded.holds.exists_extends hvalid hheader
  exact ⟨depth, hdepth (known_of_get? (hrecorded.registered h))⟩

/-! ## Exact builds -/

/-- How a class is built whose layout over the natural numbers is `d`. -/
structure BuildsExactly (setup : RegistrySetup) (definition : ClassDefinition) (d : Descriptor)
    (s : Registry) : Prop where
  /-- No sum in front of the attributes has wrapped around. -/
  attrOffset_eq : d.attrOffset = d.parent?.elim
    (setup.config.objectHeaderSize + setup.config.pointerSize) fun p => p.size
  /-- Nor has one in front of the slots, if the virtual table of the parent fits. -/
  ownSlotsOffset_eq : ∀ p, d.parent? = some p →
    setup.config.vtableHeaderSize + p.slotCount * setup.config.pointerSize < addressSpace →
    d.ownSlotsOffset = setup.config.vtableHeaderSize + p.slotCount * setup.config.pointerSize
  succeeds_iff : (∃ e, ((buildDefinition setup definition).exec s).1 = .ok e) ↔
    d.size < addressSpace
  /-- Every offset, every size and every alignment is that of the natural numbers. -/
  answer_eq : ∀ e, ((buildDefinition setup definition).exec s).1 = .ok e → e = d
  overflows : addressSpace ≤ d.size → Overflows ((buildDefinition setup definition).exec s).1
  /-- Nothing is registered for a class that is too large. -/
  unregistered : addressSpace ≤ d.size →
    ((buildDefinition setup definition).exec s).2.get? definition.id = none
  /-- Where the parent fits, the overflow is put down to the attribute at which it arises. -/
  names : (∀ p, d.parent? = some p → p.size < addressSpace) → addressSpace ≤ d.size →
    ∃ entry text, d.overflowing? = some entry ∧
      ((buildDefinition setup definition).exec s).1 = .error (.sizeOverflow d.id entry.1 text)
  /-- What a pointer points to is not sized, and not asked for. -/
  pointer : ∀ nested user target,
    ((AttributeType.pointer target).layout (typeEnv setup nested user)).exec s =
      (.ok (.pointer setup.config.pointerSize), s)

/-- A class with an exact answer is built exactly. -/
theorem Stands.buildsExactly {config : LayoutConfig} {set : DefinitionSet} {s : Registry}
    (hs : Stands (setupOf config set) [] s) (hset : set.IsKeyed) (hheader : config.HeaderFits)
    {definition : ClassDefinition} (hdef : set.get? definition.id = some definition) {depth : Nat}
    {d : Descriptor} (hd : unbounded config set depth definition.id = .ok (some d))
    (h : ExactAnswer d ((buildDefinition (setupOf config set) definition).exec s).1) :
    BuildsExactly (setupOf config set) definition d s where
  attrOffset_eq := attrOffset_of_unbounded hheader hd
  ownSlotsOffset_eq := fun _ hp hfits => ownSlotsOffset_of_unbounded hd hp hfits
  succeeds_iff := ⟨fun ⟨_, he⟩ => h.lt_of_eq_ok he, fun hsize => ⟨d, h.fits hsize⟩⟩
  answer_eq := by
    intro e he
    have hfits := h.fits (h.lt_of_eq_ok he)
    rw [he] at hfits
    exact Except.ok.inj hfits
  overflows := h.overflows
  unregistered := by
    intro hsize
    obtain ⟨_, _, _, herror⟩ := h.overflows hsize
    have hkeyed := isKeyed_setupOf config hset
    refine buildNested_refused (grounded_invariant hkeyed) hkeyed hs.grounded ?_ herror
    cases hget : s.get? definition.id with
    | none => rfl
    | some e =>
      -- What is registered would be built again.
      have hagain := hs.grounded.rebuilds hkeyed hdef hget (isStack_nil _) hs.absent
        (Nat.le_refl _) hs
      exact absurd (h.lt_of_eq_ok hagain) (Nat.not_lt.2 hsize)
  names := fun hparent hsize => (h.names hparent).names hsize
  pointer := fun _ _ _ => rfl

/-- Whatever was built before, a class whose layout exists over the natural numbers is built exactly
if it fits into the address space, as far as neither it nor a class that it depends on has an array
without elements. -/
theorem buildsExactly_of_unbounded {config : LayoutConfig} {definitions : List ClassDefinition}
    (hvalid : config.validate = .ok ()) (hheader : config.HeaderFits)
    {history : List ClassDefinition}
    (hhistory : ∀ earlier ∈ history, earlier ∈ (DefinitionSet.ofDefinitions definitions).values)
    {definition : ClassDefinition}
    (hdef : definition ∈ (DefinitionSet.ofDefinitions definitions).values)
    (hfilled : (setupOf config (.ofDefinitions definitions)).IsFilledBelow definition.id)
    {depth : Nat} {d : Descriptor}
    (hd : unbounded config (.ofDefinitions definitions) depth definition.id = .ok (some d)) :
    BuildsExactly (setupOf config (.ofDefinitions definitions)) definition d
      (afterBuilds (setupOf config (.ofDefinitions definitions)) history ∅) := by
  have hset := DefinitionSet.isKeyed_ofDefinitions definitions
  have hkeyed := isKeyed_setupOf config hset
  have hget := hset.get?_id hdef
  have hs := (stands_empty (setupOf config (.ofDefinitions definitions))).afterBuilds hkeyed
    fun earlier hmem => hset.get?_id (hhistory earlier hmem)
  have hstack := isStack_nil (setupOf config (.ofDefinitions definitions))
  have hexact := freshAnswer_isExact hset hvalid hheader hfilled hget hd hstack
    (fun _ h => nomatch h) (Nat.le_refl _)
  rw [← hs.answer_eq_freshAnswer hkeyed hstack (Nat.le_refl _) hget] at hexact
  exact hs.buildsExactly hset hheader hget hd hexact

/-- A value that is found in an answer that may lack one is answered. -/
theorem eq_ok_some_of_join {ε α : Type} {x : Except ε (Option α)} {a : α}
    (h : x.toOption.join = some a) : x = .ok (some a) := by
  rcases x with error | v
  · cases h
  · exact congrArg Except.ok h

/-- A class with two attributes, each of which fits while both together do not. The overflow is put
down to the second one. A class beside it has an array without elements. -/
theorem buildsExactly_of_wide :
    ∃ definitions definition d, ({} : LayoutConfig).validate = .ok () ∧
      ({} : LayoutConfig).HeaderFits ∧
      definition ∈ (DefinitionSet.ofDefinitions definitions).values ∧
      (setupOf {} (.ofDefinitions definitions)).IsFilledBelow definition.id ∧
      (¬ ∀ other ∈ definitions, ∀ entry ∈ other.attributes, entry.2.IsFilled) ∧
      unbounded {} (.ofDefinitions definitions) 1 definition.id = .ok (some d) ∧
      addressSpace ≤ d.size ∧ (d.overflowing?.map Prod.fst) = some "hi" ∧
      BuildsExactly (setupOf {} (.ofDefinitions definitions)) definition d
        (afterBuilds (setupOf {} (.ofDefinitions definitions)) [definition] ∅) := by
  let half : AttributeType := .array (.primitive .int8) (2 ^ 63)
  let wide : ClassDefinition := { id := ⟨"Wide"⟩, attributes := [("lo", half), ("hi", half)] }
  let hollow : ClassDefinition :=
    { id := ⟨"Hollow"⟩, attributes := [("none", .array (.primitive .int8) 0)] }
  have hget : (DefinitionSet.ofDefinitions [wide, hollow]).get? wide.id = some wide := by decide
  have hwide : ((unbounded {} (.ofDefinitions [wide, hollow]) 1 wide.id).toOption.join.map fun d =>
      (decide (addressSpace ≤ d.size), d.overflowing?.map Prod.fst)) = some (true, some "hi") := by
    decide
  obtain ⟨d, hjoin, hfacts⟩ := Option.map_eq_some_iff.1 hwide
  have hd := eq_ok_some_of_join hjoin
  have hmem : ∀ earlier ∈ [wide],
      earlier ∈ (DefinitionSet.ofDefinitions [wide, hollow]).values :=
    List.forall_mem_singleton.2 (by decide)
  have hfilled : (setupOf {} (.ofDefinitions [wide, hollow])).IsFilledBelow wide.id := by
    intro other found hpath hfound
    rcases hpath.cases_head with rfl | ⟨next, ⟨definition, hdef, hmentions⟩, -⟩
    · cases hget.symm.trans hfound
      exact List.forall_mem_cons.2 ⟨⟨by decide, trivial⟩,
        List.forall_mem_singleton.2 ⟨by decide, trivial⟩⟩
    · -- The class has no base and stores no class.
      cases hget.symm.trans hdef
      rcases hmentions with ⟨hbase, -⟩ | ⟨entry, hentry, hstored⟩
      · cases hbase
      · simp [wide, half] at hentry
        rcases hentry with rfl | rfl <;> cases hstored
  have hhollow : ¬ ∀ other ∈ [wide, hollow], ∀ entry ∈ other.attributes, entry.2.IsFilled := by
    intro hall
    have hnone := hall hollow (by simp) ("none", .array (.primitive .int8) 0) (by simp [hollow])
    exact absurd hnone.1 (by decide)
  have hin := hmem wide List.mem_cons_self
  exact ⟨[wide, hollow], wide, d, rfl, by decide, hin, hfilled, hhollow, hd,
    of_decide_eq_true (congrArg Prod.fst hfacts), congrArg Prod.snd hfacts,
    buildsExactly_of_unbounded rfl (by decide) hmem hin hfilled hd⟩

/-- An array without elements takes no space, but its elements are sized, and refused where one of
them is too large. So the class would fit and is not built. -/
theorem exists_fits_not_builds :
    ∃ definitions definition d, ({} : LayoutConfig).validate = .ok () ∧
      ({} : LayoutConfig).HeaderFits ∧
      definition ∈ (DefinitionSet.ofDefinitions definitions).values ∧
      definition.attributes = [("a", .array (.array (.primitive .int64) (2 ^ 62)) 0)] ∧
      unbounded {} (.ofDefinitions definitions) 1 definition.id = .ok (some d) ∧
      d.size = 24 ∧ d.size < addressSpace ∧
      ((buildDefinition (setupOf {} (.ofDefinitions definitions)) definition).exec ∅).1 =
        .error (.sizeOverflow ⟨"Z"⟩ "a" "[int64; 4611686018427387904]") := by
  let z : ClassDefinition :=
    { id := ⟨"Z"⟩, attributes := [("a", .array (.array (.primitive .int64) (2 ^ 62)) 0)] }
  have hsize : ((unbounded {} (.ofDefinitions [z]) 1 z.id).toOption.join.map fun d => d.size) =
      some 24 := by
    decide
  obtain ⟨d, hjoin, hsize⟩ := Option.map_eq_some_iff.1 hsize
  refine ⟨[z], z, d, rfl, by decide, by decide, rfl, eq_ok_some_of_join hjoin, hsize, ?_, ?_⟩
  · rw [hsize]
    decide
  · decide +kernel

end Registry

end ObjectLayout
