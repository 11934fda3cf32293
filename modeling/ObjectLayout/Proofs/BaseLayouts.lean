import ObjectLayout.Proofs.LayoutStability
import ObjectLayout.Proofs.MethodResolution
import ObjectLayout.Proofs.ParentChoice

/-!
# What a class takes over from its bases

Code that holds an instance by one of its bases reaches attributes and methods by the offsets and
slots of the base. A class that is built reproduces them for every declared base that is an
extension type (`ReproducesBases`), as long as the parent that is given with it is not another
descriptor of the same identity as the base. In that case the class reproduces the given parent, and
nothing of the base that is registered need be left (`foreign_parent_not_reproduces`).
-/

set_option autoImplicit false

namespace ObjectLayout

open LayoutM (exists_eq_ok_of_map)

/-- A layout has the attributes and the methods of another one where the other one has them. -/
structure Reproduces (q d : ClassLayout) : Prop where
  variableNamed : ∀ {name v}, q.variableNamed name = .ok v →
    ∃ w, d.variableNamed name = .ok w ∧ w.type = v.type ∧ w.offset = v.offset
  slotOf : ∀ {name index}, q.slotOf name = .ok index → d.slotOf name = .ok index

/-- A layout reproduces itself. -/
theorem Reproduces.refl (c : ClassLayout) : Reproduces c c where
  variableNamed h := ⟨_, h, rfl, rfl⟩
  slotOf h := h

/-- A class answers a variable exactly when its symbol table has it. -/
theorem variableNamed_eq_ok_iff {c : ClassLayout} {name : String} {v : Variable} :
    c.variableNamed name = .ok v ↔ c.symbols.get? name = some v := by
  unfold ClassLayout.variableNamed
  cases c.symbols.get? name <;> simp

/-- An extension has every attribute in its place. -/
theorem LayoutExtends.exists_variableNamed {a d : ClassLayout} (h : LayoutExtends a d)
    (hnodup : d.symbols.keys.Nodup) {name : String} {v : Variable}
    (hv : a.variableNamed name = .ok v) :
    ∃ w, d.variableNamed name = .ok w ∧ w.type = v.type ∧ w.offset = v.offset := by
  have hmem := OrderedMap.mem_toList_of_get?_eq_some (variableNamed_eq_ok_iff.1 hv)
  have hplace : Place.ofEntry a.id (name, v) ∈ d.places :=
    h.isPrefix_places.subset (List.mem_map.2 ⟨_, hmem, rfl⟩)
  obtain ⟨⟨name', w⟩, hentry, heq⟩ := List.mem_map.1 hplace
  have hname : name' = name := congrArg Place.name heq
  subst hname
  refine ⟨w, variableNamed_eq_ok_iff.2 (OrderedMap.get?_eq_some_of_mem hnodup hentry),
    congrArg Place.type heq, ?_⟩
  exact congrArg Offset.mk (congrArg Place.offset heq)

namespace Registry

variable {scope : Scope} {setup : RegistrySetup} {s : Registry} {definition : ClassDefinition}
  {given : Option Descriptor} {d p q : Descriptor} {above origins : List Origin} {levels : Nat}

/-- A class reproduces its parent. -/
theorem Lineage.reproduces (h : Lineage scope (some d) origins) (hparent : d.parent? = some p) :
    Reproduces p.toClassLayout d.toClassLayout := by
  have hmem : p.toClassLayout ∈ d.ancestors := by
    unfold Descriptor.parent? at hparent
    split at hparent
    · cases hparent
    · next heq =>
      cases hparent
      rw [heq]
      exact List.mem_cons_self
  exact
    { variableNamed := (h.layoutExtends _ (List.mem_cons_of_mem _ hmem)).exists_variableNamed
        h.sound.nodup_symbols
      slotOf := h.slotOf_eq hmem }

/-- The parent below which a class is registered bears the identity of every base that is an
extension type, and is the descriptor of the base unless a parent is given. -/
theorem exists_parent_of_base (h : Reachable scope setup s) (habsent : s.get? definition.id = none)
    (hanswer : ((buildNested setup levels definition given).exec s).1 = .ok d) {base : ClassId}
    (hbase : base ∈ definition.bases)
    (hq : ((buildNested setup levels definition given).exec s).2.get? base = some q)
    (hne : base ≠ definition.id) :
    ∃ p, d.parent? = some p ∧ p.id = base ∧ (given = some p ∨ p = q) := by
  have hrecorded := h.records levels definition given
  obtain ⟨t, parent, hpublication⟩ := hrecorded.published hanswer habsent
  obtain ⟨out, hout⟩ := Knowledge.exists_outline hpublication.layOut_eq
  have hid := Knowledge.id_eq_of_layOut hpublication.layOut_eq
  have hafter : ∀ cls, cls ≠ definition.id → ∀ e,
      ((buildNested setup levels definition given).exec s).2.get? cls = some e ↔
        t.get? cls = some e := by
    intro cls hcls e
    have hinsert := OrderedMap.get?_insert_of_ne t.entries (hid ▸ hcls) d
    rw [← hpublication.entries_eq] at hinsert
    exact Eq.congr_left hinsert
  have hkeyed : IsKeyed t := by
    intro cls e hget
    have hcls : cls ≠ definition.id := by
      rintro rfl
      rw [hpublication.absent_before] at hget
      cases hget
    exact hrecorded.holds ((hafter cls hcls e).2 hget)
  rw [hout.parent?_eq]
  exact Knowledge.parent_of_base (isNamed_known hkeyed) hpublication.parent_eq hbase
    (known_of_get? ((hafter base hne q).1 hq))

/-- What a class that was built takes over from its bases: `after` is the registry that the build
leaves. -/
structure ReproducesBases (definition : ClassDefinition) (given : Option Descriptor)
    (after : Registry) (d : Descriptor) : Prop where
  /-- A base that is registered is reproduced, unless another descriptor of that class was given as
  the parent. -/
  base : ∀ base ∈ definition.bases, ∀ q, after.get? base = some q →
    (∀ p, given = some p → p.id = base → p = q) →
    Reproduces q.toClassLayout d.toClassLayout
  /-- In any case there is one parent, which is reproduced. It bears the identity of the base. -/
  parent : ∀ base ∈ definition.bases, ∀ q, after.get? base = some q → base ≠ definition.id →
    ∃ p, d.parent? = some p ∧ p.id = base ∧ (given = some p ∨ p = q) ∧
      Reproduces p.toClassLayout d.toClassLayout

/-- A class that a build registers reproduces its bases. -/
theorem reproducesBases_of_reachable (h : Reachable scope setup s)
    (hdef : scope.Definition definition) (hgiven : Lineage scope given above)
    (habsent : s.get? definition.id = none)
    (hanswer : ((buildNested setup levels definition given).exec s).1 = .ok d) :
    ReproducesBases definition given ((buildNested setup levels definition given).exec s).2 d := by
  obtain ⟨origins, hlineage⟩ := exists_lineage_of_answer h hdef hgiven hanswer
  have hregistered := (h.records levels definition given).registered hanswer
  constructor
  · intro base hbase q hq hsame
    by_cases hne : base = definition.id
    · subst hne
      cases hregistered.symm.trans hq
      exact .refl _
    · obtain ⟨p, hparent, hid, hfound⟩ := exists_parent_of_base h habsent hanswer hbase hq hne
      have hp : p = q := by
        rcases hfound with hgiven | hbase
        · exact hsame p hgiven hid
        · exact hbase
      subst hp
      exact hlineage.reproduces hparent
  · intro base hbase q hq hne
    obtain ⟨p, hparent, hid, hfound⟩ := exists_parent_of_base h habsent hanswer hbase hq hne
    exact ⟨p, hparent, hid, hfound, hlineage.reproduces hparent⟩

/-- A class that declares as its base what is also given as its parent. -/
theorem reproducesBases_of_pixel :
    ∃ setup s definition given above d, Reachable .every setup s ∧ Lineage .every given above ∧
      s.get? definition.id = none ∧ ((build setup definition given).exec s).1 = .ok d ∧
      definition.bases = [⟨"Point"⟩] ∧ s.contains ⟨"Point"⟩ ∧ given = s.get? ⟨"Point"⟩ ∧
      ReproducesBases definition given ((build setup definition given).exec s).2 d := by
  let point : ClassDefinition := { id := ⟨"Point"⟩, attributes := [("x", .primitive .int32)] }
  let pixel : ClassDefinition :=
    { id := ⟨"Pixel"⟩, bases := [⟨"Point"⟩], attributes := [("color", .primitive .int8)] }
  let s := ((build {} point none).exec ∅).2
  have hallows : Scope.every.Allows {} := allows_of_valid trivial rfl
  have hs : Reachable .every {} s := .build (nestingBound {}) (.empty hallows) trivial .nil
  have hpoint : (s.get? ⟨"Point"⟩).isSome := by decide
  obtain ⟨p, hp⟩ := Option.isSome_iff_exists.1 hpoint
  obtain ⟨above, habove⟩ := hs.exists_lineage hp
  have hpixel : ((build {} pixel (s.get? ⟨"Point"⟩)).exec s).1.isOk := by decide
  rw [hp] at hpixel
  cases hanswer : ((build {} pixel (some p)).exec s).1 with
  | error error =>
    rw [hanswer] at hpixel
    cases hpixel
  | ok d =>
    exact ⟨{}, s, pixel, some p, above, d, hs, habove, by decide, hanswer, rfl, by decide, hp.symm,
      reproducesBases_of_reachable hs trivial habove (by decide) hanswer⟩

/-- Two registries have a class of the same identity. A class of one registry that declares it as a
base, and is given the class of the other one as its parent, lacks the attributes of its base. -/
theorem foreign_parent_not_reproduces :
    ∃ setup s definition given above d base q, Reachable .every setup s ∧
      Lineage .every given above ∧ s.get? definition.id = none ∧
      ((build setup definition given).exec s).1 = .ok d ∧ base ∈ definition.bases ∧
      s.get? base = some q ∧ ¬ Reproduces q.toClassLayout d.toClassLayout := by
  let near : ClassDefinition := { id := ⟨"Base"⟩, attributes := [("x", .primitive .int64)] }
  let far : ClassDefinition := { id := ⟨"Base"⟩, attributes := [("y", .primitive .int8)] }
  let derived : ClassDefinition := { id := ⟨"D"⟩, bases := [⟨"Base"⟩] }
  let s := ((build {} near none).exec ∅).2
  let other := ((build {} far none).exec ∅).2
  have hallows : Scope.every.Allows {} := allows_of_valid trivial rfl
  have hs : Reachable .every {} s := .build (nestingBound {}) (.empty hallows) trivial .nil
  have hother : Reachable .every {} other := .build (nestingBound {}) (.empty hallows) trivial .nil
  have hbase : (s.get? ⟨"Base"⟩).map (fun q => (q.variableNamed "x").isOk) = some true := by decide
  have hbuilt : (other.get? ⟨"Base"⟩).map (fun p => ((build {} derived (some p)).exec s).1.map
      fun d => (d.variableNamed "x").isOk) = some (.ok false) := by decide +kernel
  obtain ⟨q, hq, hplaced⟩ := Option.map_eq_some_iff.1 hbase
  obtain ⟨p, hp, hanswer⟩ := Option.map_eq_some_iff.1 hbuilt
  obtain ⟨d, hd, hlacks⟩ := exists_eq_ok_of_map hanswer
  obtain ⟨above, habove⟩ := hother.exists_lineage hp
  refine ⟨{}, s, derived, some p, above, d, ⟨"Base"⟩, q, hs, habove, by decide, hd, by decide, hq,
    fun h => ?_⟩
  cases hv : q.variableNamed "x" with
  | error error =>
    rw [hv] at hplaced
    cases hplaced
  | ok v =>
    obtain ⟨w, hw, -⟩ := h.variableNamed hv
    rw [hw] at hlacks
    cases hlacks

end Registry

end ObjectLayout
