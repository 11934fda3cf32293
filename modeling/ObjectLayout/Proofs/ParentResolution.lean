import ObjectLayout.Proofs.ParentChoice

/-!
# What the bases of a class decide

The bases of a class are asked for one after another, and asking for one of them may build whole
families of classes that later bases then find. None of that matters. What a base answers is the
same whatever was built on demand before (`BeginsBuild.asks`), so that the bases can be taken as if
each of them was asked for first (`askedFirst`), and the parent is found from the identities that
occur among them (`parentIds`). Two lists of bases with the same extension types therefore make the
same class, or none (`ResolvesParent.sameBases`).
-/

set_option autoImplicit false

namespace ObjectLayout

open LayoutM (Follows exists_eq_ok_of_bind bind_eq_ok)

/-! ## Identities -/

/-- A list holds one identity and no other exactly if that is what is left without repetitions. -/
theorem eraseDups_eq_singleton_iff {cls : ClassId} {l : List ClassId} :
    l.eraseDups = [cls] ↔ cls ∈ l ∧ ∀ other ∈ l, other = cls := by
  constructor
  · intro h
    have hmem : ∀ other, other ∈ l ↔ other = cls := by
      intro other
      rw [← List.mem_eraseDups, h, List.mem_singleton]
    exact ⟨(hmem cls).2 rfl, fun other => (hmem other).1⟩
  · rintro ⟨hmem, hall⟩
    cases l with
    | nil => cases hmem
    | cons first rest =>
      have hrest : rest.filter (fun b => !b == first) = [] := by
        apply List.filter_eq_nil_iff.2
        intro other hother
        rw [hall first List.mem_cons_self, hall other (List.mem_cons_of_mem _ hother)]
        simp
      rw [List.eraseDups_cons, hrest, hall first List.mem_cons_self]
      rfl

/-- Where at most one class occurs, nothing but the classes that occur counts. -/
theorem eraseDups_eq_of_mem_iff {l l' : List ClassId} (h : ∀ cls, cls ∈ l' ↔ cls ∈ l)
    (hle : l.eraseDups.length ≤ 1) : l'.eraseDups = l.eraseDups := by
  rcases heq : l.eraseDups with _ | ⟨cls, _ | ⟨other, rest⟩⟩
  · have hnone : ∀ cls, cls ∉ l' := by
      intro cls hmem
      rw [h, ← List.mem_eraseDups, heq] at hmem
      cases hmem
    rw [List.eq_nil_iff_forall_not_mem.2 hnone]
    rfl
  · obtain ⟨hmem, hall⟩ := eraseDups_eq_singleton_iff.1 heq
    exact eraseDups_eq_singleton_iff.2
      ⟨(h cls).2 hmem, fun other hother => hall other ((h other).1 hother)⟩
  · rw [heq] at hle
    simp at hle

/-- A class that has been found need not be looked for again. -/
theorem removeAll_cons_of_mem {cls : ClassId} {l found : List ClassId} (h : cls ∈ found) :
    (cls :: l).removeAll found = l.removeAll found := by
  simp [List.cons_removeAll, h]

/-- What has not been found yet is found next. -/
theorem eraseDups_removeAll_cons {cls : ClassId} {l found : List ClassId} (h : cls ∉ found) :
    ((cls :: l).removeAll found).eraseDups =
      cls :: (l.removeAll (found ++ [cls])).eraseDups := by
  have hrest : (l.removeAll found).filter (fun b => !b == cls) = l.removeAll (found ++ [cls]) := by
    simp only [List.removeAll, List.filter_filter]
    apply List.filter_congr
    intro other _
    rw [Bool.eq_iff_iff]
    simp [and_comm]
  simp [List.cons_removeAll, h, List.eraseDups_cons, hrest]

/-- The identities that occur among the parents of a class: that of a given parent, and the bases
that are extension types, each where it occurs first. -/
def parentIds (extension : ClassId → Bool) (given : Option Descriptor) (bases : List ClassId) :
    List ClassId :=
  (given.toList.map (fun p => p.id) ++ bases.filter extension).eraseDups

namespace Knowledge

variable {known : Knowledge} {decl : ClassDecl} {given parent : Option Descriptor}
  {before after bases bases' : List ClassId} {base : ClassId} {found : List Descriptor}
  {p : Descriptor} {error : LayoutError} {extension : ClassId → Bool}

/-! ## Finding the parent -/

/-- The parents found so far and what another base answers. -/
def joined (found : List Descriptor) : Option Descriptor → List Descriptor
  | none => found
  | some d => if d.id ∈ found.map fun p => p.id then found else found ++ [d]

/-- A base that is known joins the parents that have been found. -/
theorem parents_cons {v : Option Descriptor} (hv : known base = .ok v) :
    known.parents found (base :: bases) = known.parents (joined found v) bases := by
  rw [parents, hv]
  cases v with
  | none => rfl
  | some d =>
    unfold joined
    by_cases hmem : d.id ∈ found.map fun p => p.id
    · simp only [bind, Except.bind, hmem, if_true]
    · simp only [bind, Except.bind, hmem, if_false]

/-- The bases are asked for in order, and the first one that is refused refuses the class. -/
theorem parents_eq_error (hbefore : ∀ b ∈ before, ∃ v, known b = .ok v)
    (herror : known base = .error error) :
    known.parents found (before ++ base :: after) = .error error := by
  induction before generalizing found with
  | nil =>
    rw [List.nil_append, parents, herror]
    rfl
  | cons first rest ih =>
    obtain ⟨⟨v, hv⟩, hrest⟩ := List.forall_mem_cons.1 hbefore
    rw [List.cons_append, parents_cons hv]
    exact ih hrest

/-- What is known of a class is its own descriptor, for an extension type, or nothing. -/
structure Separates (known : Knowledge) (extension : ClassId → Bool) : Prop where
  named : known.IsNamed
  isSome_eq : ∀ {base : ClassId} {v : Option Descriptor}, known base = .ok v →
    v.isSome = extension base

/-- Where no base is refused, the parents found are those of before and the bases that are extension
types, each once. -/
theorem exists_parents (h : known.Separates extension) (bases : List ClassId)
    (hok : ∀ base ∈ bases, ∃ v, known base = .ok v) (found : List Descriptor) :
    ∃ ps, known.parents found bases = .ok ps ∧
      ps.map (fun p => p.id) = found.map (fun p => p.id) ++
        ((bases.filter extension).removeAll (found.map fun p => p.id)).eraseDups := by
  induction bases generalizing found with
  | nil => exact ⟨found, rfl, (List.append_nil _).symm⟩
  | cons first rest ih =>
    obtain ⟨⟨v, hv⟩, hrest⟩ := List.forall_mem_cons.1 hok
    have hextension := h.isSome_eq hv
    rw [parents_cons hv]
    cases v with
    | none =>
      rw [List.filter_cons_of_neg (by simp [← hextension])]
      exact ih hrest found
    | some d =>
      have hid := h.named hv
      subst hid
      rw [List.filter_cons_of_pos (by simp [← hextension])]
      by_cases hmem : d.id ∈ found.map fun p => p.id
      · rw [removeAll_cons_of_mem hmem, joined, if_pos hmem]
        exact ih hrest found
      · obtain ⟨ps, hps, hids⟩ := ih hrest (found ++ [d])
        rw [joined, if_neg hmem]
        refine ⟨ps, hps, ?_⟩
        rw [hids, eraseDups_removeAll_cons hmem, List.map_append, List.append_assoc]
        rfl

/-- Where every base is known there are parents, and their identities are those of the bases that
are extension types. -/
theorem exists_parents_of_given (h : known.Separates extension)
    (hok : ∀ base ∈ bases, ∃ v, known base = .ok v) (given : Option Descriptor) :
    ∃ ps, known.parents given.toList bases = .ok ps ∧
      ps.map (fun p => p.id) = parentIds extension given bases := by
  obtain ⟨ps, hps, hids⟩ := exists_parents h bases hok given.toList
  refine ⟨ps, hps, ?_⟩
  rw [hids, parentIds, List.eraseDups_append]
  cases given <;> rfl

/-- The single parent that is found is the given one or, where none is given, the class of a
base. -/
theorem of_parents_eq_singleton (hnamed : known.IsNamed)
    (h : known.parents given.toList bases = .ok [p]) :
    given = some p ∨ (given = none ∧ known p.id = .ok (some p)) := by
  cases given with
  | some g =>
    have hmem : g ∈ [p] := (mem_ids_of_parents bases h).1.subset List.mem_cons_self
    exact .inl (congrArg some (List.mem_singleton.1 hmem))
  | none =>
    rcases mem_parents bases h List.mem_cons_self with hfound | ⟨base, hbase⟩
    · cases hfound
    · have hid := hnamed hbase
      subst hid
      exact .inr ⟨rfl, hbase⟩

/-- There is one parent of an identity, whatever bases lead to it. -/
theorem eq_of_parents_eq_singleton {p' : Descriptor} (hnamed : known.IsNamed)
    (hp : known.parents given.toList bases = .ok [p])
    (hp' : known.parents given.toList bases' = .ok [p']) (hid : p'.id = p.id) : p' = p := by
  rcases of_parents_eq_singleton hnamed hp with hgiven | ⟨hgiven, hknown⟩ <;>
    rcases of_parents_eq_singleton hnamed hp' with hgiven' | ⟨hgiven', hknown'⟩
  · exact Option.some.inj (hgiven'.symm.trans hgiven)
  · cases hgiven.symm.trans hgiven'
  · cases hgiven.symm.trans hgiven'
  · rw [hid, hknown] at hknown'
    exact (Option.some.inj (Except.ok.inj hknown')).symm

/-- A list of bases with the same extension types leads to the same parent. -/
theorem parent_of_same_extensions (h : known.Separates extension)
    (hok : ∀ base ∈ bases', ∃ v, known base = .ok v)
    (hsame : ∀ base, extension base = true → (base ∈ bases' ↔ base ∈ decl.bases))
    (hparent : known.parent decl given = .ok parent) :
    known.parent { decl with bases := bases' } given = .ok parent := by
  have hknown := fun base (hbase : base ∈ decl.bases) => known_of_parent hparent hbase
  obtain ⟨ps, hps, hids⟩ := exists_parents_of_given h hknown given
  obtain ⟨ps', hps', hids'⟩ := exists_parents_of_given h hok given
  obtain ⟨found, hfound, hsingle⟩ := exists_eq_ok_of_bind hparent
  cases hfound.symm.trans hps
  obtain ⟨rfl, -⟩ := Registry.of_singleParent_eq_ok hsingle
  -- At most one identity occurs in either list, and the same one.
  have hoccur : parentIds extension given bases' = parentIds extension given decl.bases := by
    apply eraseDups_eq_of_mem_iff
    · intro cls
      simp only [List.mem_append, List.mem_filter]
      exact or_congr_right (and_congr_left (hsame cls))
    · show (parentIds extension given decl.bases).length ≤ 1
      rw [← hids, List.length_map]
      cases parent <;> simp
  rw [hoccur, ← hids] at hids'
  have hparents : ps' = parent.toList := by
    cases parent with
    | none => exact List.map_eq_nil_iff.1 hids'
    | some p =>
      obtain ⟨p', rfl, hid⟩ := List.map_eq_singleton_iff.1 hids'
      rw [eq_of_parents_eq_singleton h.named hps hps' hid]
      rfl
  rw [hparents] at hps'
  exact bind_eq_ok hps' hsingle

end Knowledge

/-- The same definition with other bases. -/
def ClassDefinition.withBases (definition : ClassDefinition) (bases : List ClassId) :
    ClassDefinition :=
  { definition with bases := bases }

namespace Registry

variable {setup : RegistrySetup} {s t : Registry} {definition : ClassDefinition}
  {given parent : Option Descriptor} {d : Descriptor} {levels : Nat} {cls base : ClassId}
  {bases bases' : List ClassId}

/-- Two parents are one too many. -/
theorem singleParent_of_two_le {ps : List Descriptor} (h : 2 ≤ ps.length) :
    singleParent cls ps = .error (.multipleInheritance cls (ps.map fun p => p.id)) := by
  rcases ps with _ | ⟨first, _ | ⟨second, rest⟩⟩
  · cases h
  · simp at h
  · rfl

/-! ## Asking for bases -/

/-- The class is registered, or the source has a definition of it. -/
def recognises (setup : RegistrySetup) (s : Registry) (cls : ClassId) : Bool :=
  (s.get? cls).isSome || (setup.definition? cls).isSome

/-- Builds on demand do not make a difference to what is recognised. -/
theorem isSome_eq_recognises (hgrows : Grows setup.Defines s t) {v : Option Descriptor}
    (hknown : t.known setup cls = .ok v) : v.isSome = recognises setup s cls := by
  rcases of_known_eq_ok hknown with ⟨d, hget, rfl⟩ | ⟨hget, hdef, rfl⟩
  · cases hs : s.get? cls with
    | some e => simp [recognises, hs]
    | none =>
      obtain ⟨needed, hneeded⟩ := hgrows.may_of_new hs hget
      simp [recognises, hneeded]
  · cases hs : s.get? cls with
    | some e =>
      rw [hgrows.kept hs] at hget
      cases hget
    | none => simp [recognises, hs, hdef]

/-- What asking for a base answers when the build of a class has just begun. -/
def askedFirst (setup : RegistrySetup) (levels : Nat) (s : Registry) (cls : ClassId) : Knowledge :=
  fun base =>
    ((resolve setup (fun needed => buildNested setup levels needed none) base).exec (s.begin cls)).1

/-- A build that has to find a parent, at a moment of a run at which enough levels of nesting are
left for the builds that it asks for. -/
structure BeginsBuild (setup : RegistrySetup) (levels : Nat) (s : Registry)
    (definition : ClassDefinition) : Prop where
  keyed : setup.IsKeyed
  safe : SafeMoment s
  room : Room setup (s.begin definition.id) levels []
  valid : definition.validate = .ok ()
  free : s.cycleThrough? definition.id = none
  absent : s.get? definition.id = none

namespace BeginsBuild

/-- A build that begins continues the registry with its class in progress. -/
theorem continues (h : BeginsBuild setup levels s definition) :
    Continues setup (s.begin definition.id) [] (s.begin definition.id) :=
  .refl (h.safe.begin h.free h.absent).absent

/-- Asking for a base answers what it answers first, whatever was built on demand before. -/
theorem asks (h : BeginsBuild setup levels s definition)
    (ht : Continues setup (s.begin definition.id) [] t) (base : ClassId) :
    Follows (continuing setup (s.begin definition.id) [])
      (resolve setup (fun needed => buildNested setup levels needed none) base)
      (fun _ => askedFirst setup levels s definition.id base) t :=
  resolve_settled_from h.keyed (stacksOn_nil setup _) h.room base h.continues ht

/-- What a base answers is known in the registry that asking for it leaves. -/
theorem exists_known (h : BeginsBuild setup levels s definition) {v : Option Descriptor}
    (hv : askedFirst setup levels s definition.id base = .ok v) :
    ∃ after, IsKeyed after ∧ Grows setup.Defines (s.begin definition.id) after ∧
      after.known setup base = .ok v := by
  have hfollows := resolve_records (keyed_invariant setup) h.keyed
    (fun needed _ t ht => buildNested_records (keyed_invariant setup) h.keyed levels needed none
      trivial ht) base (h.safe.begin h.free h.absent).keyed
  rcases hexec : (resolve setup (fun needed => buildNested setup levels needed none) base).exec
    (s.begin definition.id) with ⟨answer, after⟩
  rw [askedFirst, hexec] at hv
  cases hv
  exact ⟨after, hfollows.holds_of_exec hexec, hfollows.narrows_of_exec hexec (Grows.refl after),
    hfollows.answer_of_exec hexec (Grows.refl after)⟩

/-- A base that is not refused answers its own descriptor if it is recognised, and nothing
otherwise. -/
theorem separates (h : BeginsBuild setup levels s definition) :
    (askedFirst setup levels s definition.id).Separates (recognises setup s) where
  named := by
    intro base d hd
    obtain ⟨after, hkeyed, -, hknown⟩ := h.exists_known hd
    exact isNamed_known hkeyed hknown
  isSome_eq := by
    intro base v hv
    obtain ⟨after, -, hgrows, hknown⟩ := h.exists_known hv
    exact isSome_eq_recognises hgrows hknown

/-- The parent that a build finds is the one that is found when each base is asked for first. -/
theorem resolveParent_eq (h : BeginsBuild setup levels s definition) (given : Option Descriptor) :
    ((resolveParent setup (fun needed => buildNested setup levels needed none)
        definition.toClassDecl given).exec (s.begin definition.id)).1 =
      (askedFirst setup levels s definition.id).parent definition.toClassDecl given := by
  have hfollows := resolveParent_follows definition.toClassDecl given
    (fun base _ t ht => h.asks ht base) h.continues
  exact (hfollows.answers (.inl trivial) () trivial).symm

/-- A build makes the class from what its bases and the classes that it stores answer first. -/
theorem answer_eq (h : BeginsBuild setup levels s definition) (given : Option Descriptor) :
    ((buildNested setup (levels + 1) definition given).exec s).1 =
      (askedFirst setup levels s definition.id).parent definition.toClassDecl given >>=
        fun parent =>
          (askedFirst setup levels s definition.id).layOut setup.config definition parent := by
  rw [exec_fst_buildNested h.keyed levels h.valid h.free h.absent]
  have hfollows : Follows (continuing setup (s.begin definition.id) [])
      (construct setup (fun needed => buildNested setup levels needed none) definition given)
      (fun _ => (askedFirst setup levels s definition.id).parent definition.toClassDecl given >>=
        fun parent =>
          (askedFirst setup levels s definition.id).layOut setup.config definition parent)
      (s.begin definition.id) :=
    construct_follows (ignoresJournal_continuing _ _) h.continues
      (fun base _ t ht => h.asks ht base) fun _ _ cls _ t ht => h.asks ht cls
  exact (hfollows.answers (.inl trivial) () trivial).symm

end BeginsBuild

/-! ## Bases that do not matter -/

/-- A class of which nothing can be told: it is neither in progress nor registered, and the source
has no definition of it. -/
structure Plain (setup : RegistrySetup) (s : Registry) (cls : ClassId) : Prop where
  free : s.cycleThrough? cls = none
  absent : s.get? cls = none
  undefined : setup.definition? cls = none

/-- Two lists of bases have the same classes, plain ones apart. -/
def SameExtensions (setup : RegistrySetup) (s : Registry) (bases bases' : List ClassId) : Prop :=
  ∀ base, ¬ Plain setup s base → (base ∈ bases' ↔ base ∈ bases)

namespace SameExtensions

variable {bases'' : List ClassId}

/-- Having the same extension types goes both ways. -/
theorem symm (h : SameExtensions setup s bases bases') : SameExtensions setup s bases' bases :=
  fun base hbase => (h base hbase).symm

/-- Having the same extension types goes on from one list of bases to the next. -/
theorem trans (h : SameExtensions setup s bases bases')
    (h' : SameExtensions setup s bases' bases'') : SameExtensions setup s bases bases'' :=
  fun base hbase => (h' base hbase).trans (h base hbase)

/-- The order of the bases does not matter. -/
theorem of_perm (h : bases.Perm bases') : SameExtensions setup s bases bases' :=
  fun _ _ => h.mem_iff.symm

/-- A base that comes twice does not matter. -/
theorem repeated (h : base ∈ bases) : SameExtensions setup s bases (base :: bases) := by
  intro other _
  rw [List.mem_cons, or_iff_right_of_imp]
  rintro rfl
  exact h

/-- A base that is no extension type does not matter. -/
theorem plain (h : Plain setup s base) : SameExtensions setup s bases (base :: bases) := by
  intro other hother
  rw [List.mem_cons, or_iff_right_of_imp]
  rintro rfl
  exact absurd h hother

end SameExtensions

/-- A plain base answers that it is no extension type. -/
theorem askedFirst_of_plain (hkeyed : setup.IsKeyed) (h : Plain setup (s.begin cls) base) :
    askedFirst setup levels s cls base = .ok none := by
  have hfollows : Follows (.bare Registry)
      (resolve setup (fun needed => buildNested setup levels needed none) base)
      (fun _ => .ok none) (s.begin cls) := by
    apply resolve_follows ignoresJournal_bare hkeyed (fun needed _ t _ => ⟨_, .self _ t⟩) trivial
    · intro error hcycle
      rw [h.free] at hcycle
      cases hcycle
    · intro d _ hget
      rw [h.absent] at hget
      cases hget
    · exact fun _ _ _ _ _ => rfl
    · intro needed _ _ hdef
      rw [h.undefined] at hdef
      cases hdef
  exact hfollows.exec_fst

/-- A class that is no extension type is not recognised as one. -/
theorem Plain.not_recognises (h : Plain setup s cls) : recognises setup s cls = false := by
  simp [recognises, h.absent, h.undefined]

/-- A list of bases with the same extension types makes the same class. -/
theorem BeginsBuild.answer_of_sameExtensions (h : BeginsBuild setup levels s definition)
    (h' : BeginsBuild setup levels s (definition.withBases bases'))
    (hsame : SameExtensions setup (s.begin definition.id) definition.bases bases')
    (hanswer : ((buildNested setup (levels + 1) definition given).exec s).1 = .ok d) :
    ((buildNested setup (levels + 1) (definition.withBases bases') given).exec s).1 = .ok d := by
  rw [h.answer_eq] at hanswer
  obtain ⟨parent, hparent, hlayOut⟩ := exists_eq_ok_of_bind hanswer
  have hok : ∀ base ∈ bases', ∃ v, askedFirst setup levels s definition.id base = .ok v := by
    intro base hbase
    by_cases hplain : Plain setup (s.begin definition.id) base
    · exact ⟨none, askedFirst_of_plain h.keyed hplain⟩
    · exact Knowledge.known_of_parent hparent ((hsame base hplain).1 hbase)
  have hextensions : ∀ base, recognises setup s base = true →
      (base ∈ bases' ↔ base ∈ definition.bases) := by
    intro base hbase
    refine hsame base fun hplain => ?_
    have hnot : recognises setup s base = false := hplain.not_recognises
    rw [hbase] at hnot
    cases hnot
  rw [h'.answer_eq]
  exact bind_eq_ok (Knowledge.parent_of_same_extensions h.separates hok hextensions hparent) hlayOut

/-! ## What a build does about its parent -/

/-- A build finds this parent and lays the class out below it. -/
structure BuildsBelow (setup : RegistrySetup) (levels : Nat) (s : Registry)
    (definition : ClassDefinition) (given parent : Option Descriptor) : Prop where
  resolved : ((resolveParent setup (fun needed => buildNested setup levels needed none)
    definition.toClassDecl given).exec (s.begin definition.id)).1 = .ok parent
  /-- Nothing but the parent is left of the bases. -/
  answer_eq : ((buildNested setup (levels + 1) definition given).exec s).1 =
    (askedFirst setup levels s definition.id).layOut setup.config definition parent
  parent?_eq : ∀ d, ((buildNested setup (levels + 1) definition given).exec s).1 = .ok d →
    d.parent? = parent

/-- How the parent of a class that is built is found among its bases. -/
structure ResolvesParent (setup : RegistrySetup) (levels : Nat) (s : Registry)
    (definition : ClassDefinition) (given : Option Descriptor) : Prop where
  /-- Whatever has been built on demand since the build began, a base answers what it answers
  first. -/
  settled : ∀ base t, Path setup (onDemand setup) (s.begin definition.id) t →
    ((resolve setup (fun needed => buildNested setup levels needed none) base).exec t).1 =
      askedFirst setup levels s definition.id base
  /-- A base that is not refused answers its own descriptor if it is registered or the source
  defines it, and nothing otherwise. -/
  separates : (askedFirst setup levels s definition.id).Separates (recognises setup s)
  /-- A plain base is not refused. -/
  plain : ∀ base, Plain setup (s.begin definition.id) base →
    askedFirst setup levels s definition.id base = .ok none
  /-- The first base in declared order that is refused has the class refused with its error. -/
  refused : ∀ before base after error, definition.bases = before ++ base :: after →
    (∀ b ∈ before, ∃ v, askedFirst setup levels s definition.id b = .ok v) →
    askedFirst setup levels s definition.id base = .error error →
    ((buildNested setup (levels + 1) definition given).exec s).1 = .error error
  /-- If no extension type occurs the class is a root. -/
  root : (∀ b ∈ definition.bases, ∃ v, askedFirst setup levels s definition.id b = .ok v) →
    parentIds (recognises setup s) given definition.bases = [] →
    BuildsBelow setup levels s definition given none
  /-- If one extension type occurs, which is the given one where one is given, it is the parent, or
  closes a cycle if it descends from the class. -/
  single : (∀ b ∈ definition.bases, ∃ v, askedFirst setup levels s definition.id b = .ok v) →
    ∀ cls, parentIds (recognises setup s) given definition.bases = [cls] →
    ∃ p, p.id = cls ∧
      (given = some p ∨ (given = none ∧
        askedFirst setup levels s definition.id cls = .ok (some p))) ∧
      (definition.id ∈ p.chainIds →
        ((buildNested setup (levels + 1) definition given).exec s).1 =
          .error (.cyclicDefinition definition.id (p.chainIds.reverse ++ [definition.id]))) ∧
      (definition.id ∉ p.chainIds → BuildsBelow setup levels s definition given (some p))
  /-- If several extension types occur they are listed. -/
  multiple : (∀ b ∈ definition.bases, ∃ v, askedFirst setup levels s definition.id b = .ok v) →
    2 ≤ (parentIds (recognises setup s) given definition.bases).length →
    ((buildNested setup (levels + 1) definition given).exec s).1 =
      .error (.multipleInheritance definition.id
        (parentIds (recognises setup s) given definition.bases))
  /-- The order of the bases, their repetitions and plain ones do not matter. -/
  sameBases : ∀ bases', (definition.withBases bases').validate = .ok () →
    SameExtensions setup (s.begin definition.id) definition.bases bases' →
    ∀ d, ((buildNested setup (levels + 1) (definition.withBases bases') given).exec s).1 = .ok d ↔
      ((buildNested setup (levels + 1) definition given).exec s).1 = .ok d

namespace BeginsBuild

/-- Below the parent that is found, the class is built as it should be. -/
theorem buildsBelow (h : BeginsBuild setup levels s definition)
    (hparent : (askedFirst setup levels s definition.id).parent definition.toClassDecl given =
      .ok parent) :
    BuildsBelow setup levels s definition given parent := by
  have hanswer : ((buildNested setup (levels + 1) definition given).exec s).1 =
      (askedFirst setup levels s definition.id).layOut setup.config definition parent := by
    rw [h.answer_eq, hparent]
    rfl
  refine ⟨(h.resolveParent_eq given).trans hparent, hanswer, fun d hd => ?_⟩
  rw [hanswer] at hd
  obtain ⟨o, ho⟩ := Knowledge.exists_outline hd
  exact ho.parent?_eq

/-- Where no base is refused, the parents that are found bear the identities that occur. -/
theorem exists_parents (h : BeginsBuild setup levels s definition) (given : Option Descriptor)
    (hok : ∀ b ∈ definition.bases, ∃ v, askedFirst setup levels s definition.id b = .ok v) :
    ∃ ps, (askedFirst setup levels s definition.id).parents given.toList definition.bases =
        .ok ps ∧
      ps.map (fun p => p.id) = parentIds (recognises setup s) given definition.bases ∧
      (askedFirst setup levels s definition.id).parent definition.toClassDecl given =
        singleParent definition.id ps := by
  obtain ⟨ps, hps, hids⟩ := Knowledge.exists_parents_of_given h.separates hok given
  refine ⟨ps, hps, hids, ?_⟩
  unfold Knowledge.parent
  rw [hps]
  rfl

/-- What a build does on the way continues the registry in which it began. -/
theorem continues_of_path (h : BeginsBuild setup levels s definition)
    (hpath : Path setup (onDemand setup) (s.begin definition.id) t) :
    Continues setup (s.begin definition.id) [] t := by
  induction hpath with
  | refl => exact h.continues
  | tail _ hstep ih =>
    cases hstep with
    | note journal => exact ⟨ih.grown, ih.inProgress_eq, ih.absent⟩
    | build levels hcalls =>
      obtain ⟨hdef, rfl⟩ := hcalls
      exact ih.build h.keyed levels hdef

/-- A build that begins resolves its parent as it should. -/
theorem resolvesParent (h : BeginsBuild setup levels s definition) (given : Option Descriptor) :
    ResolvesParent setup levels s definition given where
  settled := fun base _ hpath =>
    ((h.asks (h.continues_of_path hpath) base).answers (.inl trivial) () trivial).symm
  separates := h.separates
  plain := fun _ hplain => askedFirst_of_plain h.keyed hplain
  refused := by
    intro before base after error hbases hbefore herror
    rw [h.answer_eq]
    unfold Knowledge.parent
    rw [hbases, Knowledge.parents_eq_error hbefore herror]
    rfl
  root := by
    intro hok hnone
    obtain ⟨ps, -, hids, hparent⟩ := h.exists_parents given hok
    rw [hnone, List.map_eq_nil_iff] at hids
    subst hids
    exact h.buildsBelow hparent
  single := by
    intro hok cls hone
    obtain ⟨ps, hps, hids, hparent⟩ := h.exists_parents given hok
    rw [hone, List.map_eq_singleton_iff] at hids
    obtain ⟨p, rfl, rfl⟩ := hids
    refine ⟨p, rfl, Knowledge.of_parents_eq_singleton h.separates.named hps, fun hchain => ?_,
      fun hchain => h.buildsBelow ?_⟩
    · rw [h.answer_eq, hparent]
      simp only [singleParent, Descriptor.isSubtypeOf, List.contains_iff_mem.2 hchain, if_true]
      rfl
    · rw [hparent]
      simp only [singleParent, Descriptor.isSubtypeOf, List.contains_iff_mem, hchain, if_false]
  multiple := by
    intro hok hmany
    obtain ⟨ps, -, hids, hparent⟩ := h.exists_parents given hok
    rw [← hids, List.length_map] at hmany
    rw [h.answer_eq, hparent, singleParent_of_two_le hmany, hids]
    rfl
  sameBases := by
    intro bases' hvalid hsame d
    have h' : BeginsBuild setup levels s (definition.withBases bases') :=
      ⟨h.keyed, h.safe, h.room, hvalid, h.free, h.absent⟩
    exact ⟨fun hanswer => h'.answer_of_sameExtensions h hsame.symm hanswer,
      fun hanswer => h.answer_of_sameExtensions h' hsame hanswer⟩

end BeginsBuild

/-! ## The builds of a run -/

/-- The builds that a run makes, with the levels of nesting that they have: a build while no class
is in progress, and what a build that has begun asks for in its turn. -/
inductive Makes (setup : RegistrySetup) :
    Nat → Registry → ClassDefinition → Option Descriptor → Prop where
  | outer {s : Registry} (hpath : Path setup anyCall ∅ s) (definition : ClassDefinition)
      (given : Option Descriptor) : Makes setup (nestingBound setup) s definition given
  | inner {levels : Nat} {s t : Registry} {definition needed : ClassDefinition}
      {given : Option Descriptor} (h : Makes setup (levels + 1) s definition given)
      (hfree : s.cycleThrough? definition.id = none) (habsent : s.get? definition.id = none)
      (hpath : Path setup (onDemand setup) (s.begin definition.id) t)
      (hneeded : setup.definition? needed.id = some needed) : Makes setup levels t needed none

namespace Makes

/-- A build that is made is made at a moment of a run. -/
theorem moment (h : Makes setup levels s definition given) : Moment setup anyCall s := by
  induction h with
  | outer hpath _ _ => exact Moment.fresh.path hpath
  | inner _ hfree habsent hpath _ ih =>
    exact (ih.begin hfree habsent).path (hpath.mono fun _ _ _ _ => trivial)

/-- Every class in progress takes one level, and all but the first one are classes of the source. -/
theorem inProgress (h : Makes setup levels s definition given) (hkeyed : setup.IsKeyed) :
    s.inProgress.length + levels = nestingBound setup ∧
      ∀ cls ∈ (s.inProgress ++ [definition.id]).tail, setup.Defines cls := by
  induction h with
  | outer hpath _ _ =>
    have hnone : _ = [] := (Path.keeps hkeyed hpath).inProgress_eq
    rw [hnone]
    exact ⟨Nat.zero_add _, fun _ h => nomatch h⟩
  | @inner levels s t definition needed given _ _ _ hpath hneeded ih =>
    obtain ⟨hlength, hdefines⟩ := ih
    have hstack : t.inProgress = s.inProgress ++ [definition.id] :=
      (Path.keeps hkeyed hpath).inProgress_eq
    rw [hstack, List.length_append, List.length_singleton,
      List.tail_append_of_ne_nil (List.append_ne_nil_of_right_ne_nil _ (by simp))]
    refine ⟨by omega, List.forall_mem_append.2 ⟨hdefines, ?_⟩⟩
    exact List.forall_mem_singleton.2 ⟨needed, hneeded⟩

/-- There is a level for every class that can come on top, and one to find out that no class can. -/
theorem length_lt (h : Makes setup levels s definition given) (hkeyed : setup.IsKeyed)
    (hfree : s.cycleThrough? definition.id = none) (habsent : s.get? definition.id = none)
    {more : List ClassId} (hmore : StacksOn setup (s.begin definition.id) more) :
    more.length + 1 < levels := by
  obtain ⟨hlength, hdefines⟩ := h.inProgress hkeyed
  have hnodup := ((h.moment.safe hkeyed).begin hfree habsent).nodup
  have hstack : IsStack setup ((s.inProgress ++ [definition.id]).tail ++ more) := by
    refine ⟨List.nodup_append.2 ⟨hnodup.tail, hmore.nodup, ?_⟩,
      List.forall_mem_append.2 ⟨hdefines, hmore.defines⟩⟩
    rintro cls hcls other hother rfl
    exact hmore.fresh cls hother (List.mem_of_mem_tail hcls)
  have hlt := hstack.length_lt
  rw [List.length_append, List.length_tail, List.length_append, List.length_singleton] at hlt
  omega

end Makes

/-- Parents are resolved alike by all builds that a run makes, if they get that far. -/
theorem resolvesParent_of_makes (h : Makes setup levels s definition given)
    (hkeyed : setup.IsKeyed) (hvalid : definition.validate = .ok ())
    (hfree : s.cycleThrough? definition.id = none) (habsent : s.get? definition.id = none) :
    ∃ rest, levels = rest + 1 ∧ ResolvesParent setup rest s definition given := by
  cases levels with
  | zero =>
    have hlt := h.length_lt hkeyed hfree habsent (stacksOn_nil _ _)
    cases hlt
  | succ rest =>
    have hroom : Room setup (s.begin definition.id) rest [] := fun more hmore =>
      Nat.lt_of_succ_lt_succ (h.length_lt hkeyed hfree habsent hmore)
    have hbegins : BeginsBuild setup rest s definition :=
      ⟨hkeyed, h.moment.safe hkeyed, hroom, hvalid, hfree, habsent⟩
    exact ⟨rest, rfl, hbegins.resolvesParent given⟩

/-- A square is a shape, which the source defines, however often and with whatever plain class
beside it the shape is declared. -/
theorem resolvesParent_of_square :
    ∃ setup levels s definition given bases', Makes setup levels s definition given ∧
      setup.IsKeyed ∧ definition.validate = .ok () ∧ s.cycleThrough? definition.id = none ∧
      s.get? definition.id = none ∧
      (∃ rest, levels = rest + 1 ∧ ResolvesParent setup rest s definition given) ∧
      definition.bases = [⟨"Shape"⟩] ∧ bases' = [⟨"Shape"⟩, ⟨"object"⟩, ⟨"Shape"⟩] ∧
      (definition.withBases bases').validate = .ok () ∧
      SameExtensions setup (s.begin definition.id) definition.bases bases' ∧
      ((build setup definition given).exec s).1.isOk := by
  let shape : ClassDefinition := { id := ⟨"Shape"⟩, attributes := [("area", .primitive .int64)] }
  let square : ClassDefinition := { id := ⟨"Square"⟩, bases := [⟨"Shape"⟩] }
  let setup := setupOf {} (.ofDefinitions [shape])
  have hkeyed : setup.IsKeyed := isKeyed_setupOf _ (DefinitionSet.isKeyed_ofDefinitions _)
  have hmakes : Makes setup (nestingBound setup) ∅ square none := .outer .refl square none
  have hplain : Plain setup (begin ∅ square.id) ⟨"object"⟩ := ⟨by decide, by decide, by decide⟩
  have hsame : SameExtensions setup (begin ∅ square.id) square.bases
      [⟨"Shape"⟩, ⟨"object"⟩, ⟨"Shape"⟩] :=
    ((SameExtensions.repeated List.mem_cons_self).trans (.plain hplain)).trans
      (.of_perm (.swap _ _ _))
  have hvalid : ClassDecl.validate { id := ⟨"Square"⟩, bases := [⟨"Shape"⟩] } = .ok () := rfl
  have hvalid' : ClassDecl.validate
      { id := ⟨"Square"⟩, bases := [⟨"Shape"⟩, ⟨"object"⟩, ⟨"Shape"⟩] } = .ok () := rfl
  exact ⟨setup, _, ∅, square, none, _, hmakes, hkeyed, hvalid, rfl, rfl,
    resolvesParent_of_makes hmakes hkeyed hvalid rfl rfl, rfl, rfl, hvalid', hsame, by decide⟩

end Registry

end ObjectLayout
