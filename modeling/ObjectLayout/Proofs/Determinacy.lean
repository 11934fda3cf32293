import ObjectLayout.Proofs.Knowledge

/-!
# Knowing more

A class that can be laid out from what is known of others is laid out in the same way when more is
known (`parent_mono`, `layOut_mono`), and two knowledges that do not contradict each other make the
same descriptor of it (`parent_eq_of_compatible`, `layOut_eq_of_compatible`). Whatever a class asks
for on the way is known (`known_of_parent`, `known_of_layOut`).
-/

set_option autoImplicit false

namespace ObjectLayout.Knowledge

open LayoutM (Frame Follows exists_eq_ok_of_bind bind_eq_ok)

variable {known known' : Knowledge}

/-- What the second knowledge tells, the first one tells, too. -/
def Extends (known' known : Knowledge) : Prop :=
  ∀ ⦃cls v⦄, known cls = .ok v → known' cls = .ok v

/-- Two knowledges tell the same wherever both tell something. -/
def Compatible (known known' : Knowledge) : Prop :=
  ∀ ⦃cls v w⦄, known cls = .ok v → known' cls = .ok w → v = w

/-- What either knowledge tells, the first one before the second one. -/
def join (known known' : Knowledge) : Knowledge := fun cls =>
  match known cls with
  | .ok v => .ok v
  | .error _ => known' cls

/-- What is known to two is more than what the first one knows. -/
theorem join_extends_left (known known' : Knowledge) : (known.join known').Extends known := by
  intro cls v h
  simp only [join, h]

/-- If two knowledges do not contradict each other, both together know more than the second one. -/
theorem Compatible.join_extends_right (h : Compatible known known') :
    (known.join known').Extends known' := by
  intro cls w hw
  cases hv : known cls with
  | error error => simp only [join, hv, hw]
  | ok v => simp only [join, hv, h hv hw]

/-! ## More knowledge -/

/-- The parents among the bases stay the same when more is known. -/
theorem parents_mono (h : known'.Extends known) (bases : List ClassId) {found ps : List Descriptor}
    (hps : known.parents found bases = .ok ps) : known'.parents found bases = .ok ps := by
  induction bases generalizing found with
  | nil => exact hps
  | cons base rest ih =>
    unfold parents at hps ⊢
    obtain ⟨answer, hanswer, hps⟩ := exists_eq_ok_of_bind hps
    apply bind_eq_ok (h hanswer)
    cases answer with
    | none => exact ih hps
    | some descriptor =>
      by_cases hmem : descriptor.id ∈ found.map fun p => p.id
      · simp only [hmem, if_true] at hps ⊢
        exact ih hps
      · simp only [hmem, if_false] at hps ⊢
        exact ih hps

/-- The parent stays the same when more is known. -/
theorem parent_mono (h : known'.Extends known) {decl : ClassDecl}
    {given parent : Option Descriptor} (hparent : known.parent decl given = .ok parent) :
    known'.parent decl given = .ok parent := by
  obtain ⟨ps, hps, hparent⟩ := exists_eq_ok_of_bind hparent
  unfold Knowledge.parent
  rw [parents_mono h decl.bases hps]
  exact hparent

/-- The frame in which only answers that are no refusals are compared. -/
def loose : Frame Unit Unit where
  Holds _ := True
  Shows _ _ := True
  Exact := False

/-- Attributes are attached in the same way when more is known. -/
theorem setAttributes_mono
    (h : ∀ ⦃cls e⦄, known cls = .ok (some e) → known' cls = .ok (some e)) {pointerSize : Nat}
    {user : ClassId}
    {draft attached : Draft} {table : AttributeTable}
    (hattached : (draft.setAttributes table (known.env pointerSize user) fun _ => pure ()).answer =
      .ok attached) :
    (draft.setAttributes table (known'.env pointerSize user) fun _ => pure ()).answer =
      .ok attached := by
  have hspace : ∀ cls, Follows loose ((known.env pointerSize user).embedded cls)
      (fun _ => ((known'.env pointerSize user).embedded cls).answer) () := by
    intro cls
    refine .of_exec trivial (LayoutM.exec_liftM (known.space user cls) ()) fun hok _ _ => ?_
    have hanswer : ((known'.env pointerSize user).embedded cls).answer = known'.space user cls :=
      LayoutM.answer_liftM _
    rw [hanswer]
    cases hx : known.space user cls with
    | error error => rw [hx] at hok; exact hok.elim False.elim fun hok => nomatch hok
    | ok space =>
      obtain ⟨answer, hknown, hspace⟩ := exists_eq_ok_of_bind hx
      cases answer with
      | none => cases hspace
      | some e => exact bind_eq_ok (h hknown) hspace
  have hfollows : Follows loose
      (draft.setAttributes table (known.env pointerSize user) fun _ => pure ())
      (fun _ => (draft.setAttributes table (known'.env pointerSize user) fun _ => pure ()).answer)
      () := by
    refine Draft.setAttributes_follows ?_ ?_ table ?_ trivial
    · exact fun _ => rfl
    · exact fun _ _ hs => .pure hs ()
    · exact fun _ _ _ cls _ _ _ => hspace cls
  exact (hfollows.answers (.inr (by rw [LayoutM.answer] at hattached; rw [hattached]; rfl)) ()
    trivial).trans hattached

/-- For a layout it is enough that the extension types remain known. -/
theorem layOut_mono (h : ∀ ⦃cls e⦄, known cls = .ok (some e) → known' cls = .ok (some e))
    {config : LayoutConfig}
    {definition : ClassDefinition} {parent : Option Descriptor} {d : Descriptor}
    (hd : known.layOut config definition parent = .ok d) :
    known'.layOut config definition parent = .ok d := by
  obtain ⟨own, hown, hd⟩ := exists_eq_ok_of_bind hd
  obtain ⟨table, htable, hd⟩ := exists_eq_ok_of_bind hd
  obtain ⟨draft, hdraft, hd⟩ := exists_eq_ok_of_bind hd
  exact bind_eq_ok hown (bind_eq_ok htable (bind_eq_ok (setAttributes_mono h hdraft) hd))

/-! ## Compatible knowledge -/

/-- Two knowledges that do not contradict each other find the same parent. -/
theorem parent_eq_of_compatible (h : Compatible known known') {decl : ClassDecl}
    {given p p' : Option Descriptor} (hp : known.parent decl given = .ok p)
    (hp' : known'.parent decl given = .ok p') : p = p' := by
  have hjoin := parent_mono (join_extends_left known known') hp
  rw [parent_mono h.join_extends_right hp'] at hjoin
  exact (Except.ok.inj hjoin).symm

/-- Two knowledges that do not contradict each other lay a class out in the same way. -/
theorem layOut_eq_of_compatible (h : Compatible known known') {config : LayoutConfig}
    {definition : ClassDefinition} {parent : Option Descriptor} {d d' : Descriptor}
    (hd : known.layOut config definition parent = .ok d)
    (hd' : known'.layOut config definition parent = .ok d') : d = d' := by
  -- Both layouts carry over to what the two knowledges tell together.
  have hjoin := layOut_mono (fun _ _ he => join_extends_left known known' he) hd
  rw [layOut_mono (fun _ _ he => h.join_extends_right he) hd'] at hjoin
  exact (Except.ok.inj hjoin).symm

/-! ## What is asked for -/

/-- Every base of a class whose parents are known is known. -/
theorem known_of_parents (bases : List ClassId) {found ps : List Descriptor}
    (hps : known.parents found bases = .ok ps) {base : ClassId} (hbase : base ∈ bases) :
    ∃ v, known base = .ok v := by
  induction bases generalizing found with
  | nil => cases hbase
  | cons first rest ih =>
    unfold parents at hps
    obtain ⟨answer, hanswer, hps⟩ := exists_eq_ok_of_bind hps
    rcases List.mem_cons.1 hbase with rfl | hmem
    · exact ⟨answer, hanswer⟩
    · cases answer with
      | none => exact ih hps hmem
      | some descriptor =>
        simp only at hps
        split at hps
        · exact ih hps hmem
        · exact ih hps hmem

/-- Every base of a class whose parent is known is known. -/
theorem known_of_parent {decl : ClassDecl} {given parent : Option Descriptor}
    (h : known.parent decl given = .ok parent) {base : ClassId} (hbase : base ∈ decl.bases) :
    ∃ v, known base = .ok v := by
  obtain ⟨ps, hps, -⟩ := exists_eq_ok_of_bind h
  exact known_of_parents decl.bases hps hbase

/-- A class that is embedded in a type whose layout is known is known. -/
theorem known_of_layout {pointerSize : Nat} {user cls : ClassId} (type : AttributeType)
    (hcls : type.embeddedClass? = some cls) {space : FieldLayout}
    (h : (type.layout (known.env pointerSize user)).answer = .ok space) :
    ∃ d, known cls = .ok (some d) := by
  induction type generalizing space with
  | primitive scalar => cases hcls
  | object => cases hcls
  | pointer target => cases hcls
  | reference other => cases hcls
  | embedded other =>
    cases hcls
    have hspace : known.space user cls = .ok space := (LayoutM.answer_liftM _).symm.trans h
    obtain ⟨answer, hanswer, hspace⟩ := exists_eq_ok_of_bind hspace
    cases answer with
    | none => cases hspace
    | some d => exact ⟨d, hanswer⟩
  | array element length ih =>
    rw [AttributeType.layout_array, LayoutM.answer_bind] at h
    obtain ⟨inner, hinner, -⟩ := exists_eq_ok_of_bind h
    exact ih hcls hinner

/-- The classes that are embedded in placed fields are known. -/
theorem known_of_placeFields {pointerSize : Nat} {user : ClassId} {draft : Draft}
    (entries : List (String × AttributeType)) {segment segment' : Segment}
    (h : (draft.placeFields (known.env pointerSize user) (fun _ => pure ()) segment
      entries).answer = .ok segment')
    {entry : String × AttributeType} (hentry : entry ∈ entries)
    (hplace : draft.inherited? entry.1 = none) {cls : ClassId}
    (hcls : entry.2.embeddedClass? = some cls) : ∃ d, known cls = .ok (some d) := by
  induction entries generalizing segment with
  | nil => cases hentry
  | cons first rest ih =>
    obtain ⟨name, type⟩ := first
    unfold Draft.placeFields at h
    rw [LayoutM.answer_bind] at h
    obtain ⟨next, hnext, h⟩ := exists_eq_ok_of_bind h
    rcases List.mem_cons.1 hentry with rfl | hmem
    · rw [Draft.answer_placeField, hplace] at hnext
      obtain ⟨field, hfield, -⟩ := exists_eq_ok_of_bind hnext
      unfold Draft.sizeField at hfield
      rw [LayoutM.answer_adapt] at hfield
      cases hspace : (type.layout (known.env pointerSize user)).answer with
      | error error => rw [hspace] at hfield; cases hfield
      | ok space => exact known_of_layout type hcls hspace
    · exact ih h hmem

/-- The classes that a class stores in place are known when it is laid out. -/
theorem known_of_layOut {config : LayoutConfig} {definition : ClassDefinition}
    {parent : Option Descriptor} {d : Descriptor}
    (h : known.layOut config definition parent = .ok d) {cls : ClassId}
    (hcls : Requests definition parent cls) : ∃ e, known cls = .ok (some e) := by
  obtain ⟨o, ho⟩ := exists_outline h
  obtain ⟨own, table, hown, htable, entry, hentry, hplace, hembedded⟩ := hcls
  rw [ho.own_eq] at hown
  cases hown
  rw [ho.table_eq] at htable
  cases htable
  exact known_of_placeFields o.table.toList ho.segment_eq hentry hplace hembedded

end ObjectLayout.Knowledge
