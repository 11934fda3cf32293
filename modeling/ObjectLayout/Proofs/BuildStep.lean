import ObjectLayout.Proofs.Source

/-!
# What a build does

`buildWith_step` takes a build apart: it ends in one of six ways, each with what was checked before,
with the answer and with the registry that is left. Later proofs go through these cases and do not
unfold the build. A registry grows by a build (`Grows`): what is registered stays, the classes in
progress are those of before, and none of them has been registered meanwhile.
-/

set_option autoImplicit false

namespace ObjectLayout.Registry

open LayoutM (Frame Follows)

variable {setup : RegistrySetup} {nested : NestedBuild} {definition : ClassDefinition}
  {given : Option Descriptor}

/-- A class that begins is not registered by that. -/
@[simp] theorem get?_begin (registry : Registry) (cls other : ClassId) :
    (registry.begin cls).get? other = registry.get? other := rfl

/-- Finds the parent of a class and lays the class out below it. -/
def construct (setup : RegistrySetup) (nested : NestedBuild) (definition : ClassDefinition)
    (given : Option Descriptor) : LayoutM Registry Descriptor := do
  let parent ← resolveParent setup nested definition.toClassDecl given
  prepare setup nested definition parent

/-- Laying a class out after its parent is preparing it and then publishing what has been prepared.
-/
theorem layOut_of_construct :
    (resolveParent setup nested definition.toClassDecl given >>= fun parent =>
      layOut setup nested definition parent) =
      construct setup nested definition given >>= fun prepared => do
        let descriptor ← publish prepared
        note (.built descriptor.toClassLayout)
        return descriptor := by
  simp only [construct, layOut_eq, bind_assoc]

/-- A class is found a parent and laid out alike. The classes that it stores in place are asked for
when the parent is known. -/
theorem construct_follows {τ : Type} {F : Frame Registry τ} {known : τ → Knowledge}
    (hF : IgnoresJournal F) {s : Registry} (hs : F.Holds s)
    (hbases : ∀ base ∈ definition.bases, ∀ s, F.Holds s →
      Follows F (resolve setup nested base) (fun t => known t base) s)
    (hfields : ∀ parent,
      (∀ t, F.Shows ((resolveParent setup nested definition.toClassDecl given).exec s).2 t →
        (known t).parent definition.toClassDecl given = .ok parent) →
      ∀ cls, Requests definition parent cls → ∀ s, F.Holds s →
        Follows F (resolve setup nested cls) (fun t => known t cls) s) :
    Follows F (construct setup nested definition given)
      (fun t => (known t).parent definition.toClassDecl given >>= fun parent =>
        (known t).layOut setup.config definition parent) s := by
  have hparent := resolveParent_follows definition.toClassDecl given hbases hs
  apply hparent.bind
  intro parent hanswer
  have hknown := hparent.answers (.inr (by rw [hanswer]; rfl))
  rw [hanswer] at hknown
  exact prepare_follows hF definition parent (hfields parent hknown) hparent.holds

/-- The frame that only says where runs end. -/
def ending (P : Registry → Prop) : Frame Registry Unit where
  Holds := P
  Shows _ _ := False
  Exact := False

/-- In this frame a run follows any answer, as long as it ends where it should. -/
theorem follows_ending {α : Type} {P : Registry → Prop} {action : LayoutM Registry α}
    {answer : Unit → Except LayoutError α} {s : Registry} (h : P (action.exec s).2) :
    Follows (ending P) action answer s where
  holds := h
  narrows := fun _ h => h.elim
  answers := fun _ _ h => h.elim

/-- The frame ignores the journal if what it says of ends does. -/
theorem ignoresJournal_ending {P : Registry → Prop}
    (hP : ∀ s journal, P s → P { s with journal := journal }) : IgnoresJournal (ending P) :=
  fun s journal hs => ⟨hP s journal hs, fun _ h => h⟩

/-- Nothing is known to be an extension type. -/
def noKnowledge : Knowledge := fun _ => .ok none

/-- What is kept by builds of classes of the source, and does not concern the journal, is kept while
a class is found a parent and laid out. -/
theorem construct_keeps {P : Registry → Prop}
    (hP : ∀ s journal, P s → P { s with journal := journal }) (hkeyed : setup.IsKeyed)
    (hnested : ∀ definition, setup.definition? definition.id = some definition → ∀ s, P s →
      P ((nested definition).exec s).2)
    (definition : ClassDefinition) (given : Option Descriptor) {s : Registry} (hs : P s) :
    P ((construct setup nested definition given).exec s).2 := by
  have hjournal : IgnoresJournal (ending P) := ignoresJournal_ending hP
  have hfollows : ∀ definition, setup.definition? definition.id = some definition → ∀ s, P s →
      ∀ answer, Follows (ending P) (nested definition) answer s :=
    fun definition hdef s hs answer => follows_ending (hnested definition hdef s hs)
  -- Nothing is said about answers, so any knowledge will do.
  have hresolve : ∀ cls s, P s →
      Follows (ending P) (resolve setup nested cls) (fun _ => noKnowledge cls) s := by
    intro cls s hs
    refine resolve_follows hjournal hkeyed
      (fun definition hdef s hs => ⟨fun _ => .error (.cyclicDefinition cls []),
        hfollows definition hdef s hs _⟩) hs ?_ ?_ ?_ ?_
    · exact fun _ _ hexact => hexact.elim
    · exact fun _ _ _ _ h => h.elim
    · exact fun _ _ _ _ h => h.elim
    · intro definition _ _ hdef s' hs' _
      have hid := hkeyed.id_eq hdef
      subst hid
      exact ⟨fun _ => .error (.cyclicDefinition definition.id []),
        hfollows definition hdef s' hs' _, fun _ h => h.elim⟩
  exact (construct_follows hjournal hs (fun base _ => hresolve base)
    fun _ _ cls _ => hresolve cls).holds

/-- The ways in which a build can end: its answer and the registry that it leaves. -/
inductive BuildStep (setup : RegistrySetup) (nested : NestedBuild) (definition : ClassDefinition)
    (given : Option Descriptor) (s : Registry) :
    Except LayoutError Descriptor → Registry → Prop where
  /-- The declaration does not declare a class. -/
  | invalid {error : LayoutError} (hvalid : definition.validate = .error error) :
      BuildStep setup nested definition given s (.error error) s
  /-- The class is in progress. -/
  | cyclic {error : LayoutError} (hvalid : definition.validate = .ok ())
      (hcycle : s.cycleThrough? definition.id = some error) :
      BuildStep setup nested definition given s (.error error) s
  /-- The class is registered. -/
  | reused {d : Descriptor} (journal : Journal) (hvalid : definition.validate = .ok ())
      (hcycle : s.cycleThrough? definition.id = none) (hfound : s.get? definition.id = some d) :
      BuildStep setup nested definition given s (.ok d) { s with journal := journal }
  /-- The class cannot be laid out. -/
  | refused {error : LayoutError} {t : Registry} (hvalid : definition.validate = .ok ())
      (hcycle : s.cycleThrough? definition.id = none) (habsent : s.get? definition.id = none)
      (hexec : (construct setup nested definition given).exec (s.begin definition.id) =
        (.error error, t)) :
      BuildStep setup nested definition given s (.error error)
        { t with inProgress := s.inProgress }
  /-- The class is laid out and registered. -/
  | published {d : Descriptor} {t : Registry} (journal : Journal)
      (hvalid : definition.validate = .ok ()) (hcycle : s.cycleThrough? definition.id = none)
      (habsent : s.get? definition.id = none)
      (hexec : (construct setup nested definition given).exec (s.begin definition.id) = (.ok d, t))
      (hnew : t.get? d.id = none) :
      BuildStep setup nested definition given s (.ok d)
        { t with
          entries := t.entries.insert d.id d, inProgress := s.inProgress, journal := journal }
  /-- The class is laid out, but it has been registered meanwhile. -/
  | preceded {d e : Descriptor} {t : Registry} (journal : Journal)
      (hvalid : definition.validate = .ok ()) (hcycle : s.cycleThrough? definition.id = none)
      (habsent : s.get? definition.id = none)
      (hexec : (construct setup nested definition given).exec (s.begin definition.id) = (.ok d, t))
      (hold : t.get? d.id = some e) :
      BuildStep setup nested definition given s (.ok e)
        { t with inProgress := s.inProgress, journal := journal }

/-- What happens while a class is in progress: the class is put on the stack, and released at the
end. -/
theorem exec_whileBuilding {α : Type} (cls : ClassId) (action : LayoutM Registry α)
    (s : Registry) :
    (whileBuilding cls action).exec s =
      match s.cycleThrough? cls with
      | some error => (.error error, s)
      | none => ((action.exec (s.begin cls)).1, (action.exec (s.begin cls)).2.release cls) := by
  unfold whileBuilding
  cases h : s.cycleThrough? cls with
  | some error => simp only [LayoutM.exec, ExceptT.run_mk, StateT.run, h]
  | none => simp only [LayoutM.exec, ExceptT.run_mk, StateT.run, h]

/-- A descriptor is registered unless its class has one already, which is then the answer. -/
theorem exec_publish (d : Descriptor) (t : Registry) :
    (publish d).exec t =
      match t.get? d.id with
      | some e => (.ok e, t)
      | none => (.ok d, { t with entries := t.entries.insert d.id d }) := by
  unfold publish
  rw [LayoutM.exec_bind, LayoutM.exec_get]
  dsimp only
  cases t.get? d.id <;> rfl

/-! ## The classes in progress -/

/-- Wherever an action begins, and however it ends, the classes in progress are those of before. -/
def Restores {α : Type} (action : LayoutM Registry α) : Prop :=
  ∀ s, (action.exec s).2.inProgress = s.inProgress

/-- The class that was begun last is released from the top of the stack. -/
theorem release_of_begin {s t : Registry} {cls : ClassId}
    (h : t.inProgress = (s.begin cls).inProgress) :
    t.release cls = { t with inProgress := s.inProgress } := by
  have htop : (s.inProgress ++ [cls]).reverse.erase cls = s.inProgress.reverse := by
    rw [List.reverse_append, List.reverse_singleton, List.singleton_append, List.erase_cons_head]
  unfold release
  rw [h, show (s.begin cls).inProgress = s.inProgress ++ [cls] from rfl, htop, List.reverse_reverse]

/-- The builds that a class asks for leave the class and those below it on the stack. -/
theorem construct_restores (hkeyed : setup.IsKeyed)
    (hnested : ∀ definition, setup.definition? definition.id = some definition →
      Restores (nested definition))
    (definition : ClassDefinition) (given : Option Descriptor) :
    Restores (construct setup nested definition given) := by
  intro s
  refine construct_keeps (P := fun t => t.inProgress = s.inProgress) (fun _ _ ht => ht) hkeyed
    (fun definition hdef t ht => ?_) definition given rfl
  exact (hnested definition hdef t).trans ht

/-- Every build ends in one of the ways of `BuildStep`, if the builds that it asks for restore the
classes in progress. -/
theorem buildWith_step (hkeyed : setup.IsKeyed)
    (hnested : ∀ definition, setup.definition? definition.id = some definition →
      Restores (nested definition)) (s : Registry) :
    BuildStep setup nested definition given s
      ((buildWith setup nested definition given).exec s).1
      ((buildWith setup nested definition given).exec s).2 := by
  have hstack := construct_restores hkeyed hnested definition given (s.begin definition.id)
  unfold buildWith
  rw [LayoutM.exec_bind, LayoutM.exec_liftM]
  cases hvalid : definition.validate with
  | error error => exact .invalid hvalid
  | ok _ =>
    dsimp only
    rw [exec_whileBuilding]
    cases hcycle : s.cycleThrough? definition.id with
    | some error => exact .cyclic hvalid hcycle
    | none =>
      dsimp only
      rw [LayoutM.exec_bind, LayoutM.exec_get]
      dsimp only
      rw [get?_begin]
      cases hfound : s.get? definition.id with
      | some d =>
        dsimp only
        rw [release_of_begin (s := s)]
        · exact .reused _ hvalid hcycle hfound
        · rfl
      | none =>
        dsimp only
        rw [layOut_of_construct, LayoutM.exec_bind]
        rcases hexec : (construct setup nested definition given).exec (s.begin definition.id)
          with ⟨answer, t⟩
        rw [hexec] at hstack
        cases answer with
        | error error =>
          dsimp only
          rw [release_of_begin hstack]
          exact .refused hvalid hcycle hfound hexec
        | ok d =>
          dsimp only
          rw [LayoutM.exec_bind, exec_publish]
          cases hold : t.get? d.id with
          | none =>
            dsimp only
            rw [release_of_begin (s := s)]
            · exact .published (t := t) _ hvalid hcycle hfound hexec hold
            · exact hstack
          | some e =>
            dsimp only
            rw [release_of_begin (s := s)]
            · exact .preceded (t := t) _ hvalid hcycle hfound hexec hold
            · exact hstack

/-- A build restores the classes in progress if the builds that it asks for do. -/
theorem buildWith_restores (hkeyed : setup.IsKeyed)
    (hnested : ∀ definition, setup.definition? definition.id = some definition →
      Restores (nested definition))
    (definition : ClassDefinition) (given : Option Descriptor) :
    Restores (buildWith setup nested definition given) := by
  intro s
  have hstep : BuildStep setup nested definition given s
      ((buildWith setup nested definition given).exec s).1
      ((buildWith setup nested definition given).exec s).2 := buildWith_step hkeyed hnested s
  rcases hrun : (buildWith setup nested definition given).exec s with ⟨answer, after⟩
  rw [hrun] at hstep
  cases hstep <;> rfl

/-- However deep a build nests, and wherever in it a build fails, the classes in progress are at the
end those of the beginning. -/
theorem buildNested_restores (hkeyed : setup.IsKeyed) (levels : Nat) (definition : ClassDefinition)
    (given : Option Descriptor) : Restores (buildNested setup levels definition given) := by
  -- The builds that a build asks for have one level less, and each of them releases its class.
  induction levels generalizing definition given with
  | zero => exact fun _ => rfl
  | succ levels ih =>
    exact buildWith_restores hkeyed (fun needed _ => ih needed none) definition given

/-- A build with nested ones ends in one of the ways of `BuildStep`. -/
theorem buildNested_step (hkeyed : setup.IsKeyed) (levels : Nat) (definition : ClassDefinition)
    (given : Option Descriptor) (s : Registry) :
    BuildStep setup (fun needed => buildNested setup levels needed none) definition given s
      ((buildNested setup (levels + 1) definition given).exec s).1
      ((buildNested setup (levels + 1) definition given).exec s).2 :=
  buildWith_step hkeyed (fun needed _ => buildNested_restores hkeyed levels needed none) s

/-! ## Growth -/

/-- A registry has grown into another one: what is registered stays, and nothing that is in progress
or that `May` does not allow has been registered. -/
structure Grows (May : ClassId → Prop) (s t : Registry) : Prop where
  /-- The classes in progress are the same. -/
  inProgress_eq : t.inProgress = s.inProgress
  /-- Every descriptor is kept. -/
  kept : ∀ {cls d}, s.get? cls = some d → t.get? cls = some d
  /-- No other class is new. -/
  fresh : ∀ {cls}, s.get? cls = none → ¬ May cls ∨ cls ∈ s.inProgress → t.get? cls = none

namespace Grows

variable {May : ClassId → Prop} {s t u : Registry}

/-- A registry has grown into itself. -/
theorem refl (s : Registry) : Grows May s s where
  inProgress_eq := rfl
  kept h := h
  fresh h _ := h

/-- Growth goes on. -/
theorem trans (h : Grows May s t) (h' : Grows May t u) : Grows May s u where
  inProgress_eq := h'.inProgress_eq.trans h.inProgress_eq
  kept hs := h'.kept (h.kept hs)
  fresh hs hcls := h'.fresh (h.fresh hs hcls) (by rw [h.inProgress_eq]; exact hcls)

/-- A registry that grows by few classes grows by more. -/
theorem mono {Might : ClassId → Prop} (h : Grows May s t) (hle : ∀ cls, May cls → Might cls) :
    Grows Might s t where
  inProgress_eq := h.inProgress_eq
  kept := h.kept
  fresh hs hcls := h.fresh hs (hcls.imp_left fun hnot hmay => hnot (hle _ hmay))

/-- Growth does not depend on the journal. -/
theorem of_journal (journal : Journal) (h : Grows May { s with journal := journal } t) :
    Grows May s t where
  inProgress_eq := h.inProgress_eq
  kept := h.kept
  fresh := h.fresh

/-- What grows while a class is in progress has grown when the class is no longer in progress. -/
theorem of_begin {cls : ClassId} (h : Grows May (s.begin cls) t) (journal : Journal) :
    Grows May s { t with inProgress := s.inProgress, journal := journal } where
  inProgress_eq := rfl
  kept := h.kept
  fresh hs hcls := h.fresh hs (hcls.imp_right fun hmem => List.mem_append_left _ hmem)

/-- A class that is new is one that was allowed. -/
theorem may_of_new (h : Grows May s t) {cls : ClassId} {d : Descriptor}
    (habsent : s.get? cls = none) (hget : t.get? cls = some d) : May cls := by
  apply Classical.byContradiction
  intro hnot
  rw [h.fresh habsent (.inl hnot)] at hget
  cases hget

/-- A class that was absent may be registered, if it is not in progress. -/
theorem register (h : Grows May s t) {d : Descriptor} (hmay : May d.id)
    (habsent : t.get? d.id = none) (hprogress : d.id ∉ s.inProgress) :
    Grows May s { t with entries := t.entries.insert d.id d } where
  inProgress_eq := h.inProgress_eq
  kept := fun hs => OrderedMap.get?_insert_of_absent habsent (h.kept hs)
  fresh := by
    intro cls hs hcls
    have hne : cls ≠ d.id := by
      rintro rfl
      rcases hcls with hnot | hmem
      · exact hnot hmay
      · exact hprogress hmem
    exact (OrderedMap.get?_insert_of_ne _ hne _).trans (h.fresh hs hcls)

end Grows

/-- A class through which there is no cycle is not in progress. -/
theorem not_mem_inProgress_of_cycleThrough? {s : Registry} {cls : ClassId}
    (h : s.cycleThrough? cls = none) : cls ∉ s.inProgress := by
  intro hmem
  simp [cycleThrough?, isBuilding, hmem] at h

/-- A class through which there is a cycle is in progress. -/
theorem mem_inProgress_of_cycleThrough? {s : Registry} {cls : ClassId} {error : LayoutError}
    (h : s.cycleThrough? cls = some error) : cls ∈ s.inProgress := by
  by_cases hmem : cls ∈ s.inProgress
  · exact hmem
  · simp [cycleThrough?, isBuilding, hmem] at h

end ObjectLayout.Registry
