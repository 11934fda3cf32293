import ObjectLayout.Proofs.Knowledge

/-!
# Asking for a class

A class that another one needs is in progress, registered, defined by the source, or no extension
type at all. `resolve_follows` goes through these four cases once, for every frame: what a build
learns about the class is settled by what each case answers.
-/

set_option autoImplicit false

namespace ObjectLayout

open LayoutM (Frame Follows)

/-- The definition that the source of a registry has of a class. -/
def RegistrySetup.definition? (setup : RegistrySetup) (cls : ClassId) : Option ClassDefinition :=
  setup.source.bind fun source => source.definitions.get? cls

/-- The source of a registry has a definition of the class. -/
def RegistrySetup.Defines (setup : RegistrySetup) (cls : ClassId) : Prop :=
  ∃ definition, setup.definition? cls = some definition

/-- The definitions of the source stand under their own identities. -/
def RegistrySetup.IsKeyed (setup : RegistrySetup) : Prop :=
  ∀ source, setup.source = some source → source.definitions.IsKeyed

/-- A keyed source defines every class under its own identity. -/
theorem RegistrySetup.IsKeyed.id_eq {setup : RegistrySetup} (h : setup.IsKeyed) {cls : ClassId}
    {definition : ClassDefinition} (hdef : setup.definition? cls = some definition) :
    definition.id = cls := by
  obtain ⟨source, hsource, hget⟩ := Option.bind_eq_some_iff.1 hdef
  exact (h source hsource).id_eq hget

namespace Registry

section Follows

variable {τ : Type} {F : Frame Registry τ} {setup : RegistrySetup} {nested : NestedBuild}

/-- Asking the source answers the definition, whatever else the source builds before. -/
theorem request_follows (hF : IgnoresJournal F) (hkeyed : setup.IsKeyed)
    (hnested : ∀ definition, setup.definition? definition.id = some definition → ∀ s, F.Holds s →
      ∃ answer, Follows F (nested definition) answer s)
    {source : ClassSource} (hsource : setup.source = some source) (cls : ClassId) {s : Registry}
    (hs : F.Holds s) :
    Follows F (request source nested cls) (fun _ => .ok (setup.definition? cls)) s := by
  have hdef : ∀ other, setup.definition? other = source.definitions.get? other := by
    intro other
    simp only [RegistrySetup.definition?, hsource, Option.bind_some]
  rw [hdef cls]
  unfold request
  apply Follows.get
  have hasked := noteRequest_follows hF (.asked cls (source.definitions.get? cls).isSome
    (source.definitions.keys.filter s.isBuilding)) hs
  apply hasked.skip
  cases hahead : (source.ahead.get? cls).bind source.definitions.get? with
  | none => exact .pure hasked.holds _
  | some other =>
    obtain ⟨key, -, hother⟩ := Option.bind_eq_some_iff.1 hahead
    rw [← hdef key] at hother
    have hid := hkeyed.id_eq hother
    subst hid
    obtain ⟨answer, hbuilt⟩ := hnested other hother _ hasked.holds
    have hnoted := fun answer : Except LayoutError Descriptor =>
      noteRequest_follows hF (.builtAhead other.id (answer.map fun d => d.size))
        hbuilt.attempt.holds
    exact (hbuilt.attempt.bind fun answer _ =>
      (hnoted answer).skip (.pure (hnoted answer).holds (source.definitions.get? cls))).congr
        fun _ _ => rfl

/-- Asking for a class answers the error of a cycle, what is registered, that the class is no
extension type, or what building it answers. -/
theorem resolve_follows (hF : IgnoresJournal F) (hkeyed : setup.IsKeyed)
    (hnested : ∀ definition, setup.definition? definition.id = some definition → ∀ s, F.Holds s →
      ∃ answer, Follows F (nested definition) answer s)
    {answer : τ → Except LayoutError (Option Descriptor)} {cls : ClassId} {s : Registry}
    (hs : F.Holds s)
    (hcyclic : ∀ error, s.cycleThrough? cls = some error → F.Exact → ∀ t, F.Shows s t →
      answer t = .error error)
    (hfound : ∀ d, s.cycleThrough? cls = none → s.get? cls = some d → ∀ t, F.Shows s t →
      answer t = .ok (some d))
    (hplain : s.cycleThrough? cls = none → s.get? cls = none → setup.definition? cls = none →
      ∀ t, F.Shows s t → answer t = .ok none)
    (hbuilt : ∀ definition, s.cycleThrough? cls = none → s.get? cls = none →
      setup.definition? cls = some definition → ∀ s', F.Holds s' →
      (∀ t, F.Shows s' t → F.Shows s t) →
      ∃ x, Follows F (nested definition) x s' ∧
        ∀ t, F.Shows s' t → answer t = (x t).map some) :
    Follows F (resolve setup nested cls) answer s := by
  unfold resolve
  apply Follows.get
  cases hcycle : s.cycleThrough? cls with
  | some error =>
    refine .of_exec hs (LayoutM.exec_throw error s) fun h t ht => ?_
    rcases h with hexact | hok
    · exact hcyclic error hcycle hexact t ht
    · cases hok
  | none =>
    cases hget : s.get? cls with
    | some d => exact (Follows.pure hs _).congr fun t ht => hfound d hcycle hget t ht
    | none =>
      cases hsource : setup.source with
      | none =>
        have hdef : setup.definition? cls = none := by
          simp only [RegistrySetup.definition?, hsource, Option.bind_none]
        exact (Follows.pure hs _).congr fun t ht => hplain hcycle hget hdef t ht
      | some source =>
        have hrequest := request_follows hF hkeyed hnested hsource cls hs
        have hbind : ∀ t, answer t =
            (Except.ok (setup.definition? cls) >>= fun _ => answer t) := fun _ => rfl
        refine Follows.congr ?_ fun t _ => hbind t
        apply hrequest.bind
        intro found hanswer
        -- What the source answers is known from the bare frame already.
        have hdef : setup.definition? cls = found := by
          have h := (request_follows ignoresJournal_bare hkeyed
            (fun definition _ s _ => ⟨_, Follows.self (nested definition) s⟩) hsource cls
            (s := s) trivial).exec_fst
          rw [hanswer] at h
          exact (Except.ok.inj h).symm
        cases found with
        | none =>
          exact (Follows.pure hrequest.holds _).congr fun t ht =>
            hplain hcycle hget hdef t (hrequest.narrows t ht)
        | some definition =>
          have hnoted := note_follows hF (.builtOnDemand cls) hrequest.holds
          obtain ⟨x, hx, heq⟩ := hbuilt definition hcycle hget hdef _ hnoted.holds
            fun t ht => hrequest.narrows t (hnoted.narrows t ht)
          refine hnoted.skip ((hx.bind fun d _ => .pure hx.holds (some d)).congr fun t ht => ?_)
          rw [heq t ht]
          cases x t <;> rfl

end Follows

end Registry

end ObjectLayout
