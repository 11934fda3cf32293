import Mathlib.Data.List.Chain
import ObjectLayout.Proofs.Footprint
import ObjectLayout.Proofs.Refusals

/-!
# Cycles

Builds on demand end, whatever cycles the source has. Every class that is begun is another one of
the source, so that builds nest no deeper than the source has classes, and a class that is in
progress is refused with the path that led to it. This path is what was in progress since, and each
class on it mentions the next one, whether it was asked for as a base, by an attribute or by an
array (`reportsCycle_of_freshAnswer`). What is registered already cannot hide a part of a cycle,
since it reaches none.
-/

set_option autoImplicit false

namespace ObjectLayout.Registry

variable {setup : RegistrySetup} {stack : List ClassId} {levels : Nat} {cls : ClassId}
  {definition : ClassDefinition}

/-- A path of classes of which each mentions the next one. It leads from a class back to it and
passes no other class twice. -/
structure ReportsCycle (setup : RegistrySetup) (cls : ClassId) (chain : List ClassId) : Prop where
  two_le_length : 2 ≤ chain.length
  head_eq : chain.head? = some cls
  getLast_eq : chain.getLast? = some cls
  /-- The class and the other entries are different from each other. -/
  nodup : chain.dropLast.Nodup
  mentions : chain.IsChain setup.Mentions

/-- What comes before a class on a stack can be dropped. -/
theorem exists_dropWhile_eq (h : cls ∈ stack) :
    ∃ rest, stack.dropWhile (· ≠ cls) = cls :: rest := by
  induction stack with
  | nil => simp at h
  | cons first stack ih =>
    by_cases hfirst : first = cls
    · exact ⟨stack, by simp [hfirst]⟩
    · simp only [List.mem_cons, Ne.symm hfirst, false_or] at h
      simpa [hfirst] using ih h

/-- The classes in progress since a class was begun, and the class again. -/
theorem reportsCycle_of_mem (hnodup : stack.Nodup) (hmem : cls ∈ stack)
    (hpath : (stack ++ [cls]).IsChain setup.Mentions) :
    ReportsCycle setup cls (stack.dropWhile (· ≠ cls) ++ [cls]) := by
  obtain ⟨rest, hrest⟩ := exists_dropWhile_eq hmem
  have hsuffix := List.dropWhile_suffix (l := stack) (· ≠ cls)
  have hwhole : stack.dropWhile (· ≠ cls) ++ [cls] <:+ stack ++ [cls] := by
    obtain ⟨before, hbefore⟩ := hsuffix
    exact ⟨before, by rw [← List.append_assoc, hbefore]⟩
  constructor
  · rw [hrest]
    simp
  · rw [hrest]
    simp
  · simp
  · rw [List.dropLast_concat]
    exact hnodup.sublist hsuffix.sublist
  · exact hpath.suffix hwhole

/-- A cycle that is reported is one, if the classes in progress mention each other in turn. -/
theorem reportsCycle_of_freshAnswer (hkeyed : setup.IsKeyed)
    (hvalid : setup.config.validate = .ok ()) (hnext : IsNext setup levels stack definition)
    (hpath : (stack ++ [definition.id]).IsChain setup.Mentions) {chain : List ClassId}
    (h : freshAnswer setup levels stack definition = .error (.cyclicDefinition cls chain)) :
    ReportsCycle setup cls chain := by
  -- The error was passed on unchanged since some class was asked for that is in progress.
  refine freshAnswer_error_induction hkeyed hvalid (P := fun stack definition error =>
    (stack ++ [definition.id]).IsChain setup.Mentions → error = .cyclicDefinition cls chain →
      ReportsCycle setup cls chain) ?_ hnext h hpath rfl
  rintro levels stack definition error hnext - hrefusal hpath rfl
  rcases hrefusal.passes_or_names with ⟨other, hnames, hrefused⟩ | ⟨-, hnot⟩
  · have hextend : setup.Defines other →
        ((stack ++ [definition.id]) ++ [other]).IsChain setup.Mentions := by
      intro hother
      apply hpath.append (.singleton other)
      have hmentions : setup.Mentions definition.id other :=
        ⟨definition, hnext.defined, hnames.imp_left fun hbase => ⟨hbase, hother⟩⟩
      simpa using hmentions
    cases hrefused with
    | inProgress hmem =>
      exact reportsCycle_of_mem hnext.push.nodup hmem (hextend (hnext.push.defines _ hmem))
    | build hinner _ ih => exact ih (hextend ⟨_, hinner.defined⟩) rfl
  · exact absurd rfl (hnot cls chain)

/-- How builds on demand get along with cycles. -/
structure TracesCycles (config : LayoutConfig) (set : DefinitionSet) (definition : ClassDefinition)
    (s : Registry) : Prop where
  /-- Builds nest no deeper than the source has classes, and only for classes that are mentioned:
  what would be done deeper, or for another class, does not matter. -/
  nesting : ∀ other levels, set.size ≤ levels →
    (buildAmong (setupOf config set) (setupOf config set).Mentions other levels definition).exec s =
      (buildDefinition (setupOf config set) definition).exec s
  /-- No class is registered from which a cycle can be reached. -/
  unregistered : ∀ {cls}, (setupOf config set).ReachesCycle cls →
    ((buildDefinition (setupOf config set) definition).exec s).2.get? cls = none
  reported : ∀ {cls chain}, ((buildDefinition (setupOf config set) definition).exec s).1 =
    .error (.cyclicDefinition cls chain) → ReportsCycle (setupOf config set) cls chain

/-- In every registry that builds have filled, cycles are traced. -/
theorem Stands.tracesCycles {config : LayoutConfig} {set : DefinitionSet} {s : Registry}
    (hs : Stands (setupOf config set) [] s) (hset : set.IsKeyed) (hvalid : config.validate = .ok ())
    (hdef : set.get? definition.id = some definition) : TracesCycles config set definition s := by
  have hkeyed := isKeyed_setupOf config hset
  have hstack := isStack_nil (setupOf config set)
  have hbound : set.size ≤ nestingBound (setupOf config set) := Nat.le_add_right _ 2
  constructor
  · intro other levels hlevels
    exact exec_buildAmong hset hvalid (fun _ _ h => h.mentions) other hdef hstack (by simp) hbound
      hlevels hs
  · intro cls hcycle
    have hafter := hs.build hkeyed (nestingBound (setupOf config set)) hdef
    cases hget : ((buildDefinition (setupOf config set) definition).exec s).2.get? cls with
    | none => rfl
    | some d => exact absurd hcycle (hafter.grounded.not_reachesCycle hvalid hget)
  · intro cls chain h
    rw [hs.exec_buildDefinition hkeyed hdef] at h
    exact reportsCycle_of_freshAnswer hkeyed hvalid (isNext_nil hdef) (.singleton definition.id) h

/-- Whatever was built before, and whatever cycles the source has, builds end and tell real
cycles. -/
theorem tracesCycles_afterBuilds {config : LayoutConfig} {definitions : List ClassDefinition}
    (hvalid : config.validate = .ok ()) {history : List ClassDefinition}
    (hhistory : ∀ earlier ∈ history, earlier ∈ (DefinitionSet.ofDefinitions definitions).values)
    {definition : ClassDefinition}
    (hdef : definition ∈ (DefinitionSet.ofDefinitions definitions).values) :
    TracesCycles config (.ofDefinitions definitions) definition
      (afterBuilds (setupOf config (.ofDefinitions definitions)) history ∅) := by
  have hset := DefinitionSet.isKeyed_ofDefinitions definitions
  exact (stands_afterBuilds config hhistory).tracesCycles hset hvalid (hset.get?_id hdef)

/-- A cycle through a base and an array, reached from a class that does not lie on it. -/
theorem tracesCycles_of_ring :
    ∃ definitions history definition, ({} : LayoutConfig).validate = .ok () ∧
      (∀ earlier ∈ history, earlier ∈ (DefinitionSet.ofDefinitions definitions).values) ∧
      definition ∈ (DefinitionSet.ofDefinitions definitions).values ∧
      ((buildDefinition (setupOf {} (.ofDefinitions definitions)) definition).exec
        (afterBuilds (setupOf {} (.ofDefinitions definitions)) history ∅)).1 =
        .error (.cyclicDefinition ⟨"Link"⟩ [⟨"Link"⟩, ⟨"Ring"⟩, ⟨"Link"⟩]) ∧
      TracesCycles {} (.ofDefinitions definitions) definition
        (afterBuilds (setupOf {} (.ofDefinitions definitions)) history ∅) := by
  let link : ClassDefinition :=
    { id := ⟨"Link"⟩, attributes := [("rings", .array (.embedded ⟨"Ring"⟩) 2)] }
  let ring : ClassDefinition := { id := ⟨"Ring"⟩, bases := [⟨"Link"⟩] }
  let lock : ClassDefinition := { id := ⟨"Lock"⟩, attributes := [("bow", .embedded ⟨"Link"⟩)] }
  let definitions := [link, ring, lock, { id := ⟨"Key"⟩ }]
  have hhistory : ∀ earlier ∈ [ring, { id := ⟨"Key"⟩ }],
      earlier ∈ (DefinitionSet.ofDefinitions definitions).values := by decide
  have hdef : lock ∈ (DefinitionSet.ofDefinitions definitions).values := by decide
  exact ⟨definitions, [ring, { id := ⟨"Key"⟩ }], lock, rfl, hhistory, hdef, by decide +kernel,
    tracesCycles_afterBuilds rfl hhistory hdef⟩

end ObjectLayout.Registry
