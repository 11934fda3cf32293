import ObjectLayout.Proofs.Knowledge

/-!
# Attribute tables

Declaring attributes one after another adds those that are new, in their order, and repeats the
others with their types (`declares_of_declareAll`). So the table of a class is that of its parent
followed by the attributes that the class introduces (`toList_of_inheritedAttributes`).
-/

set_option autoImplicit false

namespace ObjectLayout

namespace AttributeTable

variable {t t' : AttributeTable} {entries : List (String × AttributeType)}

/-- What attributes add to a table. -/
def newIn (t : AttributeTable) (entries : List (String × AttributeType)) :
    List (String × AttributeType) :=
  entries.filter fun entry => (t.get? entry.1).isNone

/-- A table became another one by declarations that were all accepted. -/
structure Declares (t t' : AttributeTable) (entries : List (String × AttributeType)) : Prop where
  toList_eq : t'.toList = t.toList ++ t.newIn entries
  nodup_keys : t.types.keys.Nodup → t'.types.keys.Nodup
  nodup : (entries.map Prod.fst).Nodup
  fresh : ∀ entry ∈ entries, entry.1 ∉ t.declared
  agree : ∀ entry ∈ entries, ∀ type, t.get? entry.1 = some type → type = entry.2

/-- Nothing declares nothing. -/
theorem Declares.nil (t : AttributeTable) : Declares t t [] where
  toList_eq := (List.append_nil _).symm
  nodup_keys := fun h => h
  nodup := List.nodup_nil
  fresh := fun _ h => nomatch h
  agree := fun _ h => nomatch h

/-- Every attribute that was declared is in the table, with its type. -/
theorem Declares.mem (h : Declares t t' entries) {entry : String × AttributeType}
    (hentry : entry ∈ entries) : entry ∈ t'.toList := by
  rw [h.toList_eq, List.mem_append]
  cases hold : t.get? entry.1 with
  | none => exact .inr (List.mem_filter.2 ⟨hentry, by rw [hold]; rfl⟩)
  | some type =>
    rw [h.agree entry hentry type hold] at hold
    exact .inl (OrderedMap.mem_toList_of_get?_eq_some hold)

/-- A declaration does not change the owner. -/
theorem owner_of_declare {name : String} {type : AttributeType} {declared : Declared}
    (h : t.declare name type = .ok (t', declared)) : t'.owner = t.owner := by
  unfold declare at h
  split at h
  · cases h
  · split at h
    · cases h
      rfl
    · split at h
      · cases h
        rfl
      · cases h

/-- A declaration that is accepted adds an attribute or repeats one. -/
theorem declare_ok {name : String} {type : AttributeType} {declared : Declared}
    (h : t.declare name type = .ok (t', declared)) :
    name ∉ t.declared ∧ t'.declared = name :: t.declared ∧
      ((t.get? name = none ∧ t'.types = t.types.insert name type) ∨
        (t.get? name = some type ∧ t'.types = t.types)) := by
  unfold declare at h
  split at h
  · cases h
  · next hfresh =>
    split at h
    · next hnone =>
      cases h
      exact ⟨hfresh, rfl, .inl ⟨hnone, rfl⟩⟩
    · next inherited hsome =>
      split at h
      · next hsame =>
        cases h
        subst hsame
        exact ⟨hfresh, rfl, .inr ⟨hsome, rfl⟩⟩
      · cases h

/-- A declaration adds its attribute at the end where the table lacks it. -/
theorem toList_of_declare {u : AttributeTable} {name : String} {type : AttributeType}
    {declared : Declared} (h : t.declare name type = .ok (u, declared)) :
    u.toList = t.toList ++ t.newIn [(name, type)] := by
  obtain ⟨-, -, htypes⟩ := declare_ok h
  unfold newIn toList
  rcases htypes with ⟨hnone, htypes⟩ | ⟨hsome, htypes⟩
  · rw [htypes, OrderedMap.toList_insert_of_none hnone, List.filter_cons_of_pos (by simp [hnone])]
    rfl
  · rw [htypes, List.filter_cons_of_neg (by simp [hsome])]
    exact (List.append_nil _).symm

/-- A declaration does not change the type of another name. -/
theorem get?_of_declare {u : AttributeTable} {name : String} {type : AttributeType}
    {declared : Declared} (h : t.declare name type = .ok (u, declared)) {other : String}
    (hne : other ≠ name) : u.get? other = t.get? other := by
  obtain ⟨-, -, htypes⟩ := declare_ok h
  unfold get?
  rcases htypes with ⟨-, htypes⟩ | ⟨-, htypes⟩
  · rw [htypes, OrderedMap.get?_insert_of_ne _ hne]
  · rw [htypes]

/-- A declaration and those that follow it declare all their attributes. -/
theorem Declares.cons {u : AttributeTable} {name : String} {type : AttributeType}
    {declared : Declared} (hfirst : t.declare name type = .ok (u, declared))
    (hrest : Declares u t' entries) : Declares t t' ((name, type) :: entries) := by
  obtain ⟨hfresh, hdeclared, htypes⟩ := declare_ok hfirst
  -- A second declaration of the name would be refused, so the others leave its entry alone.
  have hother : ∀ entry ∈ entries, entry.1 ≠ name := by
    intro entry hmem heq
    have hnot := hrest.fresh entry hmem
    rw [hdeclared, heq] at hnot
    exact hnot List.mem_cons_self
  constructor
  · have hnew : u.newIn entries = t.newIn entries := by
      apply List.filter_congr
      intro entry hmem
      rw [get?_of_declare hfirst (hother entry hmem)]
    rw [hrest.toList_eq, hnew, toList_of_declare hfirst, List.append_assoc]
    exact congrArg (t.toList ++ ·) (List.filter_append _ _).symm
  · intro hkeys
    apply hrest.nodup_keys
    rcases htypes with ⟨-, htypes⟩ | ⟨-, htypes⟩
    · rw [htypes]
      exact OrderedMap.nodup_keys_insert hkeys _ _
    · rw [htypes]
      exact hkeys
  · rw [List.map_cons, List.nodup_cons]
    refine ⟨fun hmem => ?_, hrest.nodup⟩
    obtain ⟨entry, hentry, heq⟩ := List.mem_map.1 hmem
    exact hother entry hentry heq
  · intro entry hmem
    rcases List.mem_cons.1 hmem with rfl | hmem
    · exact hfresh
    · intro hold
      apply hrest.fresh entry hmem
      rw [hdeclared]
      exact List.mem_cons_of_mem _ hold
  · intro entry hmem other hsome
    rcases List.mem_cons.1 hmem with rfl | hmem
    · rcases htypes with ⟨hnone, -⟩ | ⟨hsame, -⟩
      · rw [hnone] at hsome
        cases hsome
      · rw [hsame] at hsome
        exact (Option.some.inj hsome).symm
    · apply hrest.agree entry hmem other
      rw [get?_of_declare hfirst (hother entry hmem)]
      exact hsome

/-- Declarations that are accepted declare their attributes. -/
theorem declares_of_declareAll {names : List String}
    (h : t.declareAll entries = (t', .ok names)) : Declares t t' entries := by
  induction entries generalizing t names with
  | nil =>
    cases h
    exact .nil _
  | cons entry rest ih =>
    obtain ⟨name, type⟩ := entry
    unfold declareAll at h
    split at h
    · cases h
    · next u hfirst => exact .cons hfirst (ih h)
    · next u hfirst =>
      rcases hrest : u.declareAll rest with ⟨v, answer⟩
      rw [hrest] at h
      cases answer with
      | error error => cases h
      | ok repeated =>
        cases h
        exact .cons hfirst (ih hrest)

/-- The table of a class that inherits nothing holds what the class declares. -/
theorem ofList_ok {owner : ClassId} {own : AttributeTable}
    (h : ofList owner entries = .ok own) : own.toList = entries ∧ own.types.keys.Nodup := by
  unfold ofList at h
  rcases hall : (empty owner).declareAll entries with ⟨t, answer⟩
  rw [hall] at h
  cases answer with
  | error error => cases h
  | ok names =>
    cases h
    have hdeclares := declares_of_declareAll hall
    refine ⟨?_, hdeclares.nodup_keys List.nodup_nil⟩
    rw [hdeclares.toList_eq]
    exact List.filter_eq_self.2 fun _ _ => rfl

end AttributeTable

/-- The attributes of a parent. -/
def inheritedEntries (parent : Option Descriptor) : List (String × AttributeType) :=
  parent.elim [] fun p => p.attributes.toList

/-- The attributes that a class adds to those of its parent, in declaration order. -/
def introducedEntries (definition : ClassDefinition) (parent : Option Descriptor) :
    List (String × AttributeType) :=
  definition.attributes.filter fun entry =>
    (parent.bind fun p => p.attributes.get? entry.1).isNone

/-- The attributes of a class are those of its parent and then those that it adds. -/
theorem toList_of_inheritedAttributes {definition : ClassDefinition} {parent : Option Descriptor}
    {own table : AttributeTable}
    (hown : AttributeTable.ofList definition.id definition.attributes = .ok own)
    (htable : inheritedAttributes definition.toClassDecl parent own = .ok table) :
    table.toList = inheritedEntries parent ++ introducedEntries definition parent ∧
      ((∀ p, parent = some p → p.attributes.types.keys.Nodup) → table.types.keys.Nodup) := by
  obtain ⟨hown, hnodup⟩ := AttributeTable.ofList_ok hown
  cases parent with
  | none =>
    have hsame : own = table := Except.ok.inj htable
    rw [← hsame]
    refine ⟨?_, fun _ => hnodup⟩
    rw [hown]
    exact (List.filter_eq_self.2 fun _ _ => rfl).symm
  | some p =>
    unfold inheritedAttributes at htable
    rcases hall : (p.attributes.derive definition.id).extendFrom own with ⟨t, answer⟩
    simp only [hall] at htable
    cases answer with
    | error error => cases htable
    | ok names =>
      cases htable
      have hdeclares := AttributeTable.declares_of_declareAll hall
      refine ⟨?_, fun hp => hdeclares.nodup_keys (hp p rfl)⟩
      rw [hdeclares.toList_eq, hown]
      rfl

/-- Every attribute of a definition is in the table of the class. -/
theorem mem_of_inheritedAttributes {definition : ClassDefinition} {parent : Option Descriptor}
    {own table : AttributeTable}
    (hown : AttributeTable.ofList definition.id definition.attributes = .ok own)
    (htable : inheritedAttributes definition.toClassDecl parent own = .ok table)
    {entry : String × AttributeType} (hentry : entry ∈ definition.attributes) :
    entry ∈ table.toList := by
  rw [← (AttributeTable.ofList_ok hown).1] at hentry
  cases parent with
  | none =>
    cases htable
    exact hentry
  | some p =>
    unfold inheritedAttributes at htable
    rcases hall : (p.attributes.derive definition.id).extendFrom own with ⟨t, answer⟩
    simp only [hall] at htable
    cases answer with
    | error error => cases htable
    | ok names =>
      cases htable
      exact (AttributeTable.declares_of_declareAll hall).mem hentry

/-- The attributes that a class introduces do not repeat a name. -/
theorem nodup_introducedEntries {definition : ClassDefinition} {parent : Option Descriptor}
    {table : AttributeTable}
    (htable : table.toList = inheritedEntries parent ++ introducedEntries definition parent)
    (hnodup : table.types.keys.Nodup) :
    ((introducedEntries definition parent).map Prod.fst).Nodup := by
  have hkeys : ((inheritedEntries parent).map Prod.fst ++
      (introducedEntries definition parent).map Prod.fst).Nodup := by
    rw [← List.map_append, ← htable]
    exact hnodup
  exact (List.nodup_append.1 hkeys).2.1

end ObjectLayout
