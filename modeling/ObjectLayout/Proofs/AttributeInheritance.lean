import ObjectLayout.Proofs.InPlace
import ObjectLayout.Proofs.RepeatedAttributes
import ObjectLayout.Proofs.Shelf

/-!
# Inheriting attributes

A class takes over the attributes of its parent in two passes: its own attributes make a table of
their own first, and the table that is derived from that of the parent is extended by this one. A
declaration marks its name before it looks at the type, and takes the mark back if the types differ
(`exec_declareInPlace`). Declarations that are accepted leave a table whose marks and entries are
known (`mem_declared_of_declareAll`, `get?_of_declareAll`), so the first one that is refused can be
told from the list alone: in the first pass it is a name that comes a second time, and in the second
pass, where no name does, a type other than that of the parent (`inherits`).
-/

set_option autoImplicit false

namespace ObjectLayout

open LayoutM (settle)

/-- The names that were redundant, with that of one more declaration if it was redundant. -/
def Declared.addTo : Declared → String → List String → List String
  | new, _, names => names
  | redundant, name, names => name :: names

namespace AttributeTable

variable {p t t' : AttributeTable} {owner : ClassId} {name : String} {type : AttributeType}
  {entries : List (String × AttributeType)} {names : List String} {error : LayoutError}

/-! ## Changing tables in place -/

/-- Declares an attribute in place. The name is marked as declared first. -/
def declareInPlace (name : String) (type : AttributeType) : LayoutM AttributeTable Declared := do
  let t ← get
  if name ∈ t.declared then throw (.duplicateName t.owner .attributes name)
  else do
    modify fun t => { t with declared := name :: t.declared }
    match t.get? name with
    | none => do
      modify fun t => { t with types := t.types.insert name type }
      return .new
    | some inherited =>
      if inherited = type then return .redundant
      else do
        modify fun t => { t with declared := t.declared.erase name }
        throw (.attributeRedefinition t.owner name inherited.text type.text)

/-- Declares attributes in place, one after another, and answers the names that were redundant. -/
def declareAllInPlace : List (String × AttributeType) → LayoutM AttributeTable (List String)
  | [] => return []
  | (name, type) :: rest => do
    let declared ← declareInPlace name type
    let names ← declareAllInPlace rest
    return declared.addTo name names

/-- Declares every attribute of another table in place, in its order. -/
def extendInPlace (own : AttributeTable) : LayoutM AttributeTable (List String) :=
  declareAllInPlace own.toList

/-- An attribute that is refused leaves no mark. -/
theorem exec_declareInPlace (t : AttributeTable) (name : String) (type : AttributeType) :
    (declareInPlace name type).exec t = settle t (t.declare name type) := by
  unfold declareInPlace declare
  rw [LayoutM.exec_bind, LayoutM.exec_get]
  dsimp only
  by_cases hdeclared : name ∈ t.declared
  · rw [if_pos hdeclared, if_pos hdeclared]
    rfl
  · rw [if_neg hdeclared, if_neg hdeclared, LayoutM.exec_bind, LayoutM.exec_modify]
    dsimp only
    cases hget : t.get? name with
    | none => rfl
    | some inherited =>
      dsimp only
      by_cases hsame : inherited = type
      · rw [if_pos hsame, if_pos hsame]
        rfl
      · have hmark : (name :: t.declared).erase name = t.declared := List.erase_cons_head _ _
        rw [if_neg hsame, if_neg hsame, LayoutM.exec_bind, LayoutM.exec_modify]
        dsimp only
        rw [LayoutM.exec_throw, hmark]
        rfl

/-- A declaration that is refused ends the pass and leaves the table. -/
theorem declareAll_cons_of_error (h : t.declare name type = .error error)
    (rest : List (String × AttributeType)) :
    t.declareAll ((name, type) :: rest) = (t, .error error) := by
  rw [declareAll, h]

/-- A declaration that is accepted lets the pass go on, and adds its name where the parent has it.
-/
theorem declareAll_cons_of_ok {declared : Declared}
    (h : t.declare name type = .ok (t', declared)) (rest : List (String × AttributeType)) :
    t.declareAll ((name, type) :: rest) =
      ((t'.declareAll rest).1, (t'.declareAll rest).2.map (declared.addTo name)) := by
  rw [declareAll, h]
  cases declared with
  | new =>
    dsimp only
    rcases t'.declareAll rest with ⟨u, _ | _⟩ <;> rfl
  | redundant => rfl

/-- Declaring attributes one after another in place does what it does on values. -/
theorem exec_declareAllInPlace (t : AttributeTable) (entries : List (String × AttributeType)) :
    (declareAllInPlace entries).exec t = ((t.declareAll entries).2, (t.declareAll entries).1) := by
  induction entries generalizing t with
  | nil => rfl
  | cons entry rest ih =>
    obtain ⟨name, type⟩ := entry
    unfold declareAllInPlace
    rw [LayoutM.exec_bind, exec_declareInPlace]
    cases hdeclare : t.declare name type with
    | error error =>
      rw [declareAll_cons_of_error hdeclare]
      rfl
    | ok made =>
      obtain ⟨u, declared⟩ := made
      rw [declareAll_cons_of_ok hdeclare]
      dsimp only [settle]
      rw [LayoutM.exec_bind, ih u]
      cases (u.declareAll rest).2 <;> rfl

/-- Extending a table in place does what it does on values. -/
theorem exec_extendInPlace (t own : AttributeTable) :
    (extendInPlace own).exec t = ((t.extendFrom own).2, (t.extendFrom own).1) :=
  exec_declareAllInPlace t own.toList

/-! ## Declarations that are accepted -/

/-- The names among attributes that a table has already. -/
def redundantIn (t : AttributeTable) (entries : List (String × AttributeType)) : List String :=
  (entries.filter fun entry => (t.get? entry.1).isSome).map Prod.fst

/-- Attributes are accepted if the first one is, and then the others are. -/
theorem declareAll_cons_ok {rest : List (String × AttributeType)}
    (h : t.declareAll ((name, type) :: rest) = (t', .ok names)) :
    ∃ u declared others, t.declare name type = .ok (u, declared) ∧
      u.declareAll rest = (t', .ok others) ∧ names = declared.addTo name others := by
  cases hdeclare : t.declare name type with
  | error error =>
    rw [declareAll_cons_of_error hdeclare] at h
    cases h
  | ok made =>
    obtain ⟨u, declared⟩ := made
    rw [declareAll_cons_of_ok hdeclare] at h
    rcases hrest : u.declareAll rest with ⟨v, answer⟩
    rw [hrest] at h
    cases answer with
    | error error => cases h
    | ok others =>
      cases h
      exact ⟨u, declared, others, rfl, hrest, rfl⟩

/-- Declarations do not change the owner. -/
theorem owner_of_declareAll (h : t.declareAll entries = (t', .ok names)) : t'.owner = t.owner := by
  rw [← owner_declareAll t entries, h]

/-- The names that have been declared are marked, the last one first. -/
theorem declared_of_declareAll (h : t.declareAll entries = (t', .ok names)) :
    t'.declared = (entries.map Prod.fst).reverse ++ t.declared := by
  induction entries generalizing t names with
  | nil =>
    cases h
    rfl
  | cons entry rest ih =>
    obtain ⟨u, declared, others, hdeclare, hrest, -⟩ := declareAll_cons_ok h
    rw [ih hrest, (declare_ok hdeclare).2.1, List.map_cons, List.reverse_cons, List.append_assoc]
    rfl

/-- In a table whose owner has declared nothing, what is declared is marked. -/
theorem mem_declared_of_declareAll (h : t.declareAll entries = (t', .ok names))
    (hfresh : t.declared = []) : name ∈ t'.declared ↔ name ∈ entries.map Prod.fst := by
  rw [declared_of_declareAll h, hfresh, List.append_nil, List.mem_reverse]

/-- Declarations do not change the type of another name. -/
theorem get?_of_declareAll (h : t.declareAll entries = (t', .ok names))
    (hname : name ∉ entries.map Prod.fst) : t'.get? name = t.get? name := by
  induction entries generalizing t names with
  | nil =>
    cases h
    rfl
  | cons entry rest ih =>
    obtain ⟨u, declared, others, hdeclare, hrest, -⟩ := declareAll_cons_ok h
    rw [List.map_cons, List.mem_cons, not_or] at hname
    rw [ih hrest hname.2, get?_of_declare hdeclare hname.1]

/-- Whether a declaration is redundant can be seen from the table. -/
theorem isSome_get?_of_declare {declared : Declared}
    (h : t.declare name type = .ok (t', declared)) :
    (t.get? name).isSome = decide (declared = .redundant) := by
  unfold declare at h
  split at h
  · cases h
  · split at h
    · next hnone =>
      cases h
      rw [hnone]
      rfl
    · next inherited hsome =>
      split at h
      · cases h
        rw [hsome]
        rfl
      · cases h

/-- The names that the declarations report are those that the table had already. -/
theorem redundant_of_declareAll (h : t.declareAll entries = (t', .ok names)) :
    names = t.redundantIn entries := by
  have hnodup := (declares_of_declareAll h).nodup
  induction entries generalizing t names with
  | nil =>
    cases h
    rfl
  | cons entry rest ih =>
    obtain ⟨first, type⟩ := entry
    obtain ⟨u, declared, others, hdeclare, hrest, hnames⟩ := declareAll_cons_ok h
    rw [List.map_cons, List.nodup_cons] at hnodup
    -- The other names are looked up as before, since the first one does not come again.
    have hothers : u.redundantIn rest = t.redundantIn rest := by
      unfold redundantIn
      congr 1
      apply List.filter_congr
      intro entry hentry
      rw [get?_of_declare hdeclare]
      intro heq
      exact hnodup.1 (List.mem_map.2 ⟨entry, hentry, heq⟩)
    rw [hnames, ih hrest hnodup.2, hothers]
    unfold redundantIn
    rw [List.filter_cons, isSome_get?_of_declare hdeclare]
    cases declared <;> rfl

/-! ## Declarations that are refused -/

/-- A declaration is refused if its name is marked, or else if the table has the name with another
type. -/
theorem declare_eq_error_iff : t.declare name type = .error error ↔
    (name ∈ t.declared ∧ error = .duplicateName t.owner .attributes name) ∨
    (name ∉ t.declared ∧ ∃ inherited, t.get? name = some inherited ∧ inherited ≠ type ∧
      error = .attributeRedefinition t.owner name inherited.text type.text) := by
  unfold declare
  by_cases hdeclared : name ∈ t.declared
  · rw [if_pos hdeclared]
    simp [hdeclared, eq_comm]
  · rw [if_neg hdeclared]
    cases hget : t.get? name with
    | none => simp [hdeclared]
    | some inherited =>
      by_cases hsame : inherited = type
      · simp [hsame, hdeclared]
      · simp only [if_neg hsame, Except.error.injEq, hdeclared, false_and, not_false_eq_true,
          true_and, false_or, Option.some.injEq, exists_eq_left']
        exact ⟨fun h => ⟨hsame, h.symm⟩, fun h => h.2.symm⟩

/-- After declarations that are accepted the others are declared in the table that these leave. -/
theorem declareAll_append (h : t.declareAll entries = (t', .ok names))
    (rest : List (String × AttributeType)) :
    (t.declareAll (entries ++ rest)).1 = (t'.declareAll rest).1 ∧
      ∀ error, (t.declareAll (entries ++ rest)).2 = .error error ↔
        (t'.declareAll rest).2 = .error error := by
  induction entries generalizing t names with
  | nil =>
    cases h
    exact ⟨rfl, fun _ => Iff.rfl⟩
  | cons entry others ih =>
    obtain ⟨name, type⟩ := entry
    obtain ⟨u, declared, repeated, hdeclare, hothers, -⟩ := declareAll_cons_ok h
    obtain ⟨htable, herror⟩ := ih hothers
    rw [List.cons_append, declareAll_cons_of_ok hdeclare]
    refine ⟨htable, fun error => ?_⟩
    rw [← herror]
    cases (u.declareAll (others ++ rest)).2 <;> simp [Except.map]

/-- Attributes are refused for the first of them that is refused, and the table keeps what the
others before it have done. -/
theorem declareAll_eq_error_iff : t.declareAll entries = (t', .error error) ↔
    ∃ before name type after names, entries = before ++ (name, type) :: after ∧
      t.declareAll before = (t', .ok names) ∧ t'.declare name type = .error error := by
  constructor
  · intro h
    induction entries generalizing t with
    | nil => cases h
    | cons entry rest ih =>
      obtain ⟨name, type⟩ := entry
      cases hdeclare : t.declare name type with
      | error other =>
        rw [declareAll_cons_of_error hdeclare] at h
        cases h
        exact ⟨[], name, type, rest, [], rfl, rfl, hdeclare⟩
      | ok made =>
        obtain ⟨u, declared⟩ := made
        rw [declareAll_cons_of_ok hdeclare] at h
        have hrest : u.declareAll rest = (t', .error error) := by
          rcases hrest : u.declareAll rest with ⟨v, answer⟩
          rw [hrest] at h
          cases answer with
          | ok names => cases h
          | error other =>
            cases h
            rfl
        obtain ⟨before, first, firstType, after, names, rfl, hbefore, hrefused⟩ := ih hrest
        refine ⟨(name, type) :: before, first, firstType, after, declared.addTo name names, rfl, ?_,
          hrefused⟩
        rw [declareAll_cons_of_ok hdeclare, hbefore]
        rfl
  · rintro ⟨before, name, type, after, names, rfl, hbefore, hrefused⟩
    obtain ⟨htable, herror⟩ := declareAll_append hbefore ((name, type) :: after)
    rw [declareAll_cons_of_error hrefused] at htable herror
    exact Prod.ext htable ((herror error).2 rfl)

/-! ## A table of its own -/

/-- The name comes a second time among attributes, and no name before it does. -/
def FirstRepeated (entries : List (String × AttributeType)) (name : String) : Prop :=
  ∃ before type after, entries = before ++ (name, type) :: after ∧
    (before.map Prod.fst).Nodup ∧ name ∈ before.map Prod.fst

/-- The name comes with a type other than that of the parent, and no name before it does. -/
def FirstConflict (p : AttributeTable) (entries : List (String × AttributeType)) (name : String)
    (inherited type : AttributeType) : Prop :=
  ∃ before after, entries = before ++ (name, type) :: after ∧
    (∀ entry ∈ before, ∀ other, p.get? entry.1 = some other → other = entry.2) ∧
    p.get? name = some inherited ∧ inherited ≠ type

/-- Where no name is repeated, none stands before the entry that has it. -/
theorem not_mem_of_nodup_append {before after : List (String × AttributeType)}
    (h : ((before ++ (name, type) :: after).map Prod.fst).Nodup) :
    (before.map Prod.fst).Nodup ∧ name ∉ before.map Prod.fst := by
  rw [List.map_append, List.map_cons, List.nodup_append] at h
  exact ⟨h.1, fun hmem => h.2.2 name hmem name List.mem_cons_self rfl⟩

/-- A table of own attributes is refused exactly for the first name that comes a second time. -/
theorem ofList_eq_error_iff : ofList owner entries = .error error ↔
    ∃ name, FirstRepeated entries name ∧ error = .duplicateName owner .attributes name := by
  have hrun : ofList owner entries = .error error ↔
      ∃ t', (empty owner).declareAll entries = (t', .error error) := by
    unfold ofList
    rcases (empty owner).declareAll entries with ⟨t', answer⟩
    cases answer <;> simp
  rw [hrun]
  constructor
  · rintro ⟨t', h⟩
    obtain ⟨before, name, type, after, names, rfl, hbefore, hrefused⟩ :=
      declareAll_eq_error_iff.1 h
    have howner : t'.owner = owner := owner_of_declareAll hbefore
    rw [declare_eq_error_iff, mem_declared_of_declareAll hbefore rfl, howner] at hrefused
    rcases hrefused with ⟨hmem, rfl⟩ | ⟨hnot, inherited, hget, -⟩
    · exact ⟨name, ⟨before, type, after, rfl, (declares_of_declareAll hbefore).nodup, hmem⟩, rfl⟩
    · -- A name that is new to the list is new to a table that began empty.
      rw [get?_of_declareAll hbefore hnot] at hget
      cases hget
  · rintro ⟨name, ⟨before, type, after, rfl, hnodup, hmem⟩, rfl⟩
    obtain ⟨t', names, hbefore⟩ := exists_declareAll (t := empty owner) hnodup
      (fun _ _ h => nomatch h) (fun _ _ _ h => nomatch h)
    have howner : t'.owner = owner := owner_of_declareAll hbefore
    refine ⟨t', declareAll_eq_error_iff.2 ⟨before, name, type, after, names, rfl, hbefore, ?_⟩⟩
    rw [declare_eq_error_iff, howner, mem_declared_of_declareAll hbefore rfl]
    exact .inl ⟨hmem, rfl⟩

/-! ## On top of the parent -/

/-- Own attributes without repetitions are refused for the first of them that differs from that of
the parent. -/
theorem extend_eq_error_iff (hnodup : (entries.map Prod.fst).Nodup) :
    ((p.derive owner).declareAll entries).2 = .error error ↔
      ∃ name inherited type, FirstConflict p entries name inherited type ∧
        error = .attributeRedefinition owner name inherited.text type.text := by
  have hrun : ((p.derive owner).declareAll entries).2 = .error error ↔
      ∃ t', (p.derive owner).declareAll entries = (t', .error error) := by
    rcases (p.derive owner).declareAll entries with ⟨t', answer⟩
    simp
  rw [hrun]
  constructor
  · rintro ⟨t', h⟩
    obtain ⟨before, name, type, after, names, rfl, hbefore, hrefused⟩ :=
      declareAll_eq_error_iff.1 h
    obtain ⟨-, hnew⟩ := not_mem_of_nodup_append hnodup
    have howner : t'.owner = owner := owner_of_declareAll hbefore
    rw [declare_eq_error_iff, mem_declared_of_declareAll hbefore rfl,
      get?_of_declareAll hbefore hnew, howner] at hrefused
    rcases hrefused with ⟨hmem, -⟩ | ⟨-, inherited, hget, hne, rfl⟩
    · exact absurd hmem hnew
    · exact ⟨name, inherited, type,
        ⟨before, after, rfl, (declares_of_declareAll hbefore).agree, hget, hne⟩, rfl⟩
  · rintro ⟨name, inherited, type, ⟨before, after, rfl, hagree, hget, hne⟩, rfl⟩
    obtain ⟨hbefore, hnew⟩ := not_mem_of_nodup_append hnodup
    obtain ⟨t', names, hbefore⟩ := exists_declareAll (t := p.derive owner) hbefore
      (fun _ _ h => nomatch h) hagree
    have howner : t'.owner = owner := owner_of_declareAll hbefore
    refine ⟨t', declareAll_eq_error_iff.2 ⟨before, name, type, after, names, rfl, hbefore, ?_⟩⟩
    rw [declare_eq_error_iff, mem_declared_of_declareAll hbefore rfl,
      get?_of_declareAll hbefore hnew, howner]
    exact .inr ⟨hnew, inherited, hget, hne, rfl⟩

/-! ## Both passes -/

/-- The attributes that a class takes over from its parent and adds, with the names that repeat
inherited ones: a table of its own first, and then the table derived from that of the parent, which
is extended in place. -/
def inherit (p : AttributeTable) (owner : ClassId) (entries : List (String × AttributeType)) :
    Except LayoutError (AttributeTable × List String) := do
  let own ← ofList owner entries
  let (answer, table) := (extendInPlace own).exec (p.derive owner)
  return (table, ← answer)

/-- What is refused in the first pass is refused. -/
theorem inherit_of_ofList_error (h : ofList owner entries = .error error) (p : AttributeTable) :
    p.inherit owner entries = .error error := by
  unfold inherit
  rw [h]
  rfl

/-- What is accepted in the first pass is declared in the table that is derived from that of the
parent. -/
theorem inherit_of_ofList_ok {own : AttributeTable} (h : ofList owner entries = .ok own)
    (p : AttributeTable) : p.inherit owner entries = ((p.derive owner).declareAll entries).2.map
      (((p.derive owner).declareAll entries).1, ·) := by
  have hown : own.toList = entries := (ofList_ok h).1
  unfold inherit
  rw [h]
  show (((extendInPlace own).exec (p.derive owner)).1 >>= fun names =>
    pure (((extendInPlace own).exec (p.derive owner)).2, names)) = _
  rw [exec_extendInPlace]
  unfold extendFrom
  rw [hown]
  cases ((p.derive owner).declareAll entries).2 <;> rfl

/-- What a build takes over from the parent of a class is what is inherited here. -/
theorem ofList_bind_inheritedAttributes {decl : ClassDecl} {d : Descriptor} :
    (ofList decl.id entries >>= inheritedAttributes decl (some d)) =
      (d.attributes.inherit decl.id entries).map Prod.fst := by
  cases hown : ofList decl.id entries with
  | error error =>
    rw [inherit_of_ofList_error hown]
    rfl
  | ok own =>
    rw [inherit_of_ofList_ok hown]
    show inheritedAttributes decl (some d) own = _
    unfold inheritedAttributes extendFrom
    rw [(ofList_ok hown).1]
    dsimp only
    rcases (d.attributes.derive decl.id).declareAll entries with ⟨table, answer⟩
    cases answer <;> rfl

/-- Why own attributes are refused: a name is repeated, or else one is inherited with another
type. -/
inductive RefusesOwn (p : AttributeTable) (owner : ClassId)
    (entries : List (String × AttributeType)) : LayoutError → Prop where
  | repeated {name : String} (h : FirstRepeated entries name) :
      RefusesOwn p owner entries (.duplicateName owner .attributes name)
  | conflict {name : String} {inherited type : AttributeType}
      (hnodup : (entries.map Prod.fst).Nodup) (h : FirstConflict p entries name inherited type) :
      RefusesOwn p owner entries (.attributeRedefinition owner name inherited.text type.text)

/-- Where there is a first repeated name, names are repeated. -/
theorem not_nodup_of_firstRepeated (h : FirstRepeated entries name) :
    ¬ (entries.map Prod.fst).Nodup := by
  obtain ⟨before, type, after, rfl, -, hmem⟩ := h
  exact fun hnodup => (not_mem_of_nodup_append hnodup).2 hmem

/-- Own attributes make a table exactly when no name is repeated. -/
theorem ofList_eq_ok_iff :
    (∃ own, ofList owner entries = .ok own) ↔ (entries.map Prod.fst).Nodup := by
  constructor
  · rintro ⟨own, h⟩
    obtain ⟨hown, hnodup⟩ := ofList_ok h
    rw [← hown]
    exact hnodup
  · exact exists_ofList owner

/-- Own attributes are refused with the error that the list of them calls for. -/
theorem inherit_eq_error_iff :
    p.inherit owner entries = .error error ↔ RefusesOwn p owner entries error := by
  cases hown : ofList owner entries with
  | error first =>
    obtain ⟨name, hrepeated, rfl⟩ := ofList_eq_error_iff.1 hown
    rw [inherit_of_ofList_error hown]
    constructor
    · intro h
      cases h
      exact .repeated hrepeated
    · intro h
      cases h with
      | repeated h =>
        have hsame : ofList owner entries = .error _ := ofList_eq_error_iff.2 ⟨_, h, rfl⟩
        rw [hown] at hsame
        cases hsame
        rfl
      | conflict hnodup => exact absurd hnodup (not_nodup_of_firstRepeated hrepeated)
  | ok own =>
    have hnodup := ofList_eq_ok_iff.1 ⟨own, hown⟩
    have hrun : p.inherit owner entries = .error error ↔
        ((p.derive owner).declareAll entries).2 = .error error := by
      rw [inherit_of_ofList_ok hown]
      cases ((p.derive owner).declareAll entries).2 <;> simp [Except.map]
    rw [hrun, extend_eq_error_iff hnodup]
    constructor
    · rintro ⟨name, inherited, type, hconflict, rfl⟩
      exact .conflict hnodup hconflict
    · intro h
      cases h with
      | repeated h => exact absurd hnodup (not_nodup_of_firstRepeated h)
      | conflict _ h => exact ⟨_, _, _, h, rfl⟩

/-- What is inherited was declared on top of the derived table, and conversely. -/
theorem inherit_eq_ok_iff : p.inherit owner entries = .ok (t, names) ↔
    (p.derive owner).declareAll entries = (t, .ok names) := by
  constructor
  · intro h
    cases hown : ofList owner entries with
    | error error =>
      rw [inherit_of_ofList_error hown] at h
      cases h
    | ok own =>
      rw [inherit_of_ofList_ok hown] at h
      rcases hall : (p.derive owner).declareAll entries with ⟨u, answer⟩
      rw [hall] at h
      cases answer with
      | error error => cases h
      | ok others =>
        cases h
        rfl
  · intro h
    obtain ⟨own, hown⟩ := exists_ofList owner (declares_of_declareAll h).nodup
    rw [inherit_of_ofList_ok hown, h]
    rfl

/-- The algorithm of attribute inheritance. -/
structure Inherits (p : AttributeTable) (owner : ClassId)
    (entries : List (String × AttributeType)) : Prop where
  /-- Own attributes are accepted exactly when no name is repeated, and each one that the parent has
  comes with the type that it has there. -/
  accepted_iff : (∃ table names, p.inherit owner entries = .ok (table, names)) ↔
    (entries.map Prod.fst).Nodup ∧
      ∀ entry ∈ entries, ∀ type, p.get? entry.1 = some type → type = entry.2
  /-- The attributes of the parent come first, and then those that it lacks. -/
  toList_eq : ∀ table names, p.inherit owner entries = .ok (table, names) →
    table.owner = owner ∧ table.toList = p.toList ++ p.newIn entries
  /-- The names that the parent has are reported. -/
  names_eq : ∀ table names, p.inherit owner entries = .ok (table, names) →
    names = p.redundantIn entries
  /-- The own attributes are local, and nothing else is. -/
  isLocal_iff : ∀ table names, p.inherit owner entries = .ok (table, names) →
    ∀ name, table.isLocal name = true ↔ name ∈ entries.map Prod.fst
  refused_iff : ∀ error, p.inherit owner entries = .error error ↔ RefusesOwn p owner entries error

/-- Own attributes are accepted exactly when no name is repeated and every type is that of the
parent. -/
theorem accepted_iff : (∃ table names, p.inherit owner entries = .ok (table, names)) ↔
    (entries.map Prod.fst).Nodup ∧
      ∀ entry ∈ entries, ∀ type, p.get? entry.1 = some type → type = entry.2 := by
  constructor
  · rintro ⟨table, names, h⟩
    have hdeclares := declares_of_declareAll (inherit_eq_ok_iff.1 h)
    exact ⟨hdeclares.nodup, hdeclares.agree⟩
  · rintro ⟨hnodup, hagree⟩
    obtain ⟨table, names, h⟩ := exists_declareAll (t := p.derive owner) hnodup
      (fun _ _ h => nomatch h) hagree
    exact ⟨table, names, inherit_eq_ok_iff.2 h⟩

/-- The names that the class declares are local, and no others. -/
theorem isLocal_of_inherit (h : p.inherit owner entries = .ok (t, names)) (name : String) :
    t.isLocal name = true ↔ name ∈ entries.map Prod.fst := by
  unfold isLocal
  rw [List.contains_iff_mem, mem_declared_of_declareAll (inherit_eq_ok_iff.1 h) rfl]

/-- The names that are reported are those that the parent has. -/
theorem redundant_of_inherit (h : p.inherit owner entries = .ok (t, names)) :
    names = p.redundantIn entries :=
  redundant_of_declareAll (t := p.derive owner) (inherit_eq_ok_iff.1 h)

/-- Own attributes are inherited as they should be, whatever the table of the parent is. -/
theorem inherits (p : AttributeTable) (owner : ClassId) (entries : List (String × AttributeType)) :
    Inherits p owner entries where
  accepted_iff := accepted_iff
  toList_eq := fun _ _ h =>
    ⟨owner_of_declareAll (inherit_eq_ok_iff.1 h),
      (declares_of_declareAll (inherit_eq_ok_iff.1 h)).toList_eq⟩
  names_eq := fun _ _ h => redundant_of_inherit h
  isLocal_iff := fun _ _ h => isLocal_of_inherit h
  refused_iff := fun _ => inherit_eq_error_iff

/-! ## Runs -/

/-- What can be done with attribute tables under names. -/
inductive Operation where
  /-- A table without attributes is made. -/
  | empty (owner : ClassId)
  /-- A table is made from attributes. -/
  | ofList (owner : ClassId) (entries : List (String × AttributeType))
  /-- A table is derived from the one under a name. -/
  | derive (source : String) (owner : ClassId)
  /-- An attribute is declared in the table, be it accepted or refused. -/
  | declare (name : String) (type : AttributeType)
  /-- The table is extended by the one under a name, be it accepted or refused half-way. -/
  | extend (own : String)

/-- What is under a name after an operation that is aimed at it, if the operation makes or changes
anything. -/
def Operation.result (s : Shelf AttributeTable) (target : String) :
    Operation → Option AttributeTable
  | empty owner => some (.empty owner)
  | ofList owner entries => (AttributeTable.ofList owner entries).toOption
  | derive source owner => (s.get? source).map fun t => t.derive owner
  | declare name type => (s.get? target).map fun t => ((declareInPlace name type).exec t).2
  | extend own =>
    match s.get? own, s.get? target with
    | some own, some t => some ((extendInPlace own).exec t).2
    | _, _ => none

/-- The tables under names after a list of operations, each aimed at one name. -/
def after (steps : List (String × Operation)) : Shelf AttributeTable :=
  Shelf.run Operation.result ∅ steps

/-- What holds of the table that operations leave under a name, in itself and as a parent. -/
structure SoundAt (steps : List (String × Operation)) (source : String) (p : AttributeTable) :
    Prop where
  inherits : ∀ owner entries, Inherits p owner entries
  /-- A declaration that is refused changes nothing. -/
  declare_unchanged : ∀ name type error, ((declareInPlace name type).exec p).1 = .error error →
    ((declareInPlace name type).exec p).2 = p
  /-- An extension that is refused has the effect of the attributes before the refused one. -/
  extend_partial : ∀ own error, ((extendInPlace own).exec p).1 = .error error →
    ∃ before name type rest names, own.toList = before ++ (name, type) :: rest ∧
      (declareAllInPlace before).exec p = (.ok names, ((extendInPlace own).exec p).2) ∧
      ((declareInPlace name type).exec ((extendInPlace own).exec p).2).1 = .error error
  /-- What is done under other names does not change it, be it with tables derived from it. -/
  unchanged : ∀ later, (∀ step ∈ later, source ≠ step.1) →
    (after (steps ++ later)).get? source = some p

/-- A declaration that is refused leaves the table. -/
theorem declare_unchanged (h : ((declareInPlace name type).exec t).1 = .error error) :
    ((declareInPlace name type).exec t).2 = t := by
  rw [exec_declareInPlace] at h ⊢
  cases hdeclare : t.declare name type with
  | error _ => rfl
  | ok made =>
    rw [hdeclare] at h
    cases h

/-- An extension that is refused has declared what stands before the refused attribute. -/
theorem extend_partial {own : AttributeTable}
    (h : ((extendInPlace own).exec t).1 = .error error) :
    ∃ before name type rest names, own.toList = before ++ (name, type) :: rest ∧
      (declareAllInPlace before).exec t = (.ok names, ((extendInPlace own).exec t).2) ∧
      ((declareInPlace name type).exec ((extendInPlace own).exec t).2).1 = .error error := by
  rw [exec_extendInPlace] at h ⊢
  obtain ⟨before, name, type, rest, names, hsplit, hbefore, hrefused⟩ :=
    declareAll_eq_error_iff.1 (Prod.ext rfl h : t.declareAll own.toList = (_, .error error))
  refine ⟨before, name, type, rest, names, hsplit, ?_, ?_⟩
  · rw [exec_declareAllInPlace, hbefore]
    rfl
  · show ((declareInPlace name type).exec (t.declareAll own.toList).1).1 = .error error
    rw [exec_declareInPlace, hrefused]
    rfl

/-- Every table that comes about by operations is inherited from by the algorithm, is not changed
by what is refused, and is not changed through a table derived from it. -/
theorem inherits_of_operations {steps : List (String × Operation)} {source : String}
    (h : (after steps).get? source = some p) : SoundAt steps source p where
  inherits := inherits p
  declare_unchanged := fun _ _ _ => declare_unchanged
  extend_partial := fun _ _ => extend_partial
  unchanged := by
    intro later hlater
    unfold after at h ⊢
    rw [Shelf.run_append, Shelf.get?_run_of_forall_ne hlater, h]

/-- A subclass repeats an inherited attribute and adds one. Then it is extended by a table whose
second attribute has another type than the inherited one, which is refused half-way. -/
theorem inherits_of_partial_extension :
    ∃ steps p, (after steps).get? "base" = some p ∧
      ((after steps).get? "sub").map (fun t => (t.names, t.declared)) =
        some (["x", "y", "a"], ["a"]) ∧
      (p.inherit ⟨"Sub"⟩ [("y", .object), ("a", .object)]).map
        (fun made => (made.1.names, made.2)) = .ok (["x", "y", "a"], ["y"]) ∧
      SoundAt steps "base" p := by
  let steps : List (String × Operation) :=
    [("base", .ofList ⟨"Base"⟩ [("x", .primitive .int8)]),
      ("base", .declare "y" .object),
      ("base", .declare "y" .object),
      ("own", .ofList ⟨"Sub"⟩ [("a", .object), ("x", .object), ("b", .object)]),
      ("sub", .derive "base" ⟨"Sub"⟩),
      ("sub", .extend "own")]
  have hsub : ((after steps).get? "sub").map (fun t => (t.names, t.declared)) =
      some (["x", "y", "a"], ["a"]) := by
    decide +kernel
  have hbase : ((after steps).get? "base").map (fun p =>
      (p.inherit ⟨"Sub"⟩ [("y", .object), ("a", .object)]).map
        fun made => (made.1.names, made.2)) = some (.ok (["x", "y", "a"], ["y"])) := by
    decide +kernel
  obtain ⟨p, hp, hinherit⟩ := Option.map_eq_some_iff.1 hbase
  exact ⟨steps, p, hp, hsub, hinherit, inherits_of_operations hp⟩

end AttributeTable

end ObjectLayout
