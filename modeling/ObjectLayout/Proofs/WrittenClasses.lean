import ObjectLayout.Form.Class
import ObjectLayout.Proofs.JsonText
import ObjectLayout.Proofs.TypeText

/-!
# Definitions and their written forms

A definition is written as a JSON object. Reading accepts more than what is written: fields may be
left out or be `null`, and methods may be arrays. Whatever was read is a definition whose types were
read (`isParsed_of_ofJson?`), and every such definition comes back from its written form, value or
text (`IsParsed.readsBack`). The one signature of a method is split into two members there; it comes
back because both are written exactly when there is a signature, so that an empty list of parameters
is not taken for none.
-/

set_option autoImplicit false

namespace ObjectLayout

namespace Json

variable {α β : Type} {value : Json} {field : Option Json}

/-- A field that may be absent is read where it is present and not `null`. -/
theorem optional_some {decode : Json → Option α} {a : α} (hnull : value ≠ null)
    (h : decode value = some a) : optional decode (some value) = some (some a) := by
  cases value with
  | null => exact absurd rfl hnull
  | _ => simp [optional, h]

/-- A field that may be absent is read as nothing exactly when it is absent or `null`. -/
theorem optional_eq_none_iff {decode : Json → Option α} :
    optional decode field = some none ↔ field = none ∨ field = some null := by
  rcases field with _ | (_ | _ | _ | _ | _ | _) <;> simp [optional]

/-- A field that may be absent and is read is present. -/
theorem exists_of_optional {decode : Json → Option α} {a : α}
    (h : optional decode field = some (some a)) : ∃ value, decode value = some a := by
  unfold optional at h
  split at h
  · cases h
  · cases h
  · next value _ =>
    obtain ⟨b, hb, heq⟩ := Option.map_eq_some_iff.1 h
    cases heq
    exact ⟨value, hb⟩

/-- Every item that is read from a list is read from an item of it. -/
theorem exists_of_mem_mapM {decode : Json → Option α} {items : List Json} {as : List α}
    (h : items.mapM decode = some as) {a : α} (ha : a ∈ as) : ∃ item, decode item = some a := by
  induction items generalizing as with
  | nil =>
    cases h
    cases ha
  | cons item items ih =>
    rw [List.mapM_cons] at h
    obtain ⟨first, hfirst, h⟩ := Option.bind_eq_some_iff.1 h
    obtain ⟨more, hmore, h⟩ := Option.bind_eq_some_iff.1 h
    cases h
    rcases List.mem_cons.1 ha with rfl | hmem
    · exact ⟨item, hfirst⟩
    · exact ih hmore hmem

/-- Every item that is read from an array is read from an item of it. -/
theorem exists_of_mem_list? {decode : Json → Option α} {as : List α}
    (h : list? decode value = some as) {a : α} (ha : a ∈ as) : ∃ item, decode item = some a := by
  obtain ⟨items, -, hitems⟩ := Option.bind_eq_some_iff.1 h
  exact exists_of_mem_mapM hitems ha

/-- Every item that is read from an array that may be absent is read from an item of it. -/
theorem exists_of_mem_defaulted {decode : Json → Option α} {as : List α}
    (h : defaulted [] (list? decode) field = some as) {a : α} (ha : a ∈ as) :
    ∃ item, decode item = some a := by
  cases field with
  | none =>
    cases h
    cases ha
  | some value => exact exists_of_mem_list? h ha

/-- The second part of a pair that is read is read from an item of it. -/
theorem of_pair? {first : Json → Option α} {second : Json → Option β} {a : α} {b : β}
    (h : pair? first second value = some (a, b)) : ∃ item, second item = some b := by
  unfold pair? at h
  split at h
  · next x y =>
    obtain ⟨c, -, h⟩ := Option.bind_eq_some_iff.1 h
    obtain ⟨d, hd, h⟩ := Option.bind_eq_some_iff.1 h
    cases h
    exact ⟨y, hd⟩
  · cases h

/-- An array of encoded items has only strings that stand for texts if these have. -/
theorem HasTexts.ofList {encode : α → Json} (h : ∀ a, (encode a).HasTexts) (items : List α) :
    (Json.ofList encode items).HasTexts := by
  refine .arr fun item hmem => ?_
  obtain ⟨a, -, rfl⟩ := List.mem_map.1 hmem
  exact h a

/-- Items can be stored if each of them can be. -/
theorem areStorable_of_forall {depth : Nat} {items : List Json}
    (h : ∀ item ∈ items, isStorable depth item) : areStorable depth items := by
  induction items with
  | nil => rfl
  | cons item items ih =>
    obtain ⟨hitem, hitems⟩ := List.forall_mem_cons.1 h
    rw [areStorable, hitem, ih hitems]
    rfl

end Json

/-! ## Types -/

namespace AttributeType

/-- A type that was read from a text. -/
def IsParsed (type : AttributeType) : Prop := ∃ text, parse text = .ok type

/-- A managed object is a type that is parsed. -/
theorem isParsed_object : object.IsParsed :=
  ⟨object.text, parse_text_iff.2 ⟨trivial, trivial⟩⟩

/-- A type that is parsed is read back from its text. -/
theorem IsParsed.ofJson?_toJson {type : AttributeType} (h : type.IsParsed) :
    ofJson? type.toJson = some type := by
  obtain ⟨text, htext⟩ := h
  have hagain := parse_text_iff.2 (isReadable_of_parse htext)
  simp only [ofJson?, toJson, Json.ofText, Json.text?, Option.bind_some, hagain]
  rfl

/-- A type that is read is parsed. -/
theorem isParsed_of_ofJson? {value : Json} {type : AttributeType} (h : ofJson? value = some type) :
    type.IsParsed := by
  obtain ⟨text, -, hparse⟩ := Option.bind_eq_some_iff.1 h
  refine ⟨text, ?_⟩
  cases hanswer : parse text with
  | error error =>
    rw [hanswer] at hparse
    cases hparse
  | ok read =>
    rw [hanswer] at hparse
    exact congrArg Except.ok (Option.some.inj hparse)

end AttributeType

/-! ## Methods -/

/-- A signature of types that were read. -/
structure MethodSignature.IsParsed (s : MethodSignature) : Prop where
  params : ∀ type ∈ s.params, type.IsParsed
  returns : s.returns.IsParsed

namespace MethodDecl

variable {method : MethodDecl} {value : Json}

/-- A method whose signature, if it is stated, has types that were read. -/
def IsParsed (method : MethodDecl) : Prop :=
  ∀ s, method.signature = some s → s.IsParsed

/-- The fields of a method as they are written. -/
theorem record?_toJson (method : MethodDecl) :
    method.toJson.record? fieldNames 1 =
      some [some (.ofText method.name),
        method.signature.map fun s => .ofList AttributeType.toJson s.params,
        method.signature.map fun s => s.returns.toJson,
        method.implementation.map Json.ofText] := by
  rcases method with ⟨name, _ | s, _ | symbol⟩ <;>
    simp [toJson, signatureMembers, Json.ofMembers, Json.record?, Json.namedMembers?, Json.member?,
      fieldNames]

/-- A signature that is stated in two members is put together again. -/
theorem ofStated?_map (s : Option MethodSignature) :
    MethodSignature.ofStated? (s.map fun s => s.params) (s.map fun s => s.returns) = s := by
  cases s <;> rfl

/-- A method reads back from its written form. -/
theorem IsParsed.ofJson?_toJson (h : method.IsParsed) : ofJson? method.toJson = some method := by
  have hparams : Json.optional (Json.list? AttributeType.ofJson?)
      (method.signature.map fun s => .ofList AttributeType.toJson s.params) =
        some (method.signature.map fun s => s.params) := by
    cases hs : method.signature with
    | none => rfl
    | some s =>
      exact Json.optional_some (fun h => nomatch h)
        (Json.list?_ofList fun type hmem => ((h s hs).params type hmem).ofJson?_toJson)
  have hreturns : Json.optional AttributeType.ofJson?
      (method.signature.map fun s => s.returns.toJson) =
        some (method.signature.map fun s => s.returns) := by
    cases hs : method.signature with
    | none => rfl
    | some s => exact Json.optional_some (fun h => nomatch h) (h s hs).returns.ofJson?_toJson
  have himplementation : Json.optional Json.text? (method.implementation.map Json.ofText) =
      some method.implementation := by
    cases method.implementation <;> rfl
  unfold ofJson?
  rw [record?_toJson]
  simp [Json.required, Json.ofText, Json.text?, hparams, hreturns, himplementation, ofStated?_map]

/-- The strings of a method stand for texts. -/
theorem hasTexts_toJson (method : MethodDecl) : method.toJson.HasTexts := by
  have htype := fun type : AttributeType => Json.HasTexts.str type.text
  refine .obj fun member hmem => ?_
  rcases List.mem_append.1 hmem with hmem | hmem
  · rcases List.mem_cons.1 hmem with rfl | hmem
    · exact .str method.name
    · cases hs : method.signature with
      | none =>
        rw [hs] at hmem
        cases hmem
      | some s =>
        rw [hs] at hmem
        simp only [signatureMembers, List.mem_cons, List.not_mem_nil, or_false] at hmem
        rcases hmem with rfl | rfl
        · exact .ofList htype s.params
        · exact htype s.returns
  · obtain ⟨symbol, -, rfl⟩ := List.mem_map.1 hmem
    exact .str symbol

/-- What is read of a method, field by field. -/
theorem exists_fields_of_ofJson? (h : ofJson? value = some method) :
    ∃ name params returns implementation,
      value.record? fieldNames 1 = some [name, params, returns, implementation] ∧
      ∃ types result, Json.optional (Json.list? AttributeType.ofJson?) params = some types ∧
        Json.optional AttributeType.ofJson? returns = some result ∧
        method.signature = MethodSignature.ofStated? types result := by
  unfold ofJson? at h
  split at h
  · next name params returns implementation hfields =>
    obtain ⟨text, -, h⟩ := Option.bind_eq_some_iff.1 h
    obtain ⟨types, htypes, h⟩ := Option.bind_eq_some_iff.1 h
    obtain ⟨result, hresult, h⟩ := Option.bind_eq_some_iff.1 h
    obtain ⟨symbol, -, h⟩ := Option.bind_eq_some_iff.1 h
    cases h
    exact ⟨name, params, returns, implementation, hfields, types, result, htypes, hresult, rfl⟩
  · cases h

/-- A method that was read has only types that were read, the one included that stands for a result
that is not stated. -/
theorem isParsed_of_ofJson? (h : ofJson? value = some method) : method.IsParsed := by
  obtain ⟨_, params, returns, _, -, types, result, htypes, hresult, hsignature⟩ :=
    exists_fields_of_ofJson? h
  have hparams : ∀ type ∈ types.getD [], type.IsParsed := by
    intro type hmem
    cases types with
    | none => cases hmem
    | some types =>
      obtain ⟨item, hitem⟩ := Json.exists_of_optional htypes
      obtain ⟨item', hitem'⟩ := Json.exists_of_mem_list? hitem hmem
      exact AttributeType.isParsed_of_ofJson? hitem'
  have hreturns : (result.getD .object).IsParsed := by
    cases result with
    | none => exact AttributeType.isParsed_object
    | some type =>
      obtain ⟨item, hitem⟩ := Json.exists_of_optional hresult
      exact AttributeType.isParsed_of_ofJson? hitem
  intro s hs
  rw [hsignature] at hs
  unfold MethodSignature.ofStated? at hs
  split at hs
  · cases hs
  · cases hs
    exact ⟨hparams, hreturns⟩

/-- Neither the parameters nor the result of a method are stated. An empty list of parameters is a
statement, and `null` is none. -/
def StatesNoSignature (value : Json) : Prop :=
  ∃ name params returns implementation,
    value.record? fieldNames 1 = some [name, params, returns, implementation] ∧
      (params = none ∨ params = some .null) ∧ (returns = none ∨ returns = some .null)

/-- A method that was read has a signature unless none is stated. -/
theorem signature_eq_none_iff (h : ofJson? value = some method) :
    method.signature = none ↔ StatesNoSignature value := by
  obtain ⟨name, params, returns, implementation, hfields, types, result, htypes, hresult,
    hsignature⟩ := exists_fields_of_ofJson? h
  have hnone : method.signature = none ↔ types = none ∧ result = none := by
    rw [hsignature]
    cases types <;> cases result <;> simp [MethodSignature.ofStated?]
  rw [hnone]
  constructor
  · rintro ⟨rfl, rfl⟩
    exact ⟨name, params, returns, implementation, hfields, Json.optional_eq_none_iff.1 htypes,
      Json.optional_eq_none_iff.1 hresult⟩
  · rintro ⟨name', params', returns', implementation', hfields', hparams, hreturns⟩
    cases hfields.symm.trans hfields'
    rw [Json.optional_eq_none_iff.2 hparams] at htypes
    rw [Json.optional_eq_none_iff.2 hreturns] at hresult
    exact ⟨(Option.some.inj htypes).symm, (Option.some.inj hresult).symm⟩

end MethodDecl

/-! ## Definitions -/

/-- A definition whose types were read. -/
structure ClassDefinition.IsParsed (definition : ClassDefinition) : Prop where
  attributes : ∀ entry ∈ definition.attributes, entry.2.IsParsed
  methods : ∀ method ∈ definition.methods, method.IsParsed

/-- The members that write a declaration are read back, stored or not. -/
theorem ClassDecl.ofFields?_jsonMembers (decl : ClassDecl) (stored : Bool) :
    (Json.namedMembers? fieldNames
      (decl.jsonMembers.map fun member => (some member.1, member.2))).bind (ofFields? stored) =
        some decl := by
  have hbases := Json.list?_ofList fun base (_ : base ∈ decl.bases) => base.ofJson?_toJson
  unfold jsonMembers
  simp [Json.namedMembers?, Json.member?, fieldNames, ofFields?, Json.required, Json.defaulted,
    ClassId.ofJson?_toJson, DeclForm.ofJson?_toJson, ExtensionKind.ofJson?_toJson, hbases]

namespace ClassDefinition

variable {definition : ClassDefinition} {value : Json}

/-- The members of a declaration can be stored. -/
theorem isStorable_jsonMembers (decl : ClassDecl) :
    ∀ member ∈ decl.jsonMembers, member.2.isStorable (Json.nestingLimit - 1) := by
  have hbases : Json.areStorable (Json.nestingLimit - 2) (decl.bases.map ClassId.toJson) := by
    refine Json.areStorable_of_forall fun item hmem => ?_
    obtain ⟨base, -, rfl⟩ := List.mem_map.1 hmem
    rfl
  simp only [ClassDecl.jsonMembers, List.forall_mem_cons]
  exact ⟨rfl, rfl, hbases, rfl, fun _ h => nomatch h⟩

/-- The members of the object that writes a definition. -/
def writtenMembers (definition : ClassDefinition) : List (Option String × Json) :=
  (definition.jsonMembers.map fun member => (some member.1, member.2)) ++
    [(some "attributes", .ofList attributeJson definition.attributes),
     (some "methods", .ofList MethodDecl.toJson definition.methods)]

/-- A definition is read back from the members that are written. -/
theorem ofJson?_toJson_eq (definition : ClassDefinition) :
    ofJson? definition.toJson = ofMembers? definition.writtenMembers := by
  simp [ofJson?, toJson, Json.ofMembers, Json.members?, writtenMembers]

/-- Outside the body of a definition its declaration is written, and nothing else. -/
theorem filter_writtenMembers (definition : ClassDefinition) {outside : Option String × Json → Bool}
    (houtside : ∀ member, outside member = member.1.all (· ∉ bodyNames)) :
    definition.writtenMembers.filter outside =
      definition.jsonMembers.map fun member => (some member.1, member.2) := by
  simp [writtenMembers, ClassDecl.jsonMembers, houtside, bodyNames]

/-- The members of the body are found among those that are written. -/
theorem namedMembers?_writtenMembers (definition : ClassDefinition) :
    Json.namedMembers? bodyNames definition.writtenMembers =
      some [some (.ofList attributeJson definition.attributes),
        some (.ofList MethodDecl.toJson definition.methods)] := by
  simp [writtenMembers, ClassDecl.jsonMembers, bodyNames, Json.namedMembers?, Json.member?]

/-- A definition of types that were read comes back from its written form. -/
theorem IsParsed.ofJson?_toJson (h : definition.IsParsed) :
    ofJson? definition.toJson = some definition := by
  have hattributes : Json.list? (Json.pair? Json.text? AttributeType.ofJson?)
      (.ofList attributeJson definition.attributes) = some definition.attributes := by
    refine Json.list?_ofList fun entry hmem => ?_
    simp [attributeJson, Json.pair?, Json.ofText, Json.text?,
      (h.attributes entry hmem).ofJson?_toJson]
  have hmethods : Json.list? MethodDecl.ofJson?
      (.ofList MethodDecl.toJson definition.methods) = some definition.methods :=
    Json.list?_ofList fun method hmem => (h.methods method hmem).ofJson?_toJson
  obtain ⟨fields, hfields, hdecl⟩ :=
    Option.bind_eq_some_iff.1 (definition.toClassDecl.ofFields?_jsonMembers true)
  rw [ofJson?_toJson_eq, ofMembers?, definition.filter_writtenMembers fun _ => rfl,
    definition.namedMembers?_writtenMembers]
  have hstored : ∀ storable : Option String × Json → Bool,
      (∀ member, storable member = member.2.isStorable (Json.nestingLimit - 1)) →
      (guard ((definition.jsonMembers.map fun member => (some member.1, member.2)).all storable) :
        Option Unit) = some () := by
    intro storable hstorable
    refine if_pos (List.all_eq_true.2 fun member hmem => ?_)
    obtain ⟨written, hwritten, rfl⟩ := List.mem_map.1 hmem
    rw [hstorable]
    exact isStorable_jsonMembers _ written hwritten
  rw [hstored _ fun _ => rfl]
  simp [hfields, hdecl, Json.defaulted, hattributes, hmethods]

/-- A definition that is read has types that are parsed. -/
theorem isParsed_of_ofJson? (h : ofJson? value = some definition) : definition.IsParsed := by
  obtain ⟨members, -, h⟩ := Option.bind_eq_some_iff.1 h
  obtain ⟨-, -, h⟩ := Option.bind_eq_some_iff.1 h
  obtain ⟨fields, -, h⟩ := Option.bind_eq_some_iff.1 h
  split at h
  · next attributes methods =>
    obtain ⟨declFields, -, h⟩ := Option.bind_eq_some_iff.1 h
    obtain ⟨decl, -, h⟩ := Option.bind_eq_some_iff.1 h
    obtain ⟨entries, hentries, h⟩ := Option.bind_eq_some_iff.1 h
    obtain ⟨declared, hdeclared, h⟩ := Option.bind_eq_some_iff.1 h
    cases h
    constructor
    · intro entry hmem
      obtain ⟨item, hitem⟩ := Json.exists_of_mem_defaulted hentries hmem
      obtain ⟨type, htype⟩ := Json.of_pair? hitem
      exact AttributeType.isParsed_of_ofJson? htype
    · intro method hmem
      obtain ⟨item, hitem⟩ := Json.exists_of_mem_defaulted hdeclared hmem
      exact MethodDecl.isParsed_of_ofJson? hitem
  · cases h

/-- Every string in the written form of a definition stands for a text. -/
theorem hasTexts_toJson (definition : ClassDefinition) : definition.toJson.HasTexts := by
  have hattribute : ∀ entry : String × AttributeType, (attributeJson entry).HasTexts := fun entry =>
    .arr (List.forall_mem_cons.2 ⟨.str entry.1, List.forall_mem_singleton.2 (.str entry.2.text)⟩)
  refine .obj fun member hmem => ?_
  simp only [ClassDecl.jsonMembers, List.cons_append, List.nil_append, List.mem_cons,
    List.not_mem_nil, or_false] at hmem
  rcases hmem with rfl | rfl | rfl | rfl | rfl | rfl
  · exact .str _
  · exact .str _
  · exact .ofList (fun base : ClassId => .str base.text) _
  · exact .str _
  · exact .ofList hattribute _
  · exact .ofList MethodDecl.hasTexts_toJson _

/-! ## Texts and back -/

/-- The definition that a text writes. -/
def ofText? (text : String) : Option ClassDefinition := (Json.parse? text).bind ofJson?

/-- A definition is read back from its written form, as a value and as either text of it. -/
structure ReadsBack (definition : ClassDefinition) : Prop where
  value : ofJson? definition.toJson = some definition
  compact : ofText? definition.toJson.compact = some definition
  pretty : ofText? definition.toJson.pretty = some definition

/-- A definition whose types are parsed is read back from every form. -/
theorem IsParsed.readsBack (h : definition.IsParsed) : definition.ReadsBack where
  value := h.ofJson?_toJson
  compact := by
    rw [ofText?, Json.parse?_compact definition.hasTexts_toJson]
    exact h.ofJson?_toJson
  pretty := by
    rw [ofText?, Json.parse?_pretty definition.hasTexts_toJson]
    exact h.ofJson?_toJson

/-- A definition that is read from a text has types that are parsed. -/
theorem isParsed_of_ofText? {text : String} (h : ofText? text = some definition) :
    definition.IsParsed := by
  obtain ⟨value, -, hread⟩ := Option.bind_eq_some_iff.1 h
  exact isParsed_of_ofJson? hread

/-- Definitions go through their written forms and back unchanged. What was read can be written and
read again, as the same definition with the same text, and definitions are the same when their texts
are. A method is read without a signature exactly when none is stated, and stays so. -/
theorem written_roundTrips :
    (∀ definition : ClassDefinition, definition.IsParsed → definition.ReadsBack) ∧
    (∀ text definition, ofText? text = some definition →
      definition.IsParsed ∧ definition.ReadsBack ∧
      ∀ again, ofText? definition.toJson.compact = some again →
        again.toJson.compact = definition.toJson.compact) ∧
    (∀ definition definition' : ClassDefinition, definition.IsParsed → definition'.IsParsed →
      (definition = definition' ↔ definition.toJson.compact = definition'.toJson.compact)) ∧
    ∀ value method, MethodDecl.ofJson? value = some method →
      MethodDecl.ofJson? method.toJson = some method ∧
      (method.signature = none ↔ MethodDecl.StatesNoSignature value) ∧
      (method.signature = none ↔ MethodDecl.StatesNoSignature method.toJson) := by
  refine ⟨fun definition h => h.readsBack, ?_, ?_, ?_⟩
  · intro text definition h
    have hparsed := isParsed_of_ofText? h
    refine ⟨hparsed, hparsed.readsBack, fun again hagain => ?_⟩
    rw [Option.some.inj (hagain.symm.trans hparsed.readsBack.compact)]
  · intro definition definition' h h'
    refine ⟨fun heq => by rw [heq], fun heq => ?_⟩
    have hread := h.readsBack.compact
    rw [heq] at hread
    exact Option.some.inj (hread.symm.trans h'.readsBack.compact)
  · intro value method h
    have hagain := (MethodDecl.isParsed_of_ofJson? h).ofJson?_toJson
    exact ⟨hagain, MethodDecl.signature_eq_none_iff h, MethodDecl.signature_eq_none_iff hagain⟩

/-- A text with a field that no definition has, and with methods that are written as an array,
without a signature, and with nothing but a result. -/
theorem written_roundTrips_of_shape :
    ∃ text definition, ofText? text = some definition ∧
      definition.attributes = [("corners", .array (.primitive .float64) 2)] ∧
      definition.methods.map (fun method => method.signature) =
        [some { params := [], returns := .object }, none,
          some { params := [], returns := .primitive .float64 }] ∧
      definition.ReadsBack := by
  let text := "\x7b\"id\": \"Shape\", \"note\": 1, \"attributes\": [[\"corners\", \"[float64 ;2]\"]], " ++
    "\"methods\": [[\"area\", []], \x7b\"name\": \"draw\", \"params\": null\x7d, " ++
    "\x7b\"name\": \"scale\", \"returns\": \"float64\"\x7d]\x7d"
  have hread : (ofText? text).map (fun definition =>
      (definition.attributes, definition.methods.map fun method => method.signature)) =
        some ([("corners", .array (.primitive .float64) 2)],
          [some { params := [], returns := .object }, none,
            some { params := [], returns := .primitive .float64 }]) := by
    decide +kernel
  obtain ⟨definition, hdefinition, hparts⟩ := Option.map_eq_some_iff.1 hread
  exact ⟨text, definition, hdefinition, congrArg Prod.fst hparts, congrArg Prod.snd hparts,
    (written_roundTrips.2.1 text definition hdefinition).2.1⟩

end ClassDefinition

end ObjectLayout
