import ObjectLayout.Proofs.Specializations
import ObjectLayout.Proofs.WrittenClasses
import ObjectLayout.Registry.Build

/-!
# Symbols of compiled bodies

Where there is a body for each list of argument types, its symbol is that of the slot with the types
behind it in brackets. Nothing is escaped in it: the symbol of a slot is any text, and types have
brackets of their own. But the brackets in the text of a type are balanced, so the last bracket of
the symbol closes the one behind the symbol of the slot and no other
(`IsBalanced.eq_of_append_bracket`), and no type has a comma in its text, so the commas divide the
types (`joinTexts_inj`). Hence the symbol tells the slot and the types apart (`symbol_inj`).
-/

set_option autoImplicit false

namespace ObjectLayout

namespace Text

/-! ## Balanced brackets -/

/-- As many brackets are opened as are closed, and from no place on more of them are opened. -/
structure IsBalanced (cs : List Char) : Prop where
  count_eq : cs.count '[' = cs.count ']'
  closed : ∀ {front tail}, cs = front ++ tail → tail.count '[' ≤ tail.count ']'

namespace IsBalanced

variable {cs cs' : List Char}

/-- A text without brackets is balanced. -/
theorem of_not_mem (hopen : '[' ∉ cs) (hclose : ']' ∉ cs) : IsBalanced cs where
  count_eq := by rw [List.count_eq_zero.2 hopen, List.count_eq_zero.2 hclose]
  closed := by
    rintro front tail rfl
    have htail : '[' ∉ tail := fun hmem => hopen (List.mem_append_right _ hmem)
    rw [List.count_eq_zero.2 htail]
    exact Nat.zero_le _

/-- Balanced texts one after the other are balanced. -/
theorem append (h : IsBalanced cs) (h' : IsBalanced cs') : IsBalanced (cs ++ cs') where
  count_eq := by rw [List.count_append, List.count_append, h.count_eq, h'.count_eq]
  closed := by
    intro front tail heq
    rcases List.append_eq_append_iff.1 heq with ⟨between, -, hcs'⟩ | ⟨between, hcs, rfl⟩
    · exact h'.closed hcs'
    · have hbetween := h.closed hcs
      have hcount := h'.count_eq
      rw [List.count_append, List.count_append]
      omega

/-- A balanced text in brackets is balanced. -/
theorem bracket (h : IsBalanced cs) : IsBalanced ('[' :: cs ++ [']']) where
  count_eq := by simp [h.count_eq]
  closed := by
    intro front tail heq
    rw [List.cons_append] at heq
    rcases List.cons_eq_append_iff.1 heq with ⟨-, rfl⟩ | ⟨rest, -, hrest⟩
    · simp [h.count_eq]
    · rcases List.append_eq_append_iff.1 hrest with ⟨between, -, hclose⟩ | ⟨between, hcs, rfl⟩
      · have htail : '[' ∉ tail := fun hmem => by
          have hmem' : '[' ∈ [']'] := by
            rw [hclose]
            exact List.mem_append_right _ hmem
          exact absurd hmem' (by decide)
        rw [List.count_eq_zero.2 htail]
        exact Nat.zero_le _
      · have hbetween := h.closed hcs
        simp
        omega

/-- Balanced texts with a balanced text between them are balanced. -/
theorem intercalate {separator : List Char} (hseparator : IsBalanced separator)
    {texts : List (List Char)} (h : ∀ cs ∈ texts, IsBalanced cs) :
    IsBalanced (separator.intercalate texts) := by
  induction texts with
  | nil => exact .of_not_mem (by simp) (by simp)
  | cons first rest ih =>
    obtain ⟨hfirst, hrest⟩ := List.forall_mem_cons.1 h
    cases rest with
    | nil => simpa using hfirst
    | cons second others =>
      rw [List.intercalate_cons_cons]
      exact (hfirst.append hseparator).append (ih hrest)

/-- A bracket that the rest of a text leaves open does not stand inside a balanced text. -/
theorem ne_append_bracket {front : List Char} (h : IsBalanced cs) (h' : IsBalanced cs') :
    cs ≠ front ++ '[' :: cs' := by
  intro heq
  have hle := h.closed heq
  have hcount := h'.count_eq
  rw [List.count_cons_self, List.count_cons_of_ne (by decide)] at hle
  omega

/-- There is one way at most to divide a text by a bracket that a balanced text follows. -/
theorem eq_of_append_bracket {before before' : List Char} (h : IsBalanced cs) (h' : IsBalanced cs')
    (heq : before ++ '[' :: cs = before' ++ '[' :: cs') : before = before' ∧ cs = cs' := by
  -- If one bracket stood behind the other one, it would be left open inside a balanced text.
  rcases List.append_eq_append_iff.1 heq with ⟨between, hbefore, hrest⟩ | ⟨between, hbefore, hrest⟩
  · rcases List.cons_eq_append_iff.1 hrest with ⟨rfl, htail⟩ | ⟨front, -, hcs⟩
    · exact ⟨by simpa using hbefore.symm, (List.cons.inj htail).2.symm⟩
    · exact absurd hcs (h.ne_append_bracket h')
  · rcases List.cons_eq_append_iff.1 hrest with ⟨rfl, htail⟩ | ⟨front, -, hcs⟩
    · exact ⟨by simpa using hbefore, (List.cons.inj htail).2⟩
    · exact absurd hcs (h'.ne_append_bracket h)

end IsBalanced

end Text

/-! ## The texts of types -/

namespace AttributeType

open Text (IsBalanced)

/-- No character of a dotted name is a comma or a bracket. -/
theorem not_mem_of_isDottedName {cs : List Char} (h : IsDottedName cs) {c : Char}
    (hc : c ∈ [',', '[', ']']) : c ∉ cs := by
  intro hmem
  have hchar := h.mem hmem
  simp only [List.mem_cons, List.not_mem_nil, or_false] at hc
  rcases hc with rfl | rfl | rfl <;> exact absurd hchar (by unfold IsNameStart; decide)

/-- The text of a type that can be read has balanced brackets and no comma. -/
theorem IsReadable.isBalanced_text {type : AttributeType} (h : type.IsReadable) :
    IsBalanced type.text.toList ∧ ',' ∉ type.text.toList := by
  have hname : ∀ {cls : ClassId}, cls.IsDotted →
      IsBalanced cls.text.toList ∧ ',' ∉ cls.text.toList := fun hdotted => by
    have hnot := fun c => not_mem_of_isDottedName (c := c) (isDotted_iff.1 hdotted)
    exact ⟨.of_not_mem (hnot '[' (by decide)) (hnot ']' (by decide)), hnot ',' (by decide)⟩
  induction type with
  | primitive scalar =>
    cases scalar <;> exact ⟨.of_not_mem (by decide) (by decide), by decide⟩
  | object => exact ⟨.of_not_mem (by decide) (by decide), by decide⟩
  | pointer target ih =>
    obtain ⟨hbalanced, hcomma⟩ := ih h
    have hstar : IsBalanced ['*'] := .of_not_mem (by decide) (by decide)
    have htext : (pointer target).text.toList = ['*'] ++ target.text.toList := by simp [text]
    rw [htext]
    exact ⟨hstar.append hbalanced, by simp [hcomma]⟩
  | reference cls =>
    obtain ⟨hbalanced, hcomma⟩ := hname h
    have hword : IsBalanced "ref ".toList := .of_not_mem (by decide) (by decide)
    have htext : (reference cls).text.toList = "ref ".toList ++ cls.text.toList := by simp [text]
    rw [htext]
    exact ⟨hword.append hbalanced, by simp [hcomma]⟩
  | embedded cls => exact hname h.1
  | array element length ih =>
    obtain ⟨hbalanced, hcomma⟩ := ih h.2
    have hdigit : ∀ c, c.isDigit = false → c ∉ Nat.toDigits 10 length := fun c hc hmem => by
      rw [Nat.isDigit_of_mem_toDigits (by decide) (by decide) hmem] at hc
      cases hc
    have hlength : IsBalanced (';' :: ([' '] ++ Nat.toDigits 10 length)) :=
      .of_not_mem (by simp [hdigit]) (by simp [hdigit])
    rw [text_array]
    exact ⟨(hbalanced.append hlength).bracket, by simp [hcomma, hdigit]⟩

/-- A type that is parsed can be read back. -/
theorem IsParsed.isReadable {type : AttributeType} (h : type.IsParsed) :
    type.HasWordLengths ∧ type.IsReadable := by
  obtain ⟨text, htext⟩ := h
  exact isReadable_of_parse htext

/-- Types are joined by commas. -/
theorem toList_joinTexts (types : List AttributeType) :
    (joinTexts "," types).toList = [','].intercalate (types.map fun type => type.text.toList) := by
  unfold joinTexts
  rw [String.toList_intercalate, List.map_map]
  rfl

/-- The text of joined types is balanced. -/
theorem isBalanced_joinTexts {types : List AttributeType} (h : ∀ type ∈ types, type.IsParsed) :
    IsBalanced (joinTexts "," types).toList := by
  rw [toList_joinTexts]
  refine .intercalate (.of_not_mem (by decide) (by decide)) fun cs hcs => ?_
  obtain ⟨type, hmem, rfl⟩ := List.mem_map.1 hcs
  exact (h type hmem).isReadable.2.isBalanced_text.1

/-- Only no types at all have no text between them. -/
theorem joinTexts_ne_nil {types : List AttributeType} (h : ∀ type ∈ types, type.IsParsed)
    (hne : types ≠ []) : (joinTexts "," types).toList ≠ [] := by
  rw [toList_joinTexts]
  cases types with
  | nil => exact absurd rfl hne
  | cons first rest =>
    obtain ⟨hwords, hreadable⟩ := (h first List.mem_cons_self).isReadable
    have hfirst := (hreadable.derives_text hwords).2.ne_nil
    cases rest with
    | nil => simpa using hfirst
    | cons second others => simp [List.intercalate_cons_cons, hfirst]

/-- Types that are joined by commas can be told apart again. -/
theorem joinTexts_inj {types types' : List AttributeType} (h : ∀ type ∈ types, type.IsParsed)
    (h' : ∀ type ∈ types', type.IsParsed) (heq : joinTexts "," types = joinTexts "," types') :
    types = types' := by
  have hsplit : ∀ {types : List AttributeType}, (∀ type ∈ types, type.IsParsed) → types ≠ [] →
      (joinTexts "," types).toList.splitOn ',' = types.map fun type => type.text.toList := by
    intro types h hne
    rw [toList_joinTexts]
    refine List.splitOn_intercalate ',' (fun cs hcs => ?_) (by simpa using hne)
    obtain ⟨type, hmem, rfl⟩ := List.mem_map.1 hcs
    exact (h type hmem).isReadable.2.isBalanced_text.2
  by_cases hne : types = []
  · subst hne
    by_contra hne'
    exact joinTexts_ne_nil h' (Ne.symm hne') (by rw [← heq]; rfl)
  · by_cases hne' : types' = []
    · subst hne'
      exact absurd (by rw [heq]; rfl) (joinTexts_ne_nil h hne)
    · have htexts : (types.map fun type => type.text.toList) =
          types'.map fun type => type.text.toList := by
        rw [← hsplit h hne, heq, hsplit h' hne']
      -- What is read from the texts are the types.
      have hread : ∀ {types : List AttributeType}, (∀ type ∈ types, type.IsParsed) →
          (types.map fun type => type.text.toList).map (fun cs => parse (String.ofList cs)) =
            types.map Except.ok := by
        intro types h
        rw [List.map_map]
        refine List.map_congr_left fun type hmem => ?_
        simp [parse_text_iff.2 (h type hmem).isReadable]
      have hok := congrArg (List.map fun cs => parse (String.ofList cs)) htexts
      rw [hread h, hread h'] at hok
      exact List.map_injective_iff.2 (fun _ _ => Except.ok.inj) hok

end AttributeType

/-! ## Symbols -/

namespace SpecializationTable

variable {d : Descriptor} {history : List MethodCall}

/-- The symbol of a body is that of the slot with the types behind it in brackets. -/
theorem toList_symbol (hkind : d.kind = .inferredPerCall) (slot : MethodSlot)
    (types : List AttributeType) :
    ((empty d).symbol slot types).toList =
      slot.implementation.toList ++ '[' :: (AttributeType.joinTexts "," types).toList ++ [']'] := by
  unfold symbol empty
  rw [hkind]
  simp [ExtensionKind.lookupPolicy]

/-- Where bodies depend on the argument types, the symbol of a body tells the symbol of its slot and
the types. -/
theorem symbol_inj (hkind : d.kind = .inferredPerCall) {slot slot' : MethodSlot}
    {types types' : List AttributeType} (h : ∀ type ∈ types, type.IsParsed)
    (h' : ∀ type ∈ types', type.IsParsed) :
    (empty d).symbol slot types = (empty d).symbol slot' types' ↔
      slot.implementation = slot'.implementation ∧ types = types' := by
  constructor
  · intro heq
    have hchars := congrArg String.toList heq
    rw [toList_symbol hkind, toList_symbol hkind] at hchars
    obtain ⟨hslot, htypes⟩ :=
      (AttributeType.isBalanced_joinTexts h).eq_of_append_bracket
        (AttributeType.isBalanced_joinTexts h') (List.append_cancel_right hchars)
    exact ⟨String.toList_injective hslot,
      AttributeType.joinTexts_inj h h' (String.toList_injective htypes)⟩
  · rintro ⟨hslot, rfl⟩
    unfold symbol
    rw [hslot]

/-- Bodies of one table that were asked for with types that were read have the same symbol only if
they are the same body, provided that no two slots of the class have the same symbol. -/
theorem Tracks.eq_of_implementation_eq {t : SpecializationTable} (h : Tracks d history t)
    (hkind : d.kind = .inferredPerCall)
    (hslots : (d.dispatch.slots.values.map MethodSlot.implementation).Nodup)
    (hread : ∀ call ∈ history, ∀ type ∈ call.2, type.IsParsed) {body body' : Specialization}
    (hbody : body ∈ t.toList) (hbody' : body' ∈ t.toList)
    (heq : body.implementation = body'.implementation) : body = body' := by
  have hget := h.mem_toList_iff.1 hbody
  have hget' := h.mem_toList_iff.1 hbody'
  obtain ⟨slot, hslot, -, hsymbol⟩ := h.slot hget
  obtain ⟨slot', hslot', -, hsymbol'⟩ := h.slot hget'
  rw [hsymbol, hsymbol', symbol_inj hkind (hread _ (h.of_get? hget).1)
    (hread _ (h.of_get? hget').1)] at heq
  obtain ⟨himplementation, htypes⟩ := heq
  dsimp only at htypes
  -- The symbol of a slot tells the method.
  have hentries : (d.dispatch.slots.toList.map fun entry => entry.2.implementation).Nodup := by
    unfold OrderedMap.values at hslots
    rwa [List.map_map] at hslots
  have hentry := List.inj_on_of_nodup_map hentries
    (OrderedMap.mem_toList_of_get?_eq_some hslot) (OrderedMap.mem_toList_of_get?_eq_some hslot')
    himplementation
  have hmethod : body.method = body'.method := congrArg Prod.fst hentry
  rw [hmethod, htypes, hget'] at hget
  exact (Option.some.inj hget).symm

/-- Where bodies depend on the argument types and no two slots have the same symbol, no two bodies
have the same symbol, whatever calls asked for them. -/
theorem nodup_symbols_of_perCallSite (hkind : d.kind = .inferredPerCall)
    (hslots : (d.dispatch.slots.values.map MethodSlot.implementation).Nodup)
    (hread : ∀ call ∈ history, ∀ type ∈ call.2, type.IsParsed) :
    ((afterCalls d history).toList.map Specialization.implementation).Nodup := by
  have h := tracks_afterCalls d history
  have hbodies : (afterCalls d history).toList.Nodup := by
    refine List.Nodup.of_map Specialization.id ?_
    rw [h.ids_eq]
    exact List.nodup_range
  exact hbodies.map_on fun body hbody body' hbody' heq =>
    h.eq_of_implementation_eq hkind hslots hread hbody hbody' heq

/-- A class whose slots have symbols that look like those of bodies, and calls of it with an array
and with no arguments at all, one of them made twice and one refused. -/
theorem nodup_symbols_of_lookalikes :
    ∃ d history, d.kind = .inferredPerCall ∧
      (d.dispatch.slots.values.map MethodSlot.implementation).Nodup ∧
      (∀ call ∈ history, ∀ type ∈ call.2, type.IsParsed) ∧
      (afterCalls d history).toList.map Specialization.implementation =
        ["f[int8]", "f[int8][]", "f[[[int8; 2],int8]", "f[]"] ∧
      ((afterCalls d history).toList.map Specialization.implementation).Nodup := by
  let definition : ClassDefinition :=
    { id := ⟨"F"⟩
      kind := .inferredPerCall
      methods := [
        { name := "f", implementation := some "f" },
        { name := "g", implementation := some "f[int8]" },
        { name := "h", implementation := some "f[" }] }
  let calls : List MethodCall :=
    [("f", [.primitive .int8]), ("g", []),
     ("h", [.array (.primitive .int8) 2, .primitive .int8]), ("f", []), ("f", [.primitive .int8]),
     ("k", [])]
  have hbuilt : ((Registry.build { config := {} } definition none).exec ∅).1.map (fun d =>
      (d.kind, d.dispatch.slots.values.map MethodSlot.implementation,
        (afterCalls d calls).toList.map Specialization.implementation)) =
      .ok (.inferredPerCall, ["f", "f[int8]", "f["],
        ["f[int8]", "f[int8][]", "f[[[int8; 2],int8]", "f[]"]) := by
    decide +kernel
  obtain ⟨d, -, hd⟩ := LayoutM.exists_eq_ok_of_map hbuilt
  obtain ⟨hkind, hrest⟩ := Prod.mk.inj hd
  obtain ⟨hsymbols, hbodies⟩ := Prod.mk.inj hrest
  have hslots : (d.dispatch.slots.values.map MethodSlot.implementation).Nodup := by
    rw [hsymbols]
    decide
  have hnumber : (AttributeType.primitive .int8).IsParsed :=
    ⟨_, AttributeType.parse_text_iff.2 ⟨trivial, trivial⟩⟩
  have hpair : (AttributeType.array (.primitive .int8) 2).IsParsed :=
    ⟨_, AttributeType.parse_text_iff.2 ⟨⟨by decide, trivial⟩, ⟨by decide, trivial⟩⟩⟩
  have hread : ∀ call ∈ calls, ∀ type ∈ call.2, type.IsParsed := by
    simp [calls, hnumber, hpair]
  exact ⟨d, calls, hkind, hslots, hread, hbodies, nodup_symbols_of_perCallSite hkind hslots hread⟩

end SpecializationTable

end ObjectLayout
