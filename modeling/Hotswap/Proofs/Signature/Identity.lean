import Hotswap.Proofs.TypeName.Name
import Hotswap.Proofs.TypeName.Substitution
import Mathlib

/-!
# Texts as identities

Type names, signatures and fields are filed under their texts: a catalogue under the texts of
signatures, accessors under the keys of fields, and remembered types under theirs. That is sound
because a text stands for one of them only.

* `TypeName.parse_render_of_parse`: a type name that was read is read again from its text, so no
  two that were read have one text. Which type names can be read at all is said by their parts.
* `references_parse_render`: the same of references to methods and to fields, and of the keys that
  are made from them.
-/

namespace Hotswap

/-! ## Type names -/

namespace TypeName

/-- A type name that some text is read as. -/
def Parsed (t : TypeName) : Prop := ∃ text, TypeName.parse text = .ok t

/-- The type names that can be read are those that are well formed. -/
theorem parsed_iff_wellFormed {t : TypeName} : t.Parsed ↔ t.WellFormed := by
  constructor
  · rintro ⟨text, h⟩
    exact wellFormed_of_parse h
  · intro h
    exact ⟨t.render, parse_render h⟩

/-- Different well-formed type names have different texts. -/
theorem render_inj {t t' : TypeName} (h : t.WellFormed) (h' : t'.WellFormed)
    (htext : t.render = t'.render) : t = t' := by
  have hparse := parse_render h
  rw [htext, parse_render h'] at hparse
  exact (Except.ok.inj hparse).symm

/-- The named types that can be read. There is no argument list where a segment may open. -/
theorem parsed_named_iff {name : String} {args : List TypeName} :
    (named name args).Parsed ↔
      name ≠ "" ∧ name.toList.head? ≠ some '!' ∧ NameText name.toList ∧
        (args ≠ [] → mayOpen name.toList = false) ∧ ∀ t ∈ args, t.Parsed := by
  simp only [parsed_iff_wellFormed, WellFormed, isName_iff, allWellFormed_iff]
  constructor
  · rintro ⟨⟨hnonempty, htext⟩, hunmarked, hopens, hargs⟩
    exact ⟨hnonempty, hunmarked, htext, fun hne => (opensArgs_iff htext).1 (hopens hne), hargs⟩
  · rintro ⟨hnonempty, hunmarked, htext, hopens, hargs⟩
    exact ⟨⟨hnonempty, htext⟩, hunmarked, fun hne => (opensArgs_iff htext).2 (hopens hne), hargs⟩

/-- **Type names are read again from their texts**, so different ones have different texts. They are
the placeholders of both kinds, the suffixed type names and the named ones whose name is a name and
whose arguments are such type names. -/
theorem parse_render_of_parse :
    (∀ text t, TypeName.parse text = .ok t → TypeName.parse t.render = .ok t) ∧
      (∀ text text' t t', TypeName.parse text = .ok t → TypeName.parse text' = .ok t' →
        t.render = t'.render → t = t') ∧
      (∀ index, (typeParam index).Parsed ∧ (methodParam index).Parsed) ∧
      (∀ t s, (suffixed t s).Parsed ↔ t.Parsed) ∧
      ∀ name args, (named name args).Parsed ↔
        name ≠ "" ∧ name.toList.head? ≠ some '!' ∧ NameText name.toList ∧
          (args ≠ [] → mayOpen name.toList = false) ∧ ∀ t ∈ args, t.Parsed := by
  refine ⟨?_, ?_, ?_, ?_, ?_⟩
  · intro text t h
    exact parse_render (wellFormed_of_parse h)
  · intro text text' t t' h h'
    exact render_inj (wellFormed_of_parse h) (wellFormed_of_parse h')
  · intro index
    exact ⟨parsed_iff_wellFormed.2 trivial, parsed_iff_wellFormed.2 trivial⟩
  · intro t s
    rw [parsed_iff_wellFormed, parsed_iff_wellFormed]
    rfl
  · intro name args
    exact parsed_named_iff

/-- A text with blanks, a segment that holds brackets and blanks, an empty list, suffixes, and a
placeholder with the largest index and zeros in front. -/
theorem parse_render_of_parse_nested :
    TypeName.parse " Main/<a <b>>c`1< F`2<!0,!!04294967295[]&> , B< >* >" =
        .ok (.named "Main/<a <b>>c`1" [.named "F`2" [.typeParam 0,
          .suffixed (.suffixed (.methodParam 4294967295) .array) .byRef],
          .suffixed (.named "B" []) .pointer]) ∧
      TypeName.parse "Main/<a <b>>c`1<F`2<!0,!!4294967295[]&>,B*>" =
        .ok (.named "Main/<a <b>>c`1" [.named "F`2" [.typeParam 0,
          .suffixed (.suffixed (.methodParam 4294967295) .array) .byRef],
          .suffixed (.named "B" []) .pointer]) := by
  have hparse : TypeName.parse " Main/<a <b>>c`1< F`2<!0,!!04294967295[]&> , B< >* >" =
      .ok (.named "Main/<a <b>>c`1" [.named "F`2" [.typeParam 0,
        .suffixed (.suffixed (.methodParam 4294967295) .array) .byRef],
        .suffixed (.named "B" []) .pointer]) := by decide +kernel
  have htext := parse_render_of_parse.1 _ _ hparse
  exact ⟨hparse, htext⟩

end TypeName

/-! ## References -/

/-- **References are read again from their texts**, with a type in front or without one, and so are
signatures and the keys of fields. Different signatures have different texts to be filed under, and
fields of different types or of different names have different keys. -/
theorem references_parse_render :
    (∀ text m, MethodRef.parse text = .ok m →
      MethodRef.parse m.render = .ok m ∧
        Signature.parse m.signature.render = .ok m.signature) ∧
      (∀ text f, FieldRef.parse text = .ok f →
        FieldRef.parse f.render = .ok f ∧
          FieldRef.parse f.key = .ok ⟨none, f.declaringType, f.name⟩) ∧
      (∀ text text' s s', Signature.parse text = .ok s → Signature.parse text' = .ok s' →
        s.render = s'.render → s = s') ∧
      ∀ text text' f f', FieldRef.parse text = .ok f → FieldRef.parse text' = .ok f' →
        f.key = f'.key → f.declaringType = f'.declaringType ∧ f.name = f'.name := by
  refine ⟨?_, ?_, ?_, ?_⟩
  · intro text m h
    have hm := MethodRef.wellFormed_of_parse h
    exact ⟨MethodRef.parse_render hm, Signature.parse_render hm.signature⟩
  · intro text f h
    have hf := FieldRef.wellFormed_of_parse h
    exact ⟨FieldRef.parse_render hf, FieldRef.parse_key hf⟩
  · intro text text' s s' h h'
    exact Signature.render_inj (Signature.wellFormed_of_parse h) (Signature.wellFormed_of_parse h')
  · intro text text' f f' h h'
    exact FieldRef.key_inj (FieldRef.wellFormed_of_parse h) (FieldRef.wellFormed_of_parse h')

/-- A method and a field of generated types. Nothing divides the type in front from the one that
declares them, and there are blanks in the lists and in the name of the field. -/
theorem references_parse_render_generated :
    (MethodRef.parse "!!0[]Box`1< A >::<Map>b__0<B> ( F`2<!0, !!0> ,<>c)" =
        MethodRef.parse "!!0[] Box`1<A>::<Map>b__0<B>(F`2<!0,!!0>,<>c)" ∧
      Signature.parse "Box`1<A>::<Map>b__0<B>(F`2<!0,!!0>,<>c)" =
        .ok ⟨.named "Box`1" [.named "A" []], "<Map>b__0", [.named "B" []],
          [.named "F`2" [.typeParam 0, .methodParam 0], .named "<>c" []]⟩) ∧
      FieldRef.parse " !0&Main/<>c<B>::<n, x>k__Field " =
        FieldRef.parse "!0& Main/<>c<B>::<n, x>k__Field" ∧
      FieldRef.parse "Main/<>c<B>::<n, x>k__Field" =
        .ok ⟨none, .named "Main/<>c" [.named "B" []], "<n, x>k__Field"⟩ := by
  have hmethod : MethodRef.parse "!!0[]Box`1< A >::<Map>b__0<B> ( F`2<!0, !!0> ,<>c)" =
      .ok ⟨some (.suffixed (.methodParam 0) .array), .named "Box`1" [.named "A" []], "<Map>b__0",
        [.named "B" []], [.named "F`2" [.typeParam 0, .methodParam 0], .named "<>c" []]⟩ := by
    decide +kernel
  have hfield : FieldRef.parse " !0&Main/<>c<B>::<n, x>k__Field " =
      .ok ⟨some (.suffixed (.typeParam 0) .byRef), .named "Main/<>c" [.named "B" []],
        "<n, x>k__Field"⟩ := by
    decide +kernel
  obtain ⟨hmethod', hsignature⟩ := references_parse_render.1 _ _ hmethod
  obtain ⟨hfield', hkey⟩ := references_parse_render.2.1 _ _ hfield
  exact ⟨⟨hmethod.trans hmethod'.symm, hsignature⟩, hfield.trans hfield'.symm, hkey⟩

end Hotswap
