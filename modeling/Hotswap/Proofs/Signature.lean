import Hotswap.Proofs.TypeName.Scanner
import Hotswap.Signature

/-!
# Reading the text of a reference

The text of a method reference is read as the reference, of the references that can be read at all
(`MethodRef.WellFormed`). A signature is a reference without a type in front. The same holds of
field references (`FieldRef.WellFormed`), whose key is the text without the type in front.
-/

namespace Hotswap

/-- A signature that can be read. -/
structure Signature.WellFormed (s : Signature) : Prop where
  /-- The declaring type can be read. -/
  declaringType : s.declaringType.WellFormed
  /-- The name is one. -/
  name : IsName s.name
  /-- An argument list can open after the name, if there is one. -/
  opens : s.genericArgs ≠ [] → OpensArgs s.name
  /-- The generic arguments can be read. -/
  genericArgs : TypeName.AllWellFormed s.genericArgs
  /-- The parameters can be read. -/
  parameters : TypeName.AllWellFormed s.parameters

/-- A method reference that can be read. -/
structure MethodRef.WellFormed (m : MethodRef) : Prop where
  /-- The type in front can be read. -/
  returnType : ∀ t, m.returnType = some t → t.WellFormed
  /-- The signature can be read. -/
  signature : m.signature.WellFormed

/-- A field reference that can be read. -/
structure FieldRef.WellFormed (f : FieldRef) : Prop where
  /-- The type in front can be read. -/
  fieldType : ∀ t, f.fieldType = some t → t.WellFormed
  /-- The declaring type can be read. -/
  declaringType : f.declaringType.WellFormed
  /-- The name is one. -/
  name : IsName f.name

/-! ## Whatever is read is well formed -/

/-- The types that are read in front of a reference can be written. -/
theorem Cursor.wellFormed_of_leadingTypes {c c' : Cursor} {first : Option TypeName}
    {second : TypeName} (h : c.leadingTypes = .ok ((first, second), c')) :
    (∀ t, first = some t → t.WellFormed) ∧ second.WellFormed := by
  unfold Cursor.leadingTypes at h
  obtain ⟨⟨t, c₁⟩, ht, h⟩ := bind_eq_ok.1 h
  dsimp only at h
  split at h
  · cases h
    refine ⟨fun t' ht' => ?_, wellFormed_of_type ht⟩
    cases ht'
  · obtain ⟨⟨u, c₂⟩, hu, h⟩ := bind_eq_ok.1 h
    dsimp only at h
    split at h
    · cases h
      refine ⟨fun t' ht' => ?_, wellFormed_of_type hu⟩
      cases ht'
      exact wellFormed_of_type ht
    · cases h

/-- A method reference that is read is well formed. -/
theorem MethodRef.wellFormed_of_parse {text : String} {m : MethodRef}
    (h : MethodRef.parse text = .ok m) : m.WellFormed := by
  have hscan : MethodRef.scan text = .ok m := mapError_eq_ok.1 h
  unfold MethodRef.scan at hscan
  obtain ⟨⟨⟨returnType, declaringType⟩, c₁⟩, hleading, hscan⟩ := bind_eq_ok.1 hscan
  obtain ⟨⟨name, c₂⟩, hname, hscan⟩ := bind_eq_ok.1 hscan
  obtain ⟨⟨genericArgs, c₃⟩, hgeneric, hscan⟩ := bind_eq_ok.1 hscan
  obtain ⟨hreturn, hdeclaring⟩ := Cursor.wellFormed_of_leadingTypes (mapError_eq_ok.1 hleading)
  obtain ⟨hisName, hopens, -⟩ := Cursor.isName_of_name (mapError_eq_ok.1 hname)
  have hargs : TypeName.AllWellFormed genericArgs ∧ (genericArgs ≠ [] → OpensArgs name) := by
    have hgeneric := mapError_eq_ok.1 hgeneric
    unfold Cursor.genericArgs at hgeneric
    split at hgeneric
    · rename_i c hopen
      exact ⟨Cursor.wellFormed_of_types hgeneric, fun _ => hopens (Cursor.head_of_eat? hopen)⟩
    · cases hgeneric
      exact ⟨trivial, fun hne => absurd rfl hne⟩
  dsimp only at hscan
  split at hscan
  · cases hscan
  · obtain ⟨⟨parameters, c₄⟩, hparameters, hscan⟩ := bind_eq_ok.1 hscan
    obtain ⟨-, -, hscan⟩ := bind_eq_ok.1 hscan
    cases hscan
    have hparameters := Cursor.wellFormed_of_types (mapError_eq_ok.1 hparameters)
    exact ⟨hreturn, hdeclaring, hisName, hargs.2, hargs.1, hparameters⟩

/-- A signature that is read is well formed. -/
theorem Signature.wellFormed_of_parse {text : String} {s : Signature}
    (h : Signature.parse text = .ok s) : s.WellFormed := by
  obtain ⟨m, hm, rfl⟩ := map_eq_ok.1 h
  exact (MethodRef.wellFormed_of_parse hm).signature

/-- A field reference that is read is well formed. -/
theorem FieldRef.wellFormed_of_parse {text : String} {f : FieldRef}
    (h : FieldRef.parse text = .ok f) : f.WellFormed := by
  have hscan : FieldRef.scan text = .ok f := mapError_eq_ok.1 h
  unfold FieldRef.scan at hscan
  obtain ⟨⟨⟨fieldType, declaringType⟩, c₁⟩, hleading, hscan⟩ := bind_eq_ok.1 hscan
  obtain ⟨⟨name, c₂⟩, hname, hscan⟩ := bind_eq_ok.1 hscan
  obtain ⟨-, -, hscan⟩ := bind_eq_ok.1 hscan
  obtain ⟨hfield, hdeclaring⟩ := Cursor.wellFormed_of_leadingTypes hleading
  obtain ⟨hisName, -, -⟩ := Cursor.isName_of_name hname
  simp only [pure, Except.pure, Except.ok.injEq] at hscan
  subst hscan
  exact ⟨hfield, hdeclaring, hisName⟩

/-! ## Reading the text -/

/-- The types in front of a reference are read. -/
theorem Cursor.leadingTypes_render {c : Cursor} {first : Option TypeName} {second : TypeName}
    {rest : List Char} (hfirst : ∀ t, first = some t → t.WellFormed) (hsecond : second.WellFormed)
    (hrest : c.rest =
      (renderLeading first).toList ++ (second.render.toList ++ ':' :: ':' :: rest)) :
    c.leadingTypes = .ok ((first, second),
      c.after ((renderLeading first).toList ++ (second.render.toList ++ [':', ':'])) rest) := by
  have hend : EndsType (':' :: ':' :: rest) := headNot_cons (by decide)
  have hcolon : HeadNot Text.isBlank (':' :: ':' :: rest) := headNot_cons (by decide)
  unfold Cursor.leadingTypes
  cases first with
  | none =>
    rw [type_render hsecond hrest hend]
    dsimp only [bind, Except.bind]
    rw [skipBlanks_of_headNot hcolon, eat?_append rfl]
    show Except.ok ((none, second), (c.after _ _).after [':', ':'] rest) = _
    rw [after_after]
    rfl
  | some t =>
    have htext : (renderLeading (some t)).toList = t.render.toList ++ [' '] := by
      simp [renderLeading]
    rw [htext, List.append_assoc] at hrest
    obtain ⟨ch, cs, hcs, hch⟩ := second.head_render hsecond
    have hskip : HeadNot Text.isBlank (second.render.toList ++ ':' :: ':' :: rest) := by
      rw [hcs]
      exact headNot_cons (isBlank_of_startsName hch)
    have hother : (second.render.toList ++ ':' :: ':' :: rest).head? ≠ some ':' := by
      rw [hcs]
      intro hhead
      cases hhead
      revert hch
      decide
    rw [type_render (hfirst t rfl) hrest (headNot_cons (by decide))]
    dsimp only [bind, Except.bind]
    rw [skipBlanks_append rfl (List.forall_mem_singleton.2 rfl) hskip, eat?_of_head hother]
    dsimp only
    rw [type_render hsecond rfl hend]
    dsimp only
    rw [skipBlanks_of_headNot hcolon, eat?_append rfl]
    show Except.ok ((some t, second), (((c.after _ _).after [' '] _).after _ _).after _ rest) = _
    rw [after_after, after_after, after_after, htext]
    simp

/-- The generic arguments of a method are read. -/
theorem Cursor.genericArgs_render {c : Cursor} {args : List TypeName} {rest : List Char}
    (h : TypeName.AllWellFormed args)
    (hrest : c.rest = (TypeName.renderArgs args).toList ++ '(' :: rest) :
    c.genericArgs = .ok (args, c.after (TypeName.renderArgs args).toList ('(' :: rest)) := by
  unfold Cursor.genericArgs
  cases args with
  | nil =>
    have hother : c.rest.head? ≠ some '<' := by
      rw [hrest]
      simp [TypeName.renderArgs]
    rw [eat?_of_head hother]
    have hrest' : '(' :: rest = c.rest := hrest.symm
    rw [hrest']
    rfl
  | cons t ts =>
    have htext : (TypeName.renderArgs (t :: ts)).toList =
        ['<'] ++ ((TypeName.renderList (t :: ts)).toList ++ ['>']) := by
      simp [TypeName.renderArgs]
    rw [htext, List.append_assoc, List.append_assoc] at hrest
    rw [eat?_append hrest]
    dsimp only
    rw [types_render h rfl rfl, after_after, htext]
    rfl

/-- **The text of a well-formed method reference is read as the reference.** -/
theorem MethodRef.parse_render {m : MethodRef} (h : m.WellFormed) :
    MethodRef.parse m.render = .ok m := by
  obtain ⟨returnType, declaringType, name, genericArgs, parameters⟩ := m
  obtain ⟨hreturn, hdeclaring, hname, hopens, hgeneric, hparameters⟩ := h
  have htext :
      (MethodRef.render ⟨returnType, declaringType, name, genericArgs, parameters⟩).toList =
      (renderLeading returnType).toList ++ (declaringType.render.toList ++ ':' :: ':' ::
        (name.toList ++ ((TypeName.renderArgs genericArgs).toList ++ '(' ::
          ((TypeName.renderList parameters).toList ++ ')' :: [])))) := by
    simp [MethodRef.render, Signature.render]
  -- The name ends at the generic arguments if there are any, else at the parameters.
  have htaken : ∀ rest, takeName 0 true
      (name.toList ++ ((TypeName.renderArgs genericArgs).toList ++ '(' :: rest)) =
        some (name.toList, (TypeName.renderArgs genericArgs).toList ++ '(' :: rest) := by
    intro rest
    cases genericArgs with
    | nil => exact hname.taken _ (headNot_cons (by decide))
    | cons t ts =>
      have hargs : (TypeName.renderArgs (t :: ts)).toList =
          '<' :: ((TypeName.renderList (t :: ts)).toList ++ ['>']) := by
        simp [TypeName.renderArgs]
      rw [hargs]
      exact hopens (List.cons_ne_nil t ts) _
  have hscan : MethodRef.scan (MethodRef.render ⟨returnType, declaringType, name, genericArgs,
      parameters⟩) = .ok ⟨returnType, declaringType, name, genericArgs, parameters⟩ := by
    unfold MethodRef.scan
    rw [Cursor.leadingTypes_render hreturn hdeclaring htext]
    dsimp only [bind, Except.bind, Except.mapError]
    rw [Cursor.name_eq hname rfl (htaken _)]
    dsimp only
    rw [Cursor.genericArgs_render hgeneric rfl]
    dsimp only
    rw [Cursor.skipBlanks_of_headNot (headNot_cons (by decide)), Cursor.eat?_append rfl]
    dsimp only
    rw [Cursor.types_render hparameters rfl rfl]
    dsimp only
    rw [Cursor.finish_nil rfl]
    rfl
  unfold MethodRef.parse
  rw [hscan]
  rfl

/-- The text of a well-formed signature is read as a reference without a type in front. -/
theorem MethodRef.parse_render_signature {s : Signature} (h : s.WellFormed) :
    MethodRef.parse s.render = .ok ⟨none, s⟩ := by
  have hparse := MethodRef.parse_render (m := ⟨none, s⟩) ⟨nofun, h⟩
  have htext : MethodRef.render ⟨none, s⟩ = s.render := by
    simp [MethodRef.render, renderLeading]
  rwa [htext] at hparse

/-- **The text of a well-formed signature is read as the signature.** -/
theorem Signature.parse_render {s : Signature} (h : s.WellFormed) :
    Signature.parse s.render = .ok s := by
  unfold Signature.parse
  rw [MethodRef.parse_render_signature h]
  rfl

/-- Different well-formed signatures have different texts. -/
theorem Signature.render_inj {s s' : Signature} (h : s.WellFormed) (h' : s'.WellFormed)
    (htext : s.render = s'.render) : s = s' := by
  have hparse := parse_render h
  rw [htext, parse_render h'] at hparse
  exact (Except.ok.inj hparse).symm

/-- **The text of a well-formed field reference is read as the reference.** -/
theorem FieldRef.parse_render {f : FieldRef} (h : f.WellFormed) :
    FieldRef.parse f.render = .ok f := by
  obtain ⟨fieldType, declaringType, name⟩ := f
  obtain ⟨hfield, hdeclaring, hname⟩ := h
  have htext : (FieldRef.render ⟨fieldType, declaringType, name⟩).toList =
      (renderLeading fieldType).toList ++ (declaringType.render.toList ++ ':' :: ':' ::
        (name.toList ++ [])) := by
    simp [FieldRef.render, FieldRef.key]
  have hscan : FieldRef.scan (FieldRef.render ⟨fieldType, declaringType, name⟩) =
      .ok ⟨fieldType, declaringType, name⟩ := by
    unfold FieldRef.scan
    rw [Cursor.leadingTypes_render hfield hdeclaring htext, ok_bind]
    dsimp only
    rw [Cursor.name_eq hname rfl (hname.taken [] (headNot_nil _)), ok_bind]
    dsimp only
    rw [Cursor.finish_nil rfl]
    rfl
  unfold FieldRef.parse
  rw [hscan]
  rfl

/-- The key of a well-formed field reference is read as the reference without its type. -/
theorem FieldRef.parse_key {f : FieldRef} (h : f.WellFormed) :
    FieldRef.parse f.key = .ok ⟨none, f.declaringType, f.name⟩ := by
  have hparse := FieldRef.parse_render (f := ⟨none, f.declaringType, f.name⟩)
    ⟨nofun, h.declaringType, h.name⟩
  have htext : FieldRef.render ⟨none, f.declaringType, f.name⟩ = f.key := by
    simp [FieldRef.render, FieldRef.key, renderLeading]
  rwa [htext] at hparse

/-- Well-formed field references with one key have one declaring type and one name. -/
theorem FieldRef.key_inj {f f' : FieldRef} (h : f.WellFormed) (h' : f'.WellFormed)
    (hkey : f.key = f'.key) : f.declaringType = f'.declaringType ∧ f.name = f'.name := by
  have hparse := parse_key h
  rw [hkey, parse_key h'] at hparse
  simp only [Except.ok.injEq, FieldRef.mk.injEq, true_and] at hparse
  exact ⟨hparse.1.symm, hparse.2.symm⟩

end Hotswap
