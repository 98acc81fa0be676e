import Hotswap.Proofs.Symbols.Types
import Mathlib

/-!
# How many arguments a generic type takes

The name of a nested type has a segment for each type that it is nested in and one of its own, with
`/` between them. A segment that ends in a backquote and digits declares that many generic
parameters, and a nested type has those of all its segments (`TypeName.fullArity`).

A lookup counts those of the last segment alone: what stands after the last backquote of a name is a
number only if it has no `/` (`TypeName.declaredArity_innermost`). So an instantiation is found as
its name declares exactly if no segment before the last one declares parameters, or the arguments
are as many as neither count says (`instantiationOn`). A type that is nested in a generic one is
found with too few arguments, and not with all of them (`instantiationOn_nested`).
-/

namespace Hotswap

/-! ## Segments -/

/-- What is a member has a last place. -/
theorem exists_append_cons_of_mem {α : Type} {a : α} {as : List α} (h : a ∈ as) :
    ∃ before after, as = before ++ a :: after ∧ a ∉ after := by
  obtain ⟨after, before, heq, hafter⟩ := List.eq_append_cons_of_mem (List.mem_reverse.2 h)
  refine ⟨before.reverse, after.reverse, ?_, fun hmem => hafter (List.mem_reverse.1 hmem)⟩
  rw [← List.reverse_reverse as, heq, List.reverse_append, List.reverse_cons, List.append_assoc]
  rfl

namespace TypeName

/-- The segments of a name: those of the types that the type is nested in, and its own. -/
def segments (name : String) : List (List Char) := name.toList.splitOn '/'

/-- The last segment. -/
def innermost (name : String) : List Char := (segments name).getLastD []

/-- What stands after the last backquote. -/
def afterBackquote (cs : List Char) : List Char := (cs.reverse.takeWhile (· != '\x60')).reverse

/-- The number of generic parameters that a segment declares: the number after its last backquote,
if there are digits and nothing else. -/
def segmentArity (cs : List Char) : Nat :=
  if '\x60' ∈ cs ∧ afterBackquote cs ≠ [] ∧ (afterBackquote cs).all Char.isDigit = true then
    Decimal.natOfDigits (afterBackquote cs)
  else 0

/-- The number of generic parameters that all segments of a name declare. -/
def fullArity (name : String) : Nat := ((segments name).map segmentArity).sum

/-- The number of those that the segments before the last one declare. -/
def enclosingArity (name : String) : Nat := ((segments name).dropLast.map segmentArity).sum

/-- A name has the parameters of the types around it and its own. -/
theorem fullArity_eq (name : String) :
    fullArity name = enclosingArity name + segmentArity (innermost name) := by
  have hne : segments name ≠ [] := List.splitOnP_ne_nil _ _
  have hlast : innermost name = (segments name).getLast hne := by
    unfold innermost
    rw [List.getLastD_eq_getLast?, List.getLast?_eq_some_getLast hne, Option.getD_some]
  calc fullArity name
      = (((segments name).dropLast ++ [(segments name).getLast hne]).map segmentArity).sum := by
        rw [List.dropLast_concat_getLast]
        rfl
    _ = enclosingArity name + segmentArity (innermost name) := by
        rw [List.map_append, List.sum_append, hlast, List.map_singleton, List.sum_singleton]
        rfl

/-- A text without the separator is not split. -/
theorem splitOn_of_not_mem {c : Char} {cs : List Char} (h : c ∉ cs) : cs.splitOn c = [cs] := by
  refine List.splitOnP_eq_singleton fun d hd => beq_eq_false_iff_ne.2 ?_
  rintro rfl
  exact h hd

/-- A name is its last segment, or ends in a slash and its last segment. -/
theorem toList_eq_innermost (name : String) :
    '/' ∉ innermost name ∧
      (name.toList = innermost name ∨ ∃ before, name.toList = before ++ '/' :: innermost name) := by
  unfold innermost segments
  by_cases h : '/' ∈ name.toList
  · obtain ⟨before, after, heq, hafter⟩ := exists_append_cons_of_mem h
    have hlast : name.toList.splitOn '/' = before.splitOn '/' ++ [after] := by
      rw [heq, ← splitOn_of_not_mem hafter]
      exact List.splitOnP_append_cons before after (beq_self_eq_true '/')
    rw [hlast, List.getLastD_concat]
    exact ⟨hafter, .inr ⟨before, heq⟩⟩
  · rw [splitOn_of_not_mem h]
    exact ⟨h, .inl rfl⟩

/-! ## The number that is read -/

/-- The last number in a name stands after its last backquote. -/
theorem afterBackquote_append (before : List Char) {after : List Char} (h : '\x60' ∉ after) :
    afterBackquote (before ++ '\x60' :: after) = after := by
  have hrun : ∀ c ∈ after.reverse, (c != '\x60') = true := by
    intro c hc
    rw [bne_iff_ne]
    rintro rfl
    exact h (List.mem_reverse.1 hc)
  unfold afterBackquote
  rw [List.reverse_append, List.reverse_cons, List.append_assoc, List.singleton_append,
    takeWhile_append_of_headNot hrun (headNot_cons (by decide)), List.reverse_reverse]

/-- The number of generic parameters that is read off a text: what stands after its last backquote,
if that is a number. -/
theorem declaredArity_ofList (cs : List Char) :
    declaredArity (String.ofList cs) =
      if '\x60' ∈ cs then (declaredCount? (afterBackquote cs)).getD 0 else 0 := by
  unfold declaredArity afterBackquote
  simp only [String.toList_ofList, List.contains_iff_mem]

/-- A text with a slash is no number. -/
theorem declaredCount?_of_slash {cs : List Char} (h : '/' ∈ cs) : declaredCount? cs = none := by
  have hnumber (ds : List Char) (hds : '/' ∈ ds) : ds.all Char.isDigit = false :=
    List.all_eq_false.2 ⟨'/', hds, by decide⟩
  unfold declaredCount?
  split
  · rename_i rest
    have hrest : '/' ∈ rest := (List.mem_cons.1 h).resolve_left (by decide)
    simp [hnumber rest hrest]
  · simp [hnumber cs h]

/-- What stands before a slash does not count. -/
theorem declaredArity_append (before last : List Char) :
    declaredArity (String.ofList (before ++ '/' :: last)) = declaredArity (String.ofList last) := by
  rw [declaredArity_ofList, declaredArity_ofList]
  by_cases hlast : '\x60' ∈ last
  · have hwhole : '\x60' ∈ before ++ '/' :: last :=
      List.mem_append_right _ (List.mem_cons_of_mem _ hlast)
    rw [if_pos hwhole, if_pos hlast]
    obtain ⟨a, b, rfl, hb⟩ := exists_append_cons_of_mem hlast
    rw [afterBackquote_append a hb, ← List.cons_append, ← List.append_assoc,
      afterBackquote_append _ hb]
  · rw [if_neg hlast]
    by_cases hwhole : '\x60' ∈ before ++ '/' :: last
    · -- What stands after the last backquote goes on past the slash.
      have hbefore : '\x60' ∈ before := by
        rcases List.mem_append.1 hwhole with hbefore | hrest
        · exact hbefore
        · exact absurd ((List.mem_cons.1 hrest).resolve_left (by decide)) hlast
      obtain ⟨a, b, rfl, hb⟩ := exists_append_cons_of_mem hbefore
      have hafter : '\x60' ∉ b ++ '/' :: last := by
        intro hmem
        rcases List.mem_append.1 hmem with hmem | hmem
        · exact hb hmem
        · exact hlast ((List.mem_cons.1 hmem).resolve_left (by decide))
      rw [if_pos hwhole, List.append_assoc, List.cons_append, afterBackquote_append a hafter,
        declaredCount?_of_slash (List.mem_append_right _ List.mem_cons_self)]
      rfl
    · exact if_neg hwhole

/-- **Only the last segment counts.** -/
theorem declaredArity_innermost (name : String) :
    declaredArity name = declaredArity (String.ofList (innermost name)) := by
  obtain ⟨-, hwhole | ⟨before, hwhole⟩⟩ := toList_eq_innermost name
  · rw [← hwhole, String.ofList_toList]
  · rw [← declaredArity_append before, ← hwhole, String.ofList_toList]

/-- A number that is not zero and fits in 64 bits is read exactly if it stands there as digits,
with no sign in front of them. -/
theorem eq_declaredArity_iff {cs : List Char} {n : Nat}
    (hsign : (afterBackquote cs).head? ≠ some '+') (hn : n ≠ 0) (hlt : n < UInt64.size) :
    n = declaredArity (String.ofList cs) ↔ n = segmentArity cs := by
  have hcount : declaredCount? (afterBackquote cs) =
      if (afterBackquote cs).isEmpty || !(afterBackquote cs).all Char.isDigit then none
      else if Decimal.natOfDigits (afterBackquote cs) < UInt64.size then
        some (Decimal.natOfDigits (afterBackquote cs)) else none := by
    unfold declaredCount?
    split
    · rename_i rest heq
      rw [heq] at hsign
      exact absurd rfl hsign
    · rfl
  rw [declaredArity_ofList, hcount]
  unfold segmentArity
  generalize afterBackquote cs = digits
  by_cases hquote : '\x60' ∈ cs
  · rw [if_pos hquote]
    by_cases hdigits : digits ≠ [] ∧ digits.all Char.isDigit = true
    · have hread : (digits.isEmpty || !digits.all Char.isDigit) = false := by
        simpa using hdigits
      have hdeclares := And.intro hquote hdigits
      rw [if_neg (ne_true_of_eq_false hread), if_pos hdeclares]
      by_cases hfits : Decimal.natOfDigits digits < UInt64.size
      · rw [if_pos hfits]
        rfl
      · rw [if_neg hfits]
        exact iff_of_false hn fun heq => hfits (heq ▸ hlt)
    · have hread : (digits.isEmpty || !digits.all Char.isDigit) = true := by
        by_contra hfalse
        exact hdigits (by simpa using hfalse)
      have hnone : ¬('\x60' ∈ cs ∧ digits ≠ [] ∧ digits.all Char.isDigit = true) :=
        fun h => hdigits h.2
      rw [if_pos hread, if_neg hnone]
      rfl
  · have hnone : ¬('\x60' ∈ cs ∧ digits ≠ [] ∧ digits.all Char.isDigit = true) :=
      fun h => hquote h.1
    rw [if_neg hquote, if_neg hnone]

end TypeName

/-! ## Looking an instantiation up -/

namespace SymbolTable

variable {symbols : SymbolTable} {memo : Memo} {name : String} {args : List TypeName}

/-- A type is found by a lookup. -/
def Finds (symbols : SymbolTable) (memo : Memo) (t : TypeName) : Prop :=
  ∃ handle, (symbols.resolveType t memo).1 = .ok handle

/-- The registration is found of a name that is registered and declares as many parameters as there
are arguments. -/
theorem exists_definitionOf_iff (hargs : args ≠ []) :
    (∃ d, symbols.definitionOf name args = .ok d) ↔
      (symbols.findType? name).isSome = true ∧ args.length = TypeName.declaredArity name := by
  unfold definitionOf
  dsimp only
  cases symbols.findType? name with
  | none => exact iff_of_false (by rintro ⟨_, ⟨⟩⟩) (by rintro ⟨⟨⟩, -⟩)
  | some d =>
    have hcount : (args.isEmpty = true ∨ (TypeName.named name args).arity = args.length) ↔
        args.length = TypeName.declaredArity name := by
      rw [List.isEmpty_iff, or_iff_right hargs]
      exact eq_comm
    by_cases hlength : args.length = TypeName.declaredArity name
    · dsimp only
      rw [if_pos (hcount.2 hlength)]
      exact iff_of_true ⟨d, rfl⟩ ⟨rfl, hlength⟩
    · dsimp only
      rw [if_neg fun h => hlength (hcount.1 h)]
      exact iff_of_false (by rintro ⟨_, ⟨⟩⟩) fun h => hlength h.2

/-- A name is searched for by its definition and then its arguments. -/
theorem searchType_named (name : String) (args : List TypeName) (memo : Memo) :
    symbols.searchType (.named name args) memo = match symbols.definitionOf name args with
      | .error e => (.error e, memo)
      | .ok d => match symbols.resolveTypes args memo with
        | (.ok _, memo') => (.ok ⟨.named name args, some d⟩, memo')
        | (.error e, memo') => (.error e, memo') := by
  show ((liftM (symbols.definitionOf name args) : Resolve TypeDefinition) >>= fun d =>
    symbols.resolveTypes args >>= fun _ => pure ⟨.named name args, some d⟩ :
      Resolve TypeHandle) memo = _
  rw [Resolve.bind_apply]
  cases symbols.definitionOf name args with
  | error e => rfl
  | ok d =>
    show (symbols.resolveTypes args >>= fun _ => pure ⟨.named name args, some d⟩ :
      Resolve TypeHandle) memo = _
    rw [Resolve.bind_apply]
    rcases symbols.resolveTypes args memo with ⟨e | ⟨⟩, memo'⟩ <;> rfl

/-- An instantiation that is not remembered is found if it is registered, declares as many
parameters as there are arguments, and the arguments are found one after the other. -/
theorem finds_named_of_new (hargs : args ≠ [])
    (hclosed : (TypeName.named name args).hasPlaceholders = false)
    (hnew : memo.types.get? (TypeName.named name args).render = none) :
    symbols.Finds memo (.named name args) ↔
      (symbols.findType? name).isSome = true ∧ (symbols.resolveTypes args memo).1 = .ok () ∧
        args.length = TypeName.declaredArity name := by
  have hsearch : symbols.Finds memo (.named name args) ↔
      ∃ handle, (symbols.searchType (.named name args) memo).1 = .ok handle := by
    unfold Finds
    rw [resolveType_eq, remembered_apply, hclosed, hnew, if_neg Bool.false_ne_true]
    rcases symbols.searchType (.named name args) memo with ⟨e | handle, memo'⟩ <;> rfl
  rw [hsearch, searchType_named, and_left_comm, ← exists_definitionOf_iff hargs]
  cases symbols.definitionOf name args with
  | error e => exact iff_of_false (by rintro ⟨_, ⟨⟩⟩) (by rintro ⟨_, _, ⟨⟩⟩)
  | ok d =>
    dsimp only
    rcases symbols.resolveTypes args memo with ⟨e | ⟨⟩, memo'⟩
    · exact iff_of_false (by rintro ⟨_, ⟨⟩⟩) (by rintro ⟨⟨⟩, -⟩)
    · exact iff_of_true ⟨_, rfl⟩ ⟨rfl, d, rfl⟩

/-- Types have handles if each of them has one. -/
theorem handlesOf_eq_ok_iff {ts : List TypeName} :
    symbols.handlesOf ts = .ok () ↔ ∀ t ∈ ts, ∃ handle, symbols.handleOf t = .ok handle := by
  induction ts with
  | nil => exact iff_of_true rfl nofun
  | cons t rest ih =>
    rw [handlesOf, bind_eq_ok, List.forall_mem_cons, ← ih]
    exact exists_and_right

/-- What a sound memo holds makes no difference to what is found. -/
theorem finds_iff_handleOf {t : TypeName} (hmemo : memo.Sound symbols) (ht : t.WellFormed) :
    symbols.Finds memo t ↔ ∃ handle, symbols.handleOf t = .ok handle := by
  unfold Finds
  rw [(symbols.answers_resolveType t ht memo hmemo).1]

/-- An instantiation that can be read is found if it is registered, declares as many parameters as
there are arguments, and each of the arguments is found. -/
theorem finds_named_iff (hargs : args ≠ [])
    (hclosed : (TypeName.named name args).hasPlaceholders = false)
    (hwf : (TypeName.named name args).WellFormed) (hmemo : memo.Sound symbols) :
    symbols.Finds memo (.named name args) ↔
      (symbols.findType? name).isSome = true ∧ (∀ t ∈ args, symbols.Finds memo t) ∧
        args.length = TypeName.declaredArity name := by
  have hfound : (∀ t ∈ args, symbols.Finds memo t) ↔ symbols.handlesOf args = .ok () := by
    rw [handlesOf_eq_ok_iff]
    exact forall₂_congr fun t ht =>
      finds_iff_handleOf hmemo (TypeName.allWellFormed_iff.1 hwf.2.2.2 t ht)
  rw [finds_iff_handleOf hmemo hwf, hfound, and_left_comm, ← exists_definitionOf_iff hargs,
    handleOf, TypeName.ifClosed, hclosed, if_neg Bool.false_ne_true]
  constructor
  · rintro ⟨handle, hhandle⟩
    obtain ⟨d, hd, hhandle⟩ := bind_eq_ok.1 hhandle
    obtain ⟨_, hall, -⟩ := bind_eq_ok.1 hhandle
    exact ⟨hall, d, hd⟩
  · rintro ⟨hall, d, hd⟩
    rw [hd, ok_bind, hall]
    exact ⟨_, rfl⟩

end SymbolTable

/-- Which instantiations of a name a lookup finds. -/
structure InstantiationOn (symbols : SymbolTable) (memo : Memo) (name : String)
    (args : List TypeName) : Prop where
  /-- One that is not remembered is found if it is registered, its arguments are found one after the
  other, and they are as many as the last segment declares. -/
  finds_iff_of_new (hnew : memo.types.get? (TypeName.named name args).render = none) :
    symbols.Finds memo (.named name args) ↔
      (symbols.findType? name).isSome = true ∧ (symbols.resolveTypes args memo).1 = .ok () ∧
        args.length = TypeName.declaredArity (String.ofList (TypeName.innermost name))
  /-- One that can be read is found if it is registered, each argument is found, and they are as
  many as the last segment declares. -/
  finds_iff (hwf : (TypeName.named name args).WellFormed) (hmemo : memo.Sound symbols) :
    symbols.Finds memo (.named name args) ↔
      (symbols.findType? name).isSome = true ∧ (∀ t ∈ args, symbols.Finds memo t) ∧
        args.length = TypeName.declaredArity (String.ofList (TypeName.innermost name))
  /-- It is found as all segments of its name declare exactly if no segment before the last one
  declares parameters, or the arguments are as many as neither count says. The number in the last
  segment has no sign, and there are fewer arguments than 64 bits can count. -/
  agrees_iff (hwf : (TypeName.named name args).WellFormed) (hmemo : memo.Sound symbols)
      (hsign : (TypeName.afterBackquote (TypeName.innermost name)).head? ≠ some '+')
      (hlength : args.length < UInt64.size) (hregistered : (symbols.findType? name).isSome = true)
      (hfound : ∀ t ∈ args, symbols.Finds memo t) :
    (symbols.Finds memo (.named name args) ↔ args.length = TypeName.fullArity name) ↔
      TypeName.enclosingArity name = 0 ∨
        args.length ≠ TypeName.segmentArity (TypeName.innermost name) ∧
          args.length ≠ TypeName.fullArity name

/-- **Instantiations of a closed generic type** are found with as many arguments as the last segment
of the name declares, whatever the segments before it declare. -/
theorem instantiationOn {symbols : SymbolTable} {memo : Memo} {name : String}
    {args : List TypeName} (hargs : args ≠ [])
    (hclosed : (TypeName.named name args).hasPlaceholders = false) :
    InstantiationOn symbols memo name args := by
  constructor
  case finds_iff_of_new =>
    intro hnew
    rw [← TypeName.declaredArity_innermost]
    exact SymbolTable.finds_named_of_new hargs hclosed hnew
  case finds_iff =>
    intro hwf hmemo
    rw [← TypeName.declaredArity_innermost]
    exact SymbolTable.finds_named_iff hargs hclosed hwf hmemo
  case agrees_iff =>
    intro hwf hmemo hsign hlength hregistered hfound
    have hcount : symbols.Finds memo (.named name args) ↔
        args.length = TypeName.segmentArity (TypeName.innermost name) := by
      rw [SymbolTable.finds_named_iff hargs hclosed hwf hmemo, and_iff_right hregistered,
        and_iff_right hfound, TypeName.declaredArity_innermost]
      exact TypeName.eq_declaredArity_iff hsign (by simpa using hargs) hlength
    rw [hcount, TypeName.fullArity_eq]
    omega

/-- A host with types that are nested in generic ones, one of them generic too. -/
def nestedHost : SymbolTable where
  modules := [{
    name := "Game"
    types := .ofList [("Game.Box`1/<>c", { name := "Game.Box`1/<>c", kind := .classType }),
      ("Game.Outer`1/Inner`2", { name := "Game.Outer`1/Inner`2", kind := .classType }),
      ("System.Int32", { name := "System.Int32", kind := .valueType })] }]

/-- The type in the box is not found with the argument of the box, and the inner type is found
without an argument of the outer one. -/
theorem instantiationOn_nested :
    TypeName.fullArity "Game.Box`1/<>c" = 1 ∧
      ¬nestedHost.Finds {} (.named "Game.Box`1/<>c" [.plain "System.Int32"]) ∧
    TypeName.fullArity "Game.Outer`1/Inner`2" = 3 ∧
      nestedHost.Finds {} (.named "Game.Outer`1/Inner`2"
        [.plain "System.Int32", .plain "System.Int32"]) := by
  have hbox : InstantiationOn nestedHost {} "Game.Box`1/<>c" [.plain "System.Int32"] :=
    instantiationOn (List.cons_ne_nil _ _) (by decide +kernel)
  have hinner : InstantiationOn nestedHost {} "Game.Outer`1/Inner`2"
      [.plain "System.Int32", .plain "System.Int32"] :=
    instantiationOn (List.cons_ne_nil _ _) (by decide +kernel)
  have hboxOne : TypeName.fullArity "Game.Box`1/<>c" = 1 := by decide +kernel
  refine ⟨hboxOne, fun hfinds => ?_, by decide +kernel, ?_⟩
  · have hlength := ((hbox.finds_iff_of_new rfl).1 hfinds).2.2
    rw [← TypeName.declaredArity_innermost] at hlength
    revert hlength
    decide +kernel
  · rw [hinner.finds_iff_of_new rfl, ← TypeName.declaredArity_innermost]
    decide +kernel

end Hotswap
