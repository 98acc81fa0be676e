import Hotswap.Proofs.Signature.Identity
import Hotswap.Proofs.Table
import Hotswap.Proofs.TypeName.Substitution
import Hotswap.Symbols.Resolver
import Mathlib

/-!
# What lookups of types remember

A closed type that is found is remembered under its text, and so is every type inside it. Two things
are known of what lookups leave behind.

* Lookups forget nothing (`Resolve.Remembers`): what is remembered under a text stays what it is.
  So a type that was found is found again, as the same handle, and finding it again changes nothing
  (`resolveType_of_get?`). This holds whatever is remembered to begin with.
* Lookups of types that can be read keep to what the host has registered. `SymbolTable.handleOf` is
  the outcome of a lookup said without a memo, and `Memo.Sound` says that everything that is
  remembered is such an outcome, under its own text. From a sound memo a lookup of a type that can
  be read has that outcome and leaves a sound memo (`answers_resolveType`). The reason is that no
  two such types have one text. For the same reason what such lookups add to any memo, sound or not,
  is without effect on later ones (`answersFrom_resolveType`).
-/

namespace Hotswap

variable {α β : Type}

/-! ## Computations that look up -/

/-- What goes on after a lookup starts with what that has remembered. -/
theorem Resolve.bind_apply (x : Resolve α) (k : α → Resolve β) (memo : Memo) :
    (x >>= k) memo = match x memo with
      | (.ok a, memo') => k a memo'
      | (.error e, memo') => (.error e, memo') := by
  show (ExceptT.bind x k) memo = _
  simp only [ExceptT.bind, ExceptT.mk, Bind.bind, StateT.bind]
  rcases x memo with ⟨e | a, memo'⟩ <;> rfl

/-- A lookup without its result remembers the same. -/
theorem Resolve.discard_apply (x : Resolve α) (memo : Memo) :
    (discard x : Resolve Unit) memo = match x memo with
      | (.ok _, memo') => (.ok (), memo')
      | (.error e, memo') => (.error e, memo') := by
  show (x >>= fun _ => Pure.pure ()) memo = _
  rw [bind_apply]
  rcases x memo with ⟨e | a, memo'⟩ <;> rfl

/-- An error that is caught is handled with what was remembered until then. -/
theorem Resolve.tryCatch_apply (x : Resolve α) (handle : Error → Resolve α) (memo : Memo) :
    (tryCatch x handle) memo = match x memo with
      | (.ok a, memo') => (.ok a, memo')
      | (.error e, memo') => handle e memo' := by
  simp only [MonadExcept.tryCatch, tryCatchThe, MonadExceptOf.tryCatch, ExceptT.tryCatch,
    ExceptT.mk, Bind.bind, StateT.bind]
  rcases x memo with ⟨e | a, memo'⟩ <;> rfl

namespace SymbolTable

/-- What is remembered is given as it is, and anything else is searched for and remembered if it is
found. -/
theorem remembered_apply (t : TypeName) (search : Resolve TypeHandle) (memo : Memo) :
    remembered t search memo =
      if t.hasPlaceholders then
        (.error (.resolution (t.render ++ ": unbound generic parameter")), memo)
      else match memo.types.get? t.render with
        | some handle => (.ok handle, memo)
        | none => match search memo with
          | (.ok handle, memo') =>
            (.ok handle, { memo' with types := memo'.types.insert t.render handle })
          | (.error e, memo') => (.error e, memo') := by
  unfold remembered
  split
  · rfl
  · show (match memo.types.get? t.render with
      | some handle => pure handle
      | none => do
        let handle ← search
        modify fun memo => { memo with types := memo.types.insert t.render handle }
        return handle : Resolve TypeHandle) memo = _
    cases memo.types.get? t.render with
    | some handle => rfl
    | none =>
      dsimp only
      rw [Resolve.bind_apply]
      rcases search memo with ⟨e | handle, memo'⟩ <;> rfl

/-- The search for a closed type that is not remembered. -/
def searchType (symbols : SymbolTable) : TypeName → Resolve TypeHandle
  | .named name args => do
    let d ← symbols.definitionOf name args
    symbols.resolveTypes args
    return ⟨.named name args, some d⟩
  | .suffixed element suffix => do
    discard (symbols.resolveType element)
    return ⟨.suffixed element suffix, none⟩
  | t => throw (.resolution t.render)

/-- A type is resolved by searching for it, unless it is remembered. -/
theorem resolveType_eq (symbols : SymbolTable) (t : TypeName) :
    symbols.resolveType t = remembered t (symbols.searchType t) := by
  unfold resolveType
  cases t <;> rfl

end SymbolTable

/-! ## Nothing is forgotten -/

/-- What is remembered in one memo is remembered in another. -/
def Memo.Extends (memo memo' : Memo) : Prop :=
  ∀ text handle, memo.types.get? text = some handle → memo'.types.get? text = some handle

/-- What is remembered extends itself. -/
theorem Memo.Extends.refl (memo : Memo) : memo.Extends memo := fun _ _ h => h

/-- What extends an extension is one. -/
theorem Memo.Extends.trans {memo memo' memo'' : Memo} (h : memo.Extends memo')
    (h' : memo'.Extends memo'') : memo.Extends memo'' :=
  fun text handle hfound => h' text handle (h text handle hfound)

/-- A lookup that forgets no type. -/
def Resolve.Remembers (x : Resolve α) : Prop := ∀ memo : Memo, memo.Extends (x memo).2

namespace Resolve.Remembers

variable {x : Resolve α}

/-- A lookup that gives what it has forgets nothing. -/
theorem pure (a : α) : Resolve.Remembers (Pure.pure a : Resolve α) :=
  fun memo => Memo.Extends.refl memo

/-- Nor does one that fails. -/
theorem throw (e : Error) : Resolve.Remembers (MonadExcept.throw e : Resolve α) :=
  fun memo => Memo.Extends.refl memo

/-- Nor do two one after another. -/
theorem bind {k : α → Resolve β} (hx : Resolve.Remembers x)
    (hk : ∀ a, Resolve.Remembers (k a)) : Resolve.Remembers (x >>= k) := by
  intro memo
  have hfirst := hx memo
  rw [bind_apply]
  rcases hxm : x memo with ⟨e | a, memo'⟩ <;> rw [hxm] at hfirst
  · exact hfirst
  · exact hfirst.trans (hk a memo')

/-- Nor does one whose result is not looked at. -/
theorem discard (hx : Resolve.Remembers x) : Resolve.Remembers (discard x) := by
  show Resolve.Remembers (x >>= fun _ => Pure.pure ())
  exact hx.bind fun _ => pure ()

/-- Nor does a result that is there already. -/
theorem ofExcept (r : Except Error α) : Resolve.Remembers (liftM r : Resolve α) := by
  cases r with
  | ok a => exact pure a
  | error e => exact throw e

/-- Nor does a lookup with another one where it fails. -/
theorem tryCatch {handle : Error → Resolve α} (hx : Resolve.Remembers x)
    (hh : ∀ e, Resolve.Remembers (handle e)) :
    Resolve.Remembers (MonadExcept.tryCatch x handle) := by
  intro memo
  have hfirst := hx memo
  rw [tryCatch_apply]
  rcases hxm : x memo with ⟨e | a, memo'⟩ <;> rw [hxm] at hfirst
  · exact hfirst.trans (hh e memo')
  · exact hfirst

/-- Nor does a search that is remembered. -/
theorem remembered {t : TypeName} {search : Resolve TypeHandle}
    (h : Resolve.Remembers search) :
    Resolve.Remembers (SymbolTable.remembered t search) := by
  intro memo
  rw [SymbolTable.remembered_apply]
  split
  · exact .refl memo
  · split
    · exact .refl memo
    · rename_i hnone
      have hsearch := h memo
      rcases hfound : search memo with ⟨e | handle, memo'⟩ <;> rw [hfound] at hsearch
      · exact hsearch
      · -- What was remembered before has another text than the one that is remembered now.
        intro text old hold
        have hne : text ≠ t.render := by
          rintro rfl
          rw [hnone] at hold
          cases hold
        exact (Table.get?_insert_of_ne _ _ hne).trans (hsearch text old hold)

end Resolve.Remembers

namespace SymbolTable

mutual

/-- **Resolving a type forgets nothing.** -/
theorem remembers_resolveType (symbols : SymbolTable) :
    (t : TypeName) → Resolve.Remembers (symbols.resolveType t)
  | .named name args => by
    unfold resolveType
    exact .remembered ((Resolve.Remembers.ofExcept _).bind fun _ =>
      (remembers_resolveTypes symbols args).bind fun _ => .pure _)
  | .suffixed element suffix => by
    unfold resolveType
    exact .remembered ((remembers_resolveType symbols element).discard.bind fun _ => .pure _)
  | .typeParam _ => by
    unfold resolveType
    exact .remembered (.throw _)
  | .methodParam _ => by
    unfold resolveType
    exact .remembered (.throw _)

/-- Nor does resolving several. -/
theorem remembers_resolveTypes (symbols : SymbolTable) :
    (ts : List TypeName) → Resolve.Remembers (symbols.resolveTypes ts)
  | [] => by
    unfold resolveTypes
    exact .pure ()
  | t :: rest => by
    unfold resolveTypes
    exact (remembers_resolveType symbols t).discard.bind fun _ =>
      remembers_resolveTypes symbols rest

end

/-- A type that is remembered is given as it is. -/
theorem resolveType_of_get? (symbols : SymbolTable) {t : TypeName} {memo : Memo}
    {handle : TypeHandle} (ht : t.hasPlaceholders = false)
    (h : memo.types.get? t.render = some handle) :
    symbols.resolveType t memo = (.ok handle, memo) := by
  rw [resolveType_eq, remembered_apply, ht, h]
  rfl

/-- A type that was found is remembered. -/
theorem get?_of_resolveType {symbols : SymbolTable} {t : TypeName} {memo memo' : Memo}
    {handle : TypeHandle} (h : symbols.resolveType t memo = (.ok handle, memo')) :
    t.hasPlaceholders = false ∧ memo'.types.get? t.render = some handle := by
  rw [resolveType_eq, remembered_apply] at h
  split at h
  · cases h
  · rename_i hclosed
    refine ⟨by simpa using hclosed, ?_⟩
    split at h
    · rename_i found hfound
      cases h
      exact hfound
    · split at h
      · cases h
        exact Table.get?_insert_self _ _ _
      · cases h

/-! ### Fields -/

/-- The handle of a closed field. -/
def fieldHandle (symbols : SymbolTable) (closed : FieldRef) : FieldHandle :=
  ⟨closed.key, closed.name, closed.declaringType, closed.fieldType, symbols.accessor? closed⟩

/-- The field that a text names where the generic arguments are those of a context. -/
def fieldNamed (symbols : SymbolTable) (text : String) (cx : GenericContext) :
    Except Error FieldHandle := do
  let ref ← (FieldRef.parse text).mapError .format
  let closed ← closeField ref cx
  return symbols.fieldHandle closed

/-- A text names the field that is parsed from it and closed. -/
theorem fieldNamed_of_parse {symbols : SymbolTable} {text : String} {cx : GenericContext}
    {ref closed : FieldRef} (hparse : FieldRef.parse text = .ok ref)
    (hclose : closeField ref cx = .ok closed) :
    symbols.fieldNamed text cx = .ok (symbols.fieldHandle closed) := by
  unfold fieldNamed
  rw [hparse]
  show (closeField ref cx >>= fun closed => pure (symbols.fieldHandle closed)) = _
  rw [hclose]
  rfl

/-- A field with an accessor is found as it is, and any other one if its declaring type is. -/
theorem resolveField_apply (symbols : SymbolTable) (ref : FieldRef) (cx : GenericContext)
    (memo : Memo) :
    symbols.resolveField ref cx memo = match closeField ref cx with
      | .error e => (.error e, memo)
      | .ok closed =>
        if (symbols.accessor? closed).isNone then
          match symbols.resolveType closed.declaringType memo with
          | (.ok _, memo') => (.ok (symbols.fieldHandle closed), memo')
          | (.error _, memo') => (.error (.resolution closed.render), memo')
        else (.ok (symbols.fieldHandle closed), memo) := by
  unfold resolveField
  rw [Resolve.bind_apply]
  cases closeField ref cx with
  | error e => rfl
  | ok closed =>
    have hlift : (liftM (Except.ok closed : Except Error FieldRef) : Resolve FieldRef) memo =
        (.ok closed, memo) := rfl
    rw [hlift]
    dsimp only
    by_cases hnone : (symbols.accessor? closed).isNone = true
    · rw [if_pos hnone, if_pos hnone, Resolve.bind_apply, Resolve.tryCatch_apply,
        Resolve.discard_apply]
      rcases symbols.resolveType closed.declaringType memo with ⟨e | handle, memo'⟩ <;> rfl
    · rw [if_neg hnone, if_neg hnone]
      rfl

/-- Resolving a field forgets nothing. -/
theorem remembers_resolveField (symbols : SymbolTable) (ref : FieldRef) (cx : GenericContext) :
    Resolve.Remembers (symbols.resolveField ref cx) := by
  unfold resolveField
  refine (Resolve.Remembers.ofExcept _).bind fun closed => ?_
  dsimp only
  split
  · exact ((remembers_resolveType symbols _).discard.tryCatch fun _ => .throw _).bind fun _ =>
      .pure _
  · exact .pure _

end SymbolTable

/-! ## Lookups without a memo -/

/-- The outcome of looking up a type that must be closed. -/
def TypeName.ifClosed (t : TypeName) (r : Except Error TypeHandle) : Except Error TypeHandle :=
  if t.hasPlaceholders then .error (.resolution (t.render ++ ": unbound generic parameter")) else r

/-- What is kept of closed types only is kept of a closed type. -/
theorem TypeName.ifClosed_eq_ok {t : TypeName} {r : Except Error TypeHandle} {handle : TypeHandle}
    (h : t.ifClosed r = .ok handle) : r = .ok handle ∧ t.hasPlaceholders = false := by
  unfold TypeName.ifClosed at h
  split at h
  · cases h
  · rename_i hfalse
    exact ⟨h, by simpa using hfalse⟩

namespace SymbolTable

mutual

/-- What a type is found as by the symbols alone. -/
def handleOf (symbols : SymbolTable) : TypeName → Except Error TypeHandle
  | .named name args => TypeName.ifClosed (.named name args) do
    let d ← symbols.definitionOf name args
    handlesOf symbols args
    return ⟨.named name args, some d⟩
  | .suffixed element suffix => TypeName.ifClosed (.suffixed element suffix) do
    let _ ← handleOf symbols element
    return ⟨.suffixed element suffix, none⟩
  | .typeParam index =>
    TypeName.ifClosed (.typeParam index) (.error (.resolution (TypeName.typeParam index).render))
  | .methodParam index =>
    TypeName.ifClosed (.methodParam index)
      (.error (.resolution (TypeName.methodParam index).render))

/-- Whether several types are found by the symbols alone, from left to right. -/
def handlesOf (symbols : SymbolTable) : List TypeName → Except Error Unit
  | [] => .ok ()
  | t :: rest => do
    let _ ← handleOf symbols t
    handlesOf symbols rest

end

/-- A type is found under its own name and without placeholders. -/
theorem name_of_handleOf {symbols : SymbolTable} {t : TypeName} {handle : TypeHandle}
    (h : symbols.handleOf t = .ok handle) : handle.name = t ∧ t.hasPlaceholders = false := by
  cases t with
  | named name args =>
    rw [handleOf] at h
    obtain ⟨hr, ht⟩ := TypeName.ifClosed_eq_ok h
    obtain ⟨d, -, hr⟩ := bind_eq_ok.1 hr
    obtain ⟨-, -, hr⟩ := bind_eq_ok.1 hr
    cases hr
    exact ⟨rfl, ht⟩
  | suffixed element suffix =>
    rw [handleOf] at h
    obtain ⟨hr, ht⟩ := TypeName.ifClosed_eq_ok h
    obtain ⟨-, -, hr⟩ := bind_eq_ok.1 hr
    cases hr
    exact ⟨rfl, ht⟩
  | typeParam index =>
    rw [handleOf] at h
    exact nomatch (TypeName.ifClosed_eq_ok h).1
  | methodParam index =>
    rw [handleOf] at h
    exact nomatch (TypeName.ifClosed_eq_ok h).1

/-- What is found with a type is registered under a name. -/
theorem exists_findType?_of_handleOf {symbols : SymbolTable} {t : TypeName} {handle : TypeHandle}
    (h : symbols.handleOf t = .ok handle) {d : TypeDefinition} (hd : handle.definition = some d) :
    ∃ name, symbols.findType? name = some d := by
  cases t with
  | named name args =>
    rw [handleOf] at h
    obtain ⟨d', hdefinition, hr⟩ := bind_eq_ok.1 (TypeName.ifClosed_eq_ok h).1
    obtain ⟨-, -, hr⟩ := bind_eq_ok.1 hr
    cases hr
    cases hd
    refine ⟨name, ?_⟩
    unfold definitionOf at hdefinition
    dsimp only at hdefinition
    split at hdefinition
    · cases hdefinition
    · rename_i hfound
      split at hdefinition
      · cases hdefinition
        exact hfound
      · cases hdefinition
  | suffixed element suffix =>
    rw [handleOf] at h
    obtain ⟨-, -, hr⟩ := bind_eq_ok.1 (TypeName.ifClosed_eq_ok h).1
    cases hr
    cases hd
  | typeParam index =>
    rw [handleOf] at h
    exact nomatch (TypeName.ifClosed_eq_ok h).1
  | methodParam index =>
    rw [handleOf] at h
    exact nomatch (TypeName.ifClosed_eq_ok h).1

/-- A registered type without arguments is found. -/
theorem handleOf_plain {symbols : SymbolTable} {name : String} {d : TypeDefinition}
    (h : symbols.findType? name = some d) :
    symbols.handleOf (.named name []) = .ok ⟨.named name [], some d⟩ := by
  have hdefinition : symbols.definitionOf name [] = .ok d := by
    unfold definitionOf
    rw [h]
    rfl
  rw [handleOf, hdefinition, ok_bind, handlesOf]
  rfl

end SymbolTable

/-- Everything that is remembered of types is what the symbols say, of a type that can be read and
under the text of that type. -/
def Memo.Sound (symbols : SymbolTable) (memo : Memo) : Prop :=
  ∀ text handle, memo.types.get? text = some handle →
    handle.name.WellFormed ∧ handle.name.render = text ∧
      symbols.handleOf handle.name = .ok handle

/-- Before anything is looked up, what is remembered is what the symbols say. -/
theorem Memo.sound_empty (symbols : SymbolTable) : ({} : Memo).Sound symbols := nofun

/-- What is remembered of a type that can be read is what the symbols say. -/
theorem Memo.Sound.handleOf_eq {symbols : SymbolTable} {memo : Memo} (h : memo.Sound symbols)
    {t : TypeName} (ht : t.WellFormed) {handle : TypeHandle}
    (hfound : memo.types.get? t.render = some handle) : symbols.handleOf t = .ok handle := by
  obtain ⟨hname, htext, hhandle⟩ := h _ _ hfound
  rwa [TypeName.render_inj hname ht htext] at hhandle

/-- From every memo as `I` says the lookup has the given outcome, leaves such a memo, and does not
touch what is remembered of methods. -/
def Resolve.Answers (I : Memo → Prop) (r : Except Error α) (x : Resolve α) : Prop :=
  ∀ memo, I memo → (x memo).1 = r ∧ I (x memo).2 ∧ (x memo).2.methods = memo.methods

namespace Resolve.Answers

variable {I : Memo → Prop} {symbols : SymbolTable} {base : Memo} {x : Resolve α}
  {r : Except Error α}

/-- A value is the answer that it is. -/
theorem pure (a : α) : Answers I (.ok a) (pure a) := fun _ h => ⟨rfl, h, rfl⟩

/-- An error is the answer that it is. -/
theorem throw (e : Error) : Answers I (.error e) (throw e : Resolve α) :=
  fun _ h => ⟨rfl, h, rfl⟩

/-- An answer that is known beforehand is the answer that it is. -/
theorem ofExcept (r : Except Error α) : Answers I r (liftM r : Resolve α) := by
  cases r with
  | ok a => exact pure a
  | error e => exact throw e

/-- Lookups one after another have the answers one after another. -/
theorem bind {k : α → Resolve β} {rk : α → Except Error β} (hx : Answers I r x)
    (hk : ∀ a, r = .ok a → Answers I (rk a) (k a)) :
    Answers I (r >>= rk) (x >>= k) := by
  intro memo hmemo
  obtain ⟨hresult, hkept, hmethods⟩ := hx memo hmemo
  rw [bind_apply]
  rcases hxm : x memo with ⟨e | a, memo'⟩ <;> rw [hxm] at hresult hkept hmethods <;>
    subst hresult
  · exact ⟨rfl, hkept, hmethods⟩
  · obtain ⟨hresult', hkept', hmethods'⟩ := hk a rfl memo' hkept
    exact ⟨hresult', hkept', hmethods'.trans hmethods⟩

/-- A lookup whose result is dropped still fails as it does. -/
theorem discard (hx : Answers I r x) :
    Answers I (r >>= fun _ => .ok ()) (discard x) := by
  show Answers I _ (x >>= fun _ => Pure.pure ())
  exact hx.bind fun _ _ => pure ()

/-- A type that can be read is given as the symbols say, whether it is remembered or not, if the
search for it finds what they say. -/
theorem remembered {t : TypeName} {search : Resolve TypeHandle} {r : Except Error TypeHandle}
    (ht : t.WellFormed) (h : Answers (Memo.Sound symbols) r search)
    (hr : symbols.handleOf t = t.ifClosed r) :
    Answers (Memo.Sound symbols) (symbols.handleOf t) (SymbolTable.remembered t search) := by
  intro memo hmemo
  rw [SymbolTable.remembered_apply, hr, TypeName.ifClosed]
  split
  · exact ⟨rfl, hmemo, rfl⟩
  · rename_i hopen
    rw [TypeName.ifClosed, if_neg hopen] at hr
    split
    · rename_i handle hfound
      have hhandle := hmemo.handleOf_eq ht hfound
      rw [hr] at hhandle
      exact ⟨hhandle.symm, hmemo, rfl⟩
    · obtain ⟨hresult, hsound, hmethods⟩ := h memo hmemo
      rcases hfound : search memo with ⟨e | handle, memo'⟩ <;>
        rw [hfound] at hresult hsound hmethods <;> subst hresult
      · exact ⟨rfl, hsound, hmethods⟩
      · refine ⟨rfl, fun text found htext => ?_, hmethods⟩
        by_cases heq : text = t.render
        · subst heq
          rw [Table.get?_insert_self] at htext
          cases htext
          rw [(SymbolTable.name_of_handleOf hr).1]
          exact ⟨ht, rfl, hr⟩
        · rw [Table.get?_insert_of_ne _ _ heq] at htext
          exact hsound text found htext

end Resolve.Answers

namespace SymbolTable

mutual

/-- **A lookup of a type that can be read** has the outcome that the symbols say, whatever has been
looked up before. -/
theorem answers_resolveType (symbols : SymbolTable) : (t : TypeName) → t.WellFormed →
    Resolve.Answers (Memo.Sound symbols) (symbols.handleOf t) (symbols.resolveType t)
  | .named name args, ht => by
    have hargs : TypeName.AllWellFormed args := ht.2.2.2
    unfold resolveType
    refine .remembered ht ?_ (by rw [handleOf])
    exact (Resolve.Answers.ofExcept _).bind fun _ _ =>
      (answers_resolveTypes symbols args hargs).bind fun _ _ => .pure _
  | .suffixed element suffix, ht => by
    have helement : element.WellFormed := ht
    unfold resolveType
    exact .remembered ht ((answers_resolveType symbols element helement).discard.bind
      fun _ _ => .pure (⟨.suffixed element suffix, none⟩ : TypeHandle))
      (by rw [handleOf, bind_assoc]; rfl)
  | .typeParam _, ht => by
    unfold resolveType
    exact .remembered ht (.throw _) (by rw [handleOf])
  | .methodParam _, ht => by
    unfold resolveType
    exact .remembered ht (.throw _) (by rw [handleOf])

/-- Several types that can be read are resolved to what the symbols say. -/
theorem answers_resolveTypes (symbols : SymbolTable) : (ts : List TypeName) →
    TypeName.AllWellFormed ts → Resolve.Answers (Memo.Sound symbols) (symbols.handlesOf ts)
      (symbols.resolveTypes ts)
  | [], _ => by
    unfold resolveTypes
    rw [handlesOf]
    exact .pure ()
  | t :: rest, hts => by
    unfold resolveTypes
    rw [handlesOf]
    have h := (answers_resolveType symbols t hts.1).discard.bind fun _ _ =>
      answers_resolveTypes symbols rest hts.2
    rwa [bind_assoc] at h

end

/-! ### Fields -/

/-- What a field is found as, if its declaring type is found as a function says. -/
def fieldFound (symbols : SymbolTable) (find : TypeName → Except Error TypeHandle) (ref : FieldRef)
    (cx : GenericContext) : Except Error FieldHandle :=
  match closeField ref cx with
  | .error e => .error e
  | .ok closed =>
    if (symbols.accessor? closed).isNone then
      match find closed.declaringType with
      | .ok _ => .ok (symbols.fieldHandle closed)
      | .error _ => .error (.resolution closed.render)
    else .ok (symbols.fieldHandle closed)

/-- What a field is found as by the symbols alone. -/
def fieldOf (symbols : SymbolTable) (ref : FieldRef) (cx : GenericContext) :
    Except Error FieldHandle :=
  symbols.fieldFound symbols.handleOf ref cx

/-- A field that is found is the handle of its closed form. -/
theorem exists_closed_of_fieldFound {symbols : SymbolTable}
    {find : TypeName → Except Error TypeHandle} {ref : FieldRef} {cx : GenericContext}
    {f : FieldHandle} (h : symbols.fieldFound find ref cx = .ok f) :
    ∃ closed, closeField ref cx = .ok closed ∧ symbols.fieldHandle closed = f := by
  unfold fieldFound at h
  cases hclose : closeField ref cx with
  | error e =>
    rw [hclose] at h
    cases h
  | ok closed =>
    rw [hclose] at h
    dsimp only at h
    refine ⟨closed, rfl, ?_⟩
    split at h
    · split at h
      · exact Except.ok.inj h
      · cases h
    · exact Except.ok.inj h

/-- A field that can be read stays one when it is closed with types that can be read. -/
theorem wellFormed_of_closeField {ref closed : FieldRef} {cx : GenericContext}
    (href : ref.WellFormed) (htype : TypeName.AllWellFormed cx.typeArgs)
    (hmethod : TypeName.AllWellFormed cx.methodArgs) (h : closeField ref cx = .ok closed) :
    closed.WellFormed := by
  have hclose := mapError_eq_ok.1 h
  unfold FieldRef.substitute at hclose
  have hsubstitute : ∀ {t u : TypeName}, t.WellFormed →
      t.substitute cx.typeArgs cx.methodArgs = .ok u → u.WellFormed :=
    fun ht hu => TypeName.wellFormed_of_substitute htype hmethod _ ht hu
  dsimp only at hclose
  split at hclose
  · rw [pure_bind] at hclose
    obtain ⟨declaringType, hdeclaring, hclose⟩ := bind_eq_ok.1 hclose
    cases hclose
    exact ⟨nofun, hsubstitute href.declaringType hdeclaring, href.name⟩
  · rename_i t ht
    obtain ⟨fieldType, hfield, hclose⟩ := bind_eq_ok.1 hclose
    obtain ⟨declaringType, hdeclaring, hclose⟩ := bind_eq_ok.1 hclose
    obtain ⟨u, hu, rfl⟩ := map_eq_ok.1 hfield
    cases hclose
    refine ⟨?_, hsubstitute href.declaringType hdeclaring, href.name⟩
    rintro _ ⟨⟩
    exact hsubstitute (href.fieldType t ht) hu

/-- A lookup of a field has the answer that the lookup of its declaring type leads to. -/
theorem answers_fieldFound {symbols : SymbolTable} {I : Memo → Prop}
    {find : TypeName → Except Error TypeHandle} {ref : FieldRef} {cx : GenericContext}
    (h : ∀ closed, closeField ref cx = .ok closed →
      Resolve.Answers I (find closed.declaringType) (symbols.resolveType closed.declaringType)) :
    Resolve.Answers I (symbols.fieldFound find ref cx) (symbols.resolveField ref cx) := by
  intro memo hmemo
  rw [resolveField_apply]
  unfold fieldFound
  cases hclose : closeField ref cx with
  | error e => exact ⟨rfl, hmemo, rfl⟩
  | ok closed =>
    dsimp only
    split
    · obtain ⟨hresult, hkept, hmethods⟩ := h closed hclose memo hmemo
      rcases hfound : symbols.resolveType closed.declaringType memo with ⟨e | handle, memo'⟩ <;>
        rw [hfound] at hresult hkept hmethods <;> rw [← hresult]
      · exact ⟨rfl, hkept, hmethods⟩
      · exact ⟨rfl, hkept, hmethods⟩
    · exact ⟨rfl, hmemo, rfl⟩

/-- A lookup of a field has the outcome that the symbols say, if its closed type can be read. -/
theorem answers_resolveField (symbols : SymbolTable) {ref : FieldRef} {cx : GenericContext}
    (h : ∀ closed, closeField ref cx = .ok closed → closed.declaringType.WellFormed) :
    Resolve.Answers (Memo.Sound symbols) (symbols.fieldOf ref cx) (symbols.resolveField ref cx) :=
  answers_fieldFound fun closed hclose =>
    answers_resolveType symbols closed.declaringType (h closed hclose)

end SymbolTable

/-! ## Lookups that go on from a memo

What lookups of types that can be read add to a memo cannot be noticed either, whatever that memo
held before: each such type is found as from the memo that the lookups began with. -/

/-- What a type is found as from a memo. -/
def SymbolTable.foundFrom (symbols : SymbolTable) (memo : Memo) (t : TypeName) :
    Except Error TypeHandle :=
  (symbols.resolveType t memo).1

/-- A memo that lookups of types that can be read have made out of another one: it holds what that
one holds, and every type that it holds besides is found from that one. -/
structure Memo.GrownFrom (symbols : SymbolTable) (memo base : Memo) : Prop where
  /-- Nothing is forgotten. -/
  kept : base.Extends memo
  /-- What has been added is found from the memo that was there. -/
  added : ∀ text handle, memo.types.get? text = some handle → base.types.get? text = none →
    ∃ t : TypeName, t.WellFormed ∧ t.render = text ∧ symbols.foundFrom base t = .ok handle

namespace Memo.GrownFrom

variable {symbols : SymbolTable} {memo base : Memo}

/-- A memo is grown from itself. -/
theorem refl (symbols : SymbolTable) (base : Memo) : base.GrownFrom symbols base where
  kept := .refl base
  added _ _ hfound hnone := nomatch hfound.symm.trans hnone

/-- A type that can be read and is remembered is found so from the memo that was there. -/
theorem foundFrom_eq (h : memo.GrownFrom symbols base) {t : TypeName} (ht : t.WellFormed)
    (hclosed : t.hasPlaceholders = false) {handle : TypeHandle}
    (hfound : memo.types.get? t.render = some handle) :
    symbols.foundFrom base t = .ok handle := by
  cases hbase : base.types.get? t.render with
  | some handle' =>
    cases hfound.symm.trans (h.kept _ _ hbase)
    rw [SymbolTable.foundFrom, symbols.resolveType_of_get? hclosed hbase]
  | none =>
    obtain ⟨u, hu, htext, hresult⟩ := h.added _ _ hfound hbase
    rwa [TypeName.render_inj hu ht htext] at hresult

/-- A type that is found from the memo that was there may be remembered. -/
theorem insert (h : memo.GrownFrom symbols base) {t : TypeName} (ht : t.WellFormed)
    {handle : TypeHandle} (hresult : symbols.foundFrom base t = .ok handle)
    (hnone : base.types.get? t.render = none) :
    Memo.GrownFrom symbols { memo with types := memo.types.insert t.render handle } base where
  kept text found hfound := by
    have hne : text ≠ t.render := by
      rintro rfl
      cases hnone.symm.trans hfound
    exact (Table.get?_insert_of_ne _ _ hne).trans (h.kept text found hfound)
  added text found hfound hbase := by
    by_cases heq : text = t.render
    · subst heq
      rw [Table.get?_insert_self] at hfound
      cases hfound
      exact ⟨t, ht, rfl, hresult⟩
    · rw [Table.get?_insert_of_ne _ _ heq] at hfound
      exact h.added text found hfound hbase

end Memo.GrownFrom

namespace SymbolTable

/-- A type that can be read is given as from the memo that was there, whether it is remembered or
not, if the search for it is so. -/
theorem answersFrom_remembered {symbols : SymbolTable} {base : Memo} {t : TypeName}
    (ht : t.WellFormed)
    (h : Resolve.Answers (Memo.GrownFrom symbols · base) (symbols.searchType t base).1
      (symbols.searchType t)) :
    Resolve.Answers (Memo.GrownFrom symbols · base) (symbols.foundFrom base t)
      (symbols.resolveType t) := by
  intro memo hmemo
  have hfirst : symbols.foundFrom base t = t.ifClosed
      (match base.types.get? t.render with
      | some handle => .ok handle
      | none => (symbols.searchType t base).1) := by
    rw [foundFrom, resolveType_eq, remembered_apply, TypeName.ifClosed]
    split
    · rfl
    · cases base.types.get? t.render with
      | some handle => rfl
      | none => rcases symbols.searchType t base with ⟨e | handle, memo'⟩ <;> rfl
  by_cases hopen : t.hasPlaceholders = true
  · rw [hfirst, TypeName.ifClosed, if_pos hopen, resolveType_eq, remembered_apply, if_pos hopen]
    exact ⟨rfl, hmemo, rfl⟩
  · have hclosed : t.hasPlaceholders = false := by simpa using hopen
    cases hfound : memo.types.get? t.render with
    | some handle =>
      rw [symbols.resolveType_of_get? hclosed hfound, hmemo.foundFrom_eq ht hclosed hfound]
      exact ⟨rfl, hmemo, rfl⟩
    | none =>
      have hnone : base.types.get? t.render = none := by
        cases hbase : base.types.get? t.render with
        | none => rfl
        | some handle => cases hfound.symm.trans (hmemo.kept _ _ hbase)
      rw [hnone, TypeName.ifClosed, if_neg hopen] at hfirst
      obtain ⟨hresult, hgrown, hmethods⟩ := h memo hmemo
      rw [resolveType_eq, remembered_apply, if_neg hopen, hfound, hfirst]
      dsimp only
      rcases hsearch : symbols.searchType t memo with ⟨e | handle, memo'⟩ <;>
        rw [hsearch] at hresult hgrown hmethods
      · exact ⟨hresult, hgrown, hmethods⟩
      · exact ⟨hresult, hgrown.insert ht (hfirst.trans hresult.symm) hnone, hmethods⟩

mutual

/-- **A lookup of a type that can be read** has the outcome that it has from the memo that was
there, whatever lookups of such types have added since. -/
theorem answersFrom_resolveType (symbols : SymbolTable) (base : Memo) :
    (t : TypeName) → t.WellFormed →
      Resolve.Answers (Memo.GrownFrom symbols · base) (symbols.foundFrom base t)
        (symbols.resolveType t)
  | .named name args, ht => by
    refine answersFrom_remembered ht ?_
    have hsearch : (symbols.searchType (.named name args) base).1 =
        symbols.definitionOf name args >>= fun d =>
          (symbols.resolveTypes args base).1 >>= fun _ => .ok ⟨.named name args, some d⟩ := by
      dsimp only [searchType]
      rw [Resolve.bind_apply]
      cases symbols.definitionOf name args with
      | error e => rfl
      | ok d =>
        show ((symbols.resolveTypes args >>= _ : Resolve TypeHandle) base).1 = _
        rw [Resolve.bind_apply]
        rcases symbols.resolveTypes args base with ⟨e | u, memo'⟩ <;> rfl
    rw [hsearch]
    exact (Resolve.Answers.ofExcept _).bind fun _ _ =>
      (answersFrom_resolveTypes symbols base args ht.2.2.2).bind fun _ _ => .pure _
  | .suffixed element suffix, ht => by
    refine answersFrom_remembered ht ?_
    have hsearch : (symbols.searchType (.suffixed element suffix) base).1 =
        (symbols.foundFrom base element >>= fun _ => .ok ()) >>= fun _ =>
          .ok ⟨.suffixed element suffix, none⟩ := by
      dsimp only [searchType, foundFrom]
      rw [Resolve.bind_apply, Resolve.discard_apply]
      rcases symbols.resolveType element base with ⟨e | handle, memo'⟩ <;> rfl
    rw [hsearch]
    have helement : element.WellFormed := ht
    exact (answersFrom_resolveType symbols base element helement).discard.bind fun _ _ => .pure _
  | .typeParam _, ht => answersFrom_remembered ht (.throw _)
  | .methodParam _, ht => answersFrom_remembered ht (.throw _)

/-- Lookups of several such types have the outcome that they have from the memo that was there. -/
theorem answersFrom_resolveTypes (symbols : SymbolTable) (base : Memo) :
    (ts : List TypeName) → TypeName.AllWellFormed ts →
      Resolve.Answers (Memo.GrownFrom symbols · base) (symbols.resolveTypes ts base).1
        (symbols.resolveTypes ts)
  | [], _ => by
    unfold resolveTypes
    exact .pure ()
  | t :: rest, hts => by
    have hfirst := answersFrom_resolveType symbols base t hts.1
    have hrest := answersFrom_resolveTypes symbols base rest hts.2
    have hboth : (symbols.resolveTypes (t :: rest) base).1 =
        (symbols.foundFrom base t >>= fun _ => .ok ()) >>= fun _ =>
          (symbols.resolveTypes rest base).1 := by
      rw [resolveTypes, Resolve.bind_apply, Resolve.discard_apply, foundFrom]
      obtain ⟨-, hgrown, -⟩ := hfirst base (.refl symbols base)
      rcases hfound : symbols.resolveType t base with ⟨e | handle, memo'⟩
      · rfl
      · rw [hfound] at hgrown
        exact (hrest memo' hgrown).1
    have hlookup : symbols.resolveTypes (t :: rest) =
        discard (symbols.resolveType t) >>= fun _ => symbols.resolveTypes rest := by
      rw [resolveTypes]
    rw [hboth, hlookup]
    exact hfirst.discard.bind fun _ _ => hrest

end

/-- A lookup of a field has the outcome that it has from the memo that was there, if its closed type
can be read. -/
theorem answersFrom_resolveField (symbols : SymbolTable) (base : Memo) {ref : FieldRef}
    {cx : GenericContext}
    (h : ∀ closed, closeField ref cx = .ok closed → closed.declaringType.WellFormed) :
    Resolve.Answers (Memo.GrownFrom symbols · base)
      (symbols.fieldFound (symbols.foundFrom base) ref cx) (symbols.resolveField ref cx) :=
  answers_fieldFound fun closed hclose =>
    answersFrom_resolveType symbols base closed.declaringType (h closed hclose)

end SymbolTable

end Hotswap
