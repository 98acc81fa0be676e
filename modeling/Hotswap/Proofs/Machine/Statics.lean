import Hotswap.Proofs.Machine.TypeMemo
import Mathlib

/-!
# Static fields that the machine keeps

A static field without an accessor is kept under the text of the closed declaring type and the name.
The type that a reference gives to the field is no part of that, and what stands for a placeholder
is, so every instantiation of a generic class has a field of its own.

What such a field reads as is the value that it was stored with, or else what a variable of its type
starts as (`SymbolTable.staticValue`). A store changes one entry of the static fields and adds to
what is remembered (`exists_closed_of_storeStatic`), and what is added does not change what types
are found as (`Memo.GrownFrom`). So a field in that place reads as the stored value, and any other
one as before (`loadStatic_storeStatic`), whatever was remembered to begin with.

That two fields are in one place exactly if one type declares both and they have one name is a
matter of the texts being read back. A type that was not read from a text may print like another
one, and then the two share what they store (`loadStatic_storeStatic_builtType`). A reference whose
own type for the field cannot be closed is not read at all, although that type is no part of the
place.
-/

namespace Hotswap

open FrameAction

/-! ## What a field reads as -/

namespace SymbolTable

/-- What a variable of a type starts as, if types are found as a function says. -/
def startOf (find : TypeName → Except Error TypeHandle) (m : Memory) :
    TypeName → Except Error Value
  | .named name args => (find (.named name args)).map fun handle => (handle.defaultValue m).1
  | _ => .ok .null

/-- What a static field that the machine keeps reads as once it is found: what has been stored, or
else what a variable of its type starts as. A field that names no type starts as null. -/
def valueOf (find : TypeName → Except Error TypeHandle) (s : State) (h : FieldHandle) :
    Except Error Value :=
  match s.statics.get? h.key, h.fieldType with
  | some v, _ => .ok v
  | none, some type => startOf find s.memory type
  | none, none => .ok .null

/-- What a static field that the machine keeps reads as, if types are found as a function says. -/
def staticValue (symbols : SymbolTable) (find : TypeName → Except Error TypeHandle)
    (ref : FieldRef) (cx : GenericContext) (s : State) : Except Error Value :=
  symbols.fieldFound find ref cx >>= valueOf find s

/-- No accessor is registered for a field in a context. -/
def Keeps (symbols : SymbolTable) (ref : FieldRef) (cx : GenericContext) : Prop :=
  ∀ closed, closeField ref cx = .ok closed → symbols.accessor? closed = none

end SymbolTable

variable {scope : Scope} {callee : Callee} {text text' : String}
  {ref ref' closed closed' : FieldRef} {cx : GenericContext} {f g f' : Frame} {s t : State}
  {base : Memo} {v : Value} {next : Option UInt32}

/-- A variable of a type that can be read starts as from the memo that was there. -/
theorem Scope.defaultValue_eq_startOf {type : TypeName} (htype : type.WellFormed)
    (hs : s.memo.GrownFrom scope.symbols base) :
    (scope.defaultValue type s).1 =
      (SymbolTable.startOf (scope.symbols.foundFrom base) s.memory type).mapError .failed := by
  cases type with
  | named name args =>
    obtain ⟨hresult, -, -⟩ := scope.symbols.answersFrom_resolveType base _ htype s.memo hs
    show ((Machine.resolve (scope.symbols.resolveType (.named name args)) >>= fun handle =>
      Machine.onMemory handle.defaultValue) s).1 = _
    rw [Machine.bind_apply, Machine.resolve_apply, SymbolTable.startOf, ← hresult]
    rcases scope.symbols.resolveType (.named name args) s.memo with ⟨e | handle, memo⟩ <;> rfl
  | suffixed element suffix => rfl
  | typeParam index => rfl
  | methodParam index => rfl

/-- Types that there can be are types that can be read. -/
theorem GenericContext.Over.wellFormed (h : cx.Over TypeName.Obtained) :
    cx.Over TypeName.WellFormed :=
  ⟨fun t ht => (h.typeArgs t ht).wellFormed, fun t ht => (h.methodArgs t ht).wellFormed⟩

/-- The closed form of a field that can be read, in a context that can, can be read. -/
theorem FieldRef.wellFormed_of_close (hparse : FieldRef.parse text = .ok ref)
    (hcx : cx.Over TypeName.Obtained) (hclose : SymbolTable.closeField ref cx = .ok closed) :
    closed.WellFormed :=
  hcx.wellFormed.wellFormed_closeField (FieldRef.wellFormed_of_parse hparse) hclose

/-- A field that the machine keeps and that has been found is read as from the memo that was
there. -/
theorem loadStatic_eq_valueOf {h : FieldHandle} (ha : h.accessor = none)
    (htype : ∀ type ∈ h.fieldType, type.WellFormed) (hs : s.memo.GrownFrom scope.symbols base) :
    (Step.loadStatic scope h s).1 =
      (SymbolTable.valueOf (scope.symbols.foundFrom base) s h).mapError .failed := by
  have hread : Step.loadStatic scope h s = _ := Holder.read_apply .type ha
  rw [hread]
  unfold SymbolTable.valueOf Holder.kept Step.fieldDefault
  cases s.statics.get? h.key with
  | some v => rfl
  | none =>
    cases hfield : h.fieldType with
    | some type => exact Scope.defaultValue_eq_startOf (htype type hfield) hs
    | none => rfl

/-- **A load of a static field** that the machine keeps gives what the static fields say, with types
found as from the memo that was there, whatever lookups have added since. -/
theorem loadStatic_eq_staticValue (hparse : FieldRef.parse text = .ok ref)
    (hcx : f.context.Over TypeName.Obtained) (hkeeps : scope.symbols.Keeps ref f.context)
    (hs : s.memo.GrownFrom scope.symbols base) :
    (step scope callee ⟨.ldsfld, .field text, next⟩ f s).1 =
      ((scope.symbols.staticValue (scope.symbols.foundFrom base) ref f.context s).map fun v =>
        (.next, f.pushed v)).mapError .failed := by
  have hwf : ∀ closed, SymbolTable.closeField ref f.context = .ok closed → closed.WellFormed :=
    fun closed hclose => FieldRef.wellFormed_of_close hparse hcx hclose
  obtain ⟨hresult, hgrown, -⟩ := scope.symbols.answersFrom_resolveField base
    (fun closed hclose => (hwf closed hclose).declaringType) s.memo hs
  rw [step_loadStatic rfl rfl, Machine.bind_apply, Scope.field_of_parse hparse,
    SymbolTable.staticValue, ← hresult]
  rcases hfound : scope.symbols.resolveField ref f.context s.memo with ⟨e | h, memo⟩
  · rfl
  · rw [hfound] at hresult hgrown
    obtain ⟨closed, hclose, rfl⟩ := SymbolTable.exists_closed_of_fieldFound hresult.symm
    have hvalue : (Step.loadStatic scope (scope.symbols.fieldHandle closed) { s with memo }).1 =
        (SymbolTable.valueOf (scope.symbols.foundFrom base) s
          (scope.symbols.fieldHandle closed)).mapError .failed :=
      loadStatic_eq_valueOf (hkeeps closed hclose) (hwf closed hclose).fieldType hgrown
    dsimp only
    rw [Machine.bind_apply, ok_bind]
    rcases hload : Step.loadStatic scope (scope.symbols.fieldHandle closed) { s with memo } with
      ⟨stop | v, u⟩ <;> rw [hload] at hvalue
    · cases hresult' : SymbolTable.valueOf (scope.symbols.foundFrom base) s
        (scope.symbols.fieldHandle closed) with
      | error e =>
        rw [hresult'] at hvalue
        cases hvalue
        rfl
      | ok v =>
        rw [hresult'] at hvalue
        cases hvalue
    · rw [mapError_eq_ok.1 hvalue.symm]
      rfl

/-! ## What a store does -/

/-- An instruction that writes a static field. -/
theorem step_storeStatic {i : Instruction} (hop : i.opcode.action = .effect .storeStatic)
    (hi : i.operand = .field text) (v : Value) :
    step scope callee i (f.pushed v) = (do
      let h ← scope.field text f.context
      Step.storeStatic h v
      return (.next, f) : Machine (Flow × Frame)) := by
  rw [step_field hop hi rfl]
  congr 1
  funext h
  show (ofMachine (Step.storeStatic h v) f >>= _ : Machine _) = _
  unfold ofMachine
  rw [bind_assoc]
  rfl

/-- A store in a static field that the machine keeps looks the field up and changes the entry of the
closed field. Apart from what is remembered nothing else changes. -/
theorem exists_closed_of_storeStatic (hparse : FieldRef.parse text = .ok ref)
    (hkeeps : scope.symbols.Keeps ref f.context)
    (hstore : step scope callee ⟨.stsfld, .field text, next⟩ (f.pushed v) s =
      (.ok (.next, f'), t)) :
    f' = f ∧ ∃ closed, SymbolTable.closeField ref f.context = .ok closed ∧
      scope.field text f.context s =
        (.ok (scope.symbols.fieldHandle closed), { s with memo := t.memo }) ∧
      t = { s with statics := s.statics.insert closed.key v, memo := t.memo } := by
  rw [step_storeStatic rfl rfl] at hstore
  obtain ⟨h, u, hfield, hstore⟩ := Machine.bind_eq_ok.1 hstore
  obtain ⟨_, u', hstored, hstore⟩ := Machine.bind_eq_ok.1 hstore
  cases hstore
  obtain ⟨hnamed, -, hstate, -⟩ := Scope.field_eq_ok hfield
  obtain ⟨ref', hparse', hclosed⟩ := bind_eq_ok.1 hnamed
  cases hparse.symm.trans (mapError_eq_ok.1 hparse')
  obtain ⟨closed, hclose, hhandle⟩ := bind_eq_ok.1 hclosed
  cases hhandle
  have haccessor : (scope.symbols.fieldHandle closed).accessor = none := hkeeps closed hclose
  unfold Step.storeStatic at hstored
  rw [haccessor] at hstored
  cases hstored
  refine ⟨rfl, closed, hclose, hfield.trans (by rw [hstate]), ?_⟩
  show { u with statics := u.statics.insert closed.key v } = _
  rw [hstate]

/-- What is remembered after a field has been looked up is grown from what was there. -/
theorem Scope.grownFrom_of_field {h : FieldHandle} (hfield : scope.field text cx s = (.ok h, t))
    (hcx : cx.Over TypeName.WellFormed) (hs : s.memo.GrownFrom scope.symbols base) :
    t.memo.GrownFrom scope.symbols base := by
  obtain ⟨hnamed, -, -, -⟩ := Scope.field_eq_ok hfield
  obtain ⟨ref, hparse, -⟩ := bind_eq_ok.1 hnamed
  have hparse := mapError_eq_ok.1 hparse
  obtain ⟨-, hgrown, -⟩ := scope.symbols.answersFrom_resolveField base (fun closed hclose =>
    (hcx.wellFormed_closeField (FieldRef.wellFormed_of_parse hparse) hclose).declaringType)
    s.memo hs
  rw [Scope.field_of_parse hparse] at hfield
  rcases hfound : scope.symbols.resolveField ref cx s.memo with ⟨e | h, memo⟩ <;>
    rw [hfound] at hfield hgrown <;> cases hfield
  exact hgrown

/-- Two closed fields that can be read are in one place exactly if one type declares both and they
have one name. -/
theorem FieldRef.key_eq_iff (h : closed.WellFormed) (h' : closed'.WellFormed) :
    closed'.key = closed.key ↔
      closed'.declaringType = closed.declaringType ∧ closed'.name = closed.name := by
  refine ⟨FieldRef.key_inj h' h, fun ⟨hdeclaring, hname⟩ => ?_⟩
  unfold FieldRef.key
  rw [hdeclaring, hname]

/-- A field whose declaring type is known and that has been stored is read, and nothing changes. -/
theorem loadStatic_of_kept (hparse : FieldRef.parse text = .ok ref)
    (hclose : SymbolTable.closeField ref f.context = .ok closed)
    (ha : scope.symbols.accessor? closed = none)
    (hknown : (scope.symbols.fieldHandle closed).Known s.memo)
    (hkept : s.statics.get? closed.key = some v) :
    step scope callee ⟨.ldsfld, .field text, next⟩ f s = (.ok (.next, f.pushed v), s) := by
  have haccessor : (scope.symbols.fieldHandle closed).accessor = none := ha
  have hfield := Scope.field_of_known (SymbolTable.fieldNamed_of_parse hparse hclose) haccessor
    hknown
  have hread : Step.loadStatic scope (scope.symbols.fieldHandle closed) s = _ :=
    Holder.read_apply .type haccessor
  rw [show Holder.type.kept s (scope.symbols.fieldHandle closed) = some v from hkept] at hread
  rw [step_loadStatic rfl rfl, Machine.bind_apply, hfield]
  dsimp only
  rw [Machine.bind_apply, hread]
  rfl

/-- The value of a field that is in another place than one that is stored does not change, and
neither does what a field that cannot be found fails with. -/
theorem SymbolTable.staticValue_of_ne (symbols : SymbolTable)
    (find : TypeName → Except Error TypeHandle) {key : String} {memo : Memo}
    (hne : ∀ closed, closeField ref cx = .ok closed → closed.key ≠ key) :
    symbols.staticValue find ref cx { s with statics := s.statics.insert key v, memo } =
      symbols.staticValue find ref cx s := by
  unfold staticValue
  cases hfield : symbols.fieldFound find ref cx with
  | error e => rfl
  | ok h =>
    obtain ⟨closed, hclose, rfl⟩ := exists_closed_of_fieldFound hfield
    have hkept : (s.statics.insert key v).get? closed.key = s.statics.get? closed.key :=
      Table.get?_insert_of_ne _ _ (hne closed hclose)
    rw [ok_bind, ok_bind, valueOf, valueOf]
    show (match (s.statics.insert key v).get? closed.key, closed.fieldType with
      | some v, _ => Except.ok v
      | none, some type => startOf find s.memory type
      | none, none => .ok .null) = _
    rw [hkept]
    rfl

/-- **A static field has one place for each closed declaring type and name.** Two references may be
loaded and stored in different methods, with different generic arguments. After a store, a load
gives the stored value if the two references close to one declaring type and one name, whatever
types they give to the field. Otherwise it gives what it would have given before the store: what
that field had been stored with, or else what a variable of its type starts as. The types that the
generic arguments are made of are read from texts; what is remembered can be anything. -/
theorem loadStatic_storeStatic (scope' : Scope) (callee' : Callee) (next' : Option UInt32)
    (hsymbols : scope'.symbols = scope.symbols)
    (hparse : FieldRef.parse text = .ok ref) (hparse' : FieldRef.parse text' = .ok ref')
    (hcx : f.context.Over TypeName.Obtained) (hcx' : g.context.Over TypeName.Obtained)
    (hkeeps : scope.symbols.Keeps ref f.context) (hkeeps' : scope.symbols.Keeps ref' g.context)
    (hstore : step scope callee ⟨.stsfld, .field text, next⟩ (f.pushed v) s =
      (.ok (.next, f'), t)) :
    ∃ closed, SymbolTable.closeField ref f.context = .ok closed ∧
      (∀ closed', SymbolTable.closeField ref' g.context = .ok closed' →
        (closed'.key = closed.key ↔
          closed'.declaringType = closed.declaringType ∧ closed'.name = closed.name) ∧
        (closed'.declaringType = closed.declaringType → closed'.name = closed.name →
          step scope' callee' ⟨.ldsfld, .field text', next'⟩ g t =
            (.ok (.next, g.pushed v), t))) ∧
      ((∀ closed', SymbolTable.closeField ref' g.context = .ok closed' →
          ¬(closed'.declaringType = closed.declaringType ∧ closed'.name = closed.name)) →
        (step scope' callee' ⟨.ldsfld, .field text', next'⟩ g t).1 =
          (step scope' callee' ⟨.ldsfld, .field text', next'⟩ g s).1) ∧
      (step scope' callee' ⟨.ldsfld, .field text', next'⟩ g s).1 =
        ((scope.symbols.staticValue (scope.symbols.foundFrom s.memo) ref' g.context s).map fun w =>
          (.next, g.pushed w)).mapError .failed := by
  obtain ⟨-, closed, hclose, hfield, ht⟩ := exists_closed_of_storeStatic hparse hkeeps hstore
  have hwf : closed.WellFormed := FieldRef.wellFormed_of_close hparse hcx hclose
  have hwf' : ∀ closed', SymbolTable.closeField ref' g.context = .ok closed' →
      closed'.WellFormed := fun closed' hclose' => FieldRef.wellFormed_of_close hparse' hcx' hclose'
  have hbefore : s.memo.GrownFrom scope.symbols s.memo := .refl scope.symbols s.memo
  have hafter := Scope.grownFrom_of_field hfield hcx.wellFormed hbefore
  obtain ⟨-, -, -, hknown⟩ := Scope.field_eq_ok hfield
  -- To a load, what the store has added to the memo is as good as not there.
  have hload : ∀ u : State, u.memo.GrownFrom scope.symbols s.memo →
      (step scope' callee' ⟨.ldsfld, .field text', next'⟩ g u).1 =
        ((scope.symbols.staticValue (scope.symbols.foundFrom s.memo) ref' g.context u).map fun w =>
          (.next, g.pushed w)).mapError .failed := by
    intro u hu
    rw [← hsymbols] at hu hkeeps' ⊢
    exact loadStatic_eq_staticValue hparse' hcx' hkeeps' hu
  refine ⟨closed, hclose, fun closed' hclose' => ?_, fun hother => ?_, hload s hbefore⟩
  · refine ⟨FieldRef.key_eq_iff hwf (hwf' closed' hclose'), fun hdeclaring hname => ?_⟩
    have hplace : closed'.key = closed.key :=
      (FieldRef.key_eq_iff hwf (hwf' closed' hclose')).2 ⟨hdeclaring, hname⟩
    refine loadStatic_of_kept hparse' hclose' ?_ ?_ ?_
    · rw [hsymbols]
      exact hkeeps' closed' hclose'
    · have hsame : (scope'.symbols.fieldHandle closed').declaringType =
          (scope.symbols.fieldHandle closed).declaringType := hdeclaring
      unfold FieldHandle.Known
      rw [hsame]
      exact hknown (hkeeps closed hclose)
    · rw [ht, hplace]
      exact Table.get?_insert_self _ _ _
  · rw [hload t hafter, hload s hbefore, ht]
    rw [SymbolTable.staticValue_of_ne scope.symbols _ fun closed' hclose' hkey =>
      hother closed' hclose' ((FieldRef.key_eq_iff hwf (hwf' closed' hclose')).1 hkey)]

/-- The frame of a method of a box of an item. -/
def boxFrame (item : TypeName) : Frame := { emptyFrame with context := ⟨[item], []⟩ }

/-- The number that the boxes of one item share, as a box refers to it. -/
def sharedNumber : FieldRef := ⟨some (.plain "System.Int32"), boxWith (.typeParam 0), "Shared"⟩

/-- What the boxes of numbers share, as other code refers to it. -/
def sharedByNumbers : FieldRef := ⟨none, boxWith (.plain "System.Int32"), "Shared"⟩

/-- The frame has a type that is read from a text in place of its placeholder. -/
theorem over_obtained_boxFrame {name : String} (h : TypeName.parse name = .ok (.plain name)) :
    GenericContext.Over TypeName.Obtained (boxFrame (.plain name)).context := by
  refine ⟨?_, nofun⟩
  rintro t (_ | ⟨_, ⟨⟩⟩)
  exact .parsed h

/-- The machine keeps a field whose closed form no accessor is registered for. -/
theorem keeps_of_close (symbols : SymbolTable)
    (hclose : SymbolTable.closeField ref cx = .ok closed)
    (h : (symbols.accessor? closed).isNone = true) : symbols.Keeps ref cx := by
  intro closed' hclose'
  cases hclose.symm.trans hclose'
  exact Option.isNone_iff_eq_none.1 h

/-- A type that was put together and not read from a text: it has no arguments, and its name is the
text of a box of numbers. -/
def builtBox : TypeName := .plain "Game.Box`1<System.Int32>"

/-- **A type that no text is read as shares what another type stores.** The two types are different
and have no placeholders. Before the store, a load through the built one fails. After a store
through the one that can be read it gives the stored value, since the two have one text. The second
part is about types that are all read: a reference to the very field that has been stored cannot be
loaded if its own type for the field is a placeholder that nothing stands for. -/
theorem loadStatic_storeStatic_builtType :
    (let read := boxFrame (boxWith (.plain "System.Int32"))
      let built := boxFrame builtBox
      let stored := step genericScope (call genericScope 0)
        ⟨.stsfld, .field "System.Int32 Game.Box`1<!0>::Shared", none⟩ (read.pushed (.int32 7)) {}
      let load := step genericScope (call genericScope 0)
        ⟨.ldsfld, .field "System.Int32 Game.Box`1<!0>::Shared", none⟩ built
      builtBox.hasPlaceholders = false ∧
        (SymbolTable.closeField sharedNumber read.context).map (·.declaringType) =
          .ok (boxWith (boxWith (.plain "System.Int32"))) ∧
        (SymbolTable.closeField sharedNumber built.context).map (·.declaringType) =
          .ok (boxWith builtBox) ∧
        boxWith builtBox ≠ boxWith (boxWith (.plain "System.Int32")) ∧
        stored.1.map (fun r => r.2.stack) = .ok [] ∧
        (load stored.2).1.map (fun r => r.2.stack) = .ok [.int32 7] ∧
        (load {}).1.map (fun r => r.2.stack) =
          .error (.failed (.resolution
            "System.Int32 Game.Box`1<Game.Box`1<System.Int32>>::Shared"))) ∧
      (let stored := step genericScope (call genericScope 0)
        ⟨.stsfld, .field "System.Int32 System.String::Count", none⟩
        (emptyFrame.pushed (.int32 7)) {}
      let load := step genericScope (call genericScope 0)
        ⟨.ldsfld, .field "!!0 System.String::Count", none⟩ emptyFrame
      FieldRef.parse "System.Int32 System.String::Count" =
          .ok ⟨some (.plain "System.Int32"), .plain "System.String", "Count"⟩ ∧
        FieldRef.parse "!!0 System.String::Count" =
          .ok ⟨some (.methodParam 0), .plain "System.String", "Count"⟩ ∧
        stored.1.map (fun r => r.2.stack) = .ok [] ∧
        (load stored.2).1.map (fun r => r.2.stack) =
          .error (.failed (.resolution
            "!!0 System.String::Count: Placeholder !!0 has no binding"))) := by
  decide +kernel

/-- A box of numbers stores the number that it shares. A method of a box of strings loads that
number when it names the field of the boxes of numbers, without a type, and it loads zero when it
names the field of its own class. -/
theorem loadStatic_storeStatic_boxes :
    ∃ t, step genericScope (call genericScope 0)
        ⟨.stsfld, .field "System.Int32 Game.Box`1<!0>::Shared", none⟩
        ((boxFrame (.plain "System.Int32")).pushed (.int32 7)) {} =
          (.ok (.next, boxFrame (.plain "System.Int32")), t) ∧
      step genericScope (call genericScope 0)
        ⟨.ldsfld, .field "Game.Box`1<System.Int32>::Shared", none⟩
        (boxFrame (.plain "System.String")) t =
          (.ok (.next, (boxFrame (.plain "System.String")).pushed (.int32 7)), t) ∧
      (step genericScope (call genericScope 0)
        ⟨.ldsfld, .field "System.Int32 Game.Box`1<!0>::Shared", none⟩
        (boxFrame (.plain "System.String")) t).1.map (fun r => r.2.stack) = .ok [.int32 0] := by
  have hparse : FieldRef.parse "System.Int32 Game.Box`1<!0>::Shared" = .ok sharedNumber := by
    decide +kernel
  have hparse' : FieldRef.parse "Game.Box`1<System.Int32>::Shared" = .ok sharedByNumbers := by
    decide +kernel
  have hnumbers : (boxFrame (.plain "System.Int32")).context.Over TypeName.Obtained :=
    over_obtained_boxFrame (by decide +kernel)
  have hstrings : (boxFrame (.plain "System.String")).context.Over TypeName.Obtained :=
    over_obtained_boxFrame (by decide +kernel)
  have hclose : SymbolTable.closeField sharedNumber (boxFrame (.plain "System.Int32")).context =
      .ok { sharedNumber with declaringType := boxWith (.plain "System.Int32") } := by
    decide +kernel
  have hclose₁ : SymbolTable.closeField sharedByNumbers
      (boxFrame (.plain "System.String")).context = .ok sharedByNumbers := by decide +kernel
  have hclose₂ : SymbolTable.closeField sharedNumber
      (boxFrame (.plain "System.String")).context =
        .ok { sharedNumber with declaringType := boxWith (.plain "System.String") } := by
    decide +kernel
  have hkeeps := keeps_of_close genericScope.symbols hclose (by decide +kernel)
  have hkeeps₁ := keeps_of_close genericScope.symbols hclose₁ (by decide +kernel)
  have hkeeps₂ := keeps_of_close genericScope.symbols hclose₂ (by decide +kernel)
  have hstored : (step genericScope (call genericScope 0)
      ⟨.stsfld, .field "System.Int32 Game.Box`1<!0>::Shared", none⟩
      ((boxFrame (.plain "System.Int32")).pushed (.int32 7)) {}).1.map
        (fun r => (r.1 matches .next : Bool)) = .ok true := by decide +kernel
  generalize hstore : step genericScope (call genericScope 0)
    ⟨.stsfld, .field "System.Int32 Game.Box`1<!0>::Shared", none⟩
    ((boxFrame (.plain "System.Int32")).pushed (.int32 7)) {} = r at hstored
  rcases r with ⟨stop | ⟨flow, f'⟩, t⟩
  · cases hstored
  · cases flow with
    | next =>
      obtain ⟨rfl, -⟩ := exists_closed_of_storeStatic hparse hkeeps hstore
      have hsame := loadStatic_storeStatic genericScope (call genericScope 0) none rfl
        hparse hparse' hnumbers hstrings hkeeps hkeeps₁ hstore
      have hother := loadStatic_storeStatic genericScope (call genericScope 0) none rfl
        hparse hparse hnumbers hstrings hkeeps hkeeps₂ hstore
      obtain ⟨closed, hclosed, hsame, -, -⟩ := hsame
      cases hclose.symm.trans hclosed
      obtain ⟨closed, hclosed, -, hother, -⟩ := hother
      cases hclose.symm.trans hclosed
      refine ⟨t, rfl, (hsame _ hclose₁).2 rfl rfl, ?_⟩
      rw [hother fun closed' hclosed' hequal => ?_]
      · decide +kernel
      · cases hclose₂.symm.trans hclosed'
        exact absurd hequal.1 (by decide +kernel)
    | _ => cases hstored

end Hotswap
