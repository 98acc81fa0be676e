import Hotswap.CoreLibrary
import Hotswap.Proofs.Machine.LiveRun
import Hotswap.Proofs.Machine.Unseen

/-!
# The core library and references

Every host has the core library, and its methods do what they do without regard to where delegates
are in memory (`CoreLibrary.uniform_of_module`). They look at the text of values and compare
references, they read the items of arrays, and they make objects: none of this depends on the
address of a delegate. Nor does any of it leave a reference dangling (`CoreLibrary.live_of_module`).
A host is uniform, and leaves none dangling, if its other modules are like that, too
(`SymbolTable.uniform_of_modules`, `SymbolTable.live_of_modules`).

Programs of the host are taken apart with the rules in the first section.
-/

namespace Hotswap

variable {α : Type} {k : Nat}

/-! ## Programs of the host -/

namespace Host.Shifts

/-- A value that refers to nothing corresponds to itself. -/
theorem done_plain {v : Value} (h : v.IsPlain) : Host.Shifts k (.done v) (.done v) :=
  .done ⟨(h.shift_eq k).symm, h.over⟩

/-- Corresponding accesses to memory correspond. -/
theorem access {f f' : Memory → Value × Memory} (h : ActionShifts k (Value.Shifts k) f f') :
    Host.Shifts k (Host.access f) (Host.access f') :=
  .read fun m m' hm => .write (h m m' hm).2 (.done (h m m' hm).1)

/-- What goes on with a result that does not depend on references goes on alike. -/
theorem ofExcept_same (r : Except Error α) {next next' : α → Host Value}
    (h : ∀ a, Host.Shifts k (next a) (next' a)) :
    Host.Shifts k (Host.ofExcept r >>= next) (Host.ofExcept r >>= next') := by
  cases r with
  | ok a => exact h a
  | error e => exact .fail e

/-- What goes on with answers that correspond goes on alike. -/
theorem ofExcept_value {r r' : Except Error Value} (hr : ShiftsAnswer k r r')
    {next next' : Value → Host Value}
    (h : ∀ v, v.Over TypeName.WellFormed → Host.Shifts k (next v) (next' (v.shift k))) :
    Host.Shifts k (Host.ofExcept r >>= next) (Host.ofExcept r' >>= next') := by
  obtain ⟨rfl, hover⟩ := hr
  cases r with
  | ok v => exact h v (hover v rfl)
  | error e => exact .fail e

end Host.Shifts

namespace Host

/-- A program that only reads, and gives what is no reference. -/
def GivesPlain : Host Value → Prop
  | .done v => v.IsPlain
  | .fail _ => True
  | .read next => ∀ m, (next m).GivesPlain
  | _ => False

/-- A program that gives plain values still does after a result that may be missing. -/
theorem GivesPlain.ofExcept (r : Except Error α) {next : α → Host Value}
    (h : ∀ a, (next a).GivesPlain) : (Host.ofExcept r >>= next).GivesPlain := by
  cases r with
  | ok a => exact h a
  | error e => trivial

/-- A plain value refers to no delegate. -/
theorem GivesPlain.live {p : Host Value} (hp : p.GivesPlain) (m : Memory) : p.Live m := by
  induction p with
  | done v => exact hp.liveBelow _
  | fail e => trivial
  | read next ih => exact ih m (hp m)
  | _ => exact hp.elim

/-- An access to memory that leaves no reference dangling is one of a live program. -/
theorem live_access {m : Memory} (hm : m.Live) {f : Memory → Value × Memory}
    (h : KeepsLive m.delegateCount Value.LiveBelow f) : (Host.access f).Live m :=
  h m hm le_rfl

/-- What goes on with a result leaves no reference dangling if it does so with every result. -/
theorem live_ofExcept {m : Memory} {r : Except Error α} {next : α → Host Value}
    (h : ∀ a, r = .ok a → (next a).Live m) : (Host.ofExcept r >>= next).Live m := by
  cases r with
  | ok a => exact h a rfl
  | error e => trivial

end Host

/-- Code that only reads, and gives what is no reference, leaves none dangling. -/
theorem HostCode.live_of_givesPlain {code : HostCode} (h : ∀ c, (code c).GivesPlain) : code.Live :=
  fun m c _ _ _ => (h c).live m

/-! ## What a method is called with -/

/-- The view of a value that the host has under a type corresponds. -/
theorem HostType.shifts_view (t : HostType) {v : Value} (hv : v.Over TypeName.WellFormed) :
    ShiftsAnswer k (t.view v) (t.view (v.shift k)) := by
  have hnull : ShiftsAnswer k (.ok .null) (.ok .null) := ⟨rfl, answerOver_ok trivial⟩
  induction t with
  | optional t ih =>
    cases v with
    | null => exact hnull
    | _ => exact ih
  | any => exact ⟨rfl, answerOver_ok hv⟩
  | unit => exact hnull
  | int64 =>
    unfold HostType.view
    rw [Value.toInt64?_shift]
    cases v.toInt64? with
    | some n => exact ⟨rfl, answerOver_ok trivial⟩
    | none => exact ⟨by unfold castError; rw [Value.typeName_shift]; rfl, answerOver_error _⟩
  | _ =>
    cases v <;> first
      | exact ⟨rfl, answerOver_ok hv⟩
      | exact ⟨rfl, answerOver_ok trivial⟩
      | exact ⟨rfl, answerOver_error _⟩

namespace HostCall

variable {c : HostCall}

/-- The arguments correspond, and so does the fault of a missing one. -/
theorem shifts_arg (hc : c.Over TypeName.WellFormed) (index : Nat) :
    ShiftsAnswer k (c.arg index) ((c.shift k).arg index) := by
  have hget : (c.shift k).args[index]? = c.args[index]?.map (Value.shift k) := List.getElem?_map
  unfold HostCall.arg
  rw [hget]
  cases harg : c.args[index]? with
  | none => exact ⟨rfl, answerOver_error _⟩
  | some v => exact ⟨rfl, answerOver_ok (hc.args v (List.mem_of_getElem? harg))⟩

/-- So they do under a type of the host. -/
theorem shifts_argAs (hc : c.Over TypeName.WellFormed) (t : HostType) (index : Nat) :
    ShiftsAnswer k (c.argAs t index) ((c.shift k).argAs t index) := by
  unfold HostCall.argAs
  obtain ⟨harg, hover⟩ := shifts_arg (k := k) hc index
  rw [harg]
  cases hfound : c.arg index with
  | error e => exact ⟨rfl, answerOver_error e⟩
  | ok v => exact t.shifts_view (hover v hfound)

/-- So does the receiver. -/
theorem shifts_receiverAs (hc : c.Over TypeName.WellFormed) (t : HostType) :
    ShiftsAnswer k (c.receiverAs t) ((c.shift k).receiverAs t) :=
  t.shifts_view hc.receiver

end HostCall

namespace CoreLibrary

variable {c : HostCall}

/-- An argument that is a string or null is the same. -/
theorem text?_shift (hc : c.Over TypeName.WellFormed) (index : Nat) :
    text? (c.shift k) index = text? c index := by
  unfold text?
  rw [(HostCall.shifts_argAs (k := k) hc (.optional .string) index).1]
  rcases c.argAs (.optional .string) index with e | v
  · rfl
  · cases v <;> rfl

/-- An integer argument is the same. -/
theorem intArg_shift (hc : c.Over TypeName.WellFormed) (index : Nat) :
    intArg (c.shift k) index = intArg c index := by
  unfold intArg
  rw [(HostCall.shifts_argAs (k := k) hc .int32 index).1]
  rcases c.argAs .int32 index with e | v
  · rfl
  · cases v <;> rfl

/-- So is a floating-point one. -/
theorem floatArg_shift (hc : c.Over TypeName.WellFormed) (index : Nat) :
    floatArg (c.shift k) index = floatArg c index := by
  unfold floatArg
  rw [(HostCall.shifts_arg (k := k) hc index).1]
  rcases c.arg index with e | v
  · rfl
  · have hfloat := v.toFloat?_shift k
    rw [show Except.map (Value.shift k) (.ok v : Except Error Value) = .ok (v.shift k) from rfl,
      ok_bind, ok_bind, hfloat]
    rfl

/-- Values are joined to the same text. -/
theorem joined_shift (vs : List Value) : joined (vs.map (Value.shift k)) = joined vs := by
  unfold joined
  rw [List.map_map]
  exact congrArg (fun texts => Value.string (String.join texts))
    (List.map_congr_left fun v _ => v.render_shift k)

/-- A template is filled to the same text. -/
theorem fillTemplate_shift (template : String) (vs : List Value) :
    fillTemplate template (vs.map (Value.shift k)) = fillTemplate template vs := by
  unfold fillTemplate
  rw [List.zipIdx_map, List.foldl_map]
  refine congrArg (fun step => vs.zipIdx.foldl step template)
    (funext fun text => funext fun e => ?_)
  show Text.replaceAll _ (e.1.shift k).render text = Text.replaceAll _ e.1.render text
  rw [Value.render_shift]
  rfl

/-! ## The methods -/

/-- The name of the type of objects can be read. -/
theorem wellFormed_object : (TypeName.plain "System.Object").WellFormed :=
  have hparse : TypeName.parse "System.Object" = .ok (.plain "System.Object") := by decide +kernel
  TypeName.wellFormed_of_parse hparse

/-- So can that of exceptions. -/
theorem wellFormed_exception : (TypeName.plain "System.Exception").WellFormed :=
  have hparse : TypeName.parse "System.Exception" = .ok (.plain "System.Exception") := by
    decide +kernel
  TypeName.wellFormed_of_parse hparse

/-- The constructor of objects does not see addresses. -/
theorem uniform_newObject : HostCode.Uniform newObject := by
  rintro k ⟨signature, context, receiver, args⟩ -
  cases receiver with
  | null => exact .access (actionShifts_newObject wellFormed_object)
  | _ => exact .done_plain trivial

/-- Neither does the text of a value. -/
theorem uniform_toText : HostCode.Uniform toText := by
  intro k c _
  show Host.Shifts k (.done (.string c.receiver.render))
    (.done (.string (c.receiver.shift k).render))
  rw [Value.render_shift]
  exact .done_plain trivial

/-- Neither does the equality of two. -/
theorem uniform_equals : HostCode.Uniform equals := by
  intro k c hc
  refine .ofExcept_value (HostCall.shifts_arg hc 0) fun v _ => ?_
  show Host.Shifts k _ (.done (.bool ((c.receiver.shift k).isSame (v.shift k))))
  rw [Value.isSame_shift]
  exact .done_plain trivial

/-- Neither does the constructor of exceptions. -/
theorem uniform_newException : HostCode.Uniform newException := by
  intro k c hc
  refine .ofExcept_value (HostCall.shifts_arg hc 0) fun message hmessage => ?_
  have hobject : ActionShifts k (Value.Shifts k)
      (fun m =>
        let made := m.heap.newObject (.plain "System.Exception")
          { fields := (∅ : Table String Value).insert "message" message }
        (.object made.1, { m with heap := made.2 }))
      (fun m =>
        let made := m.heap.newObject (.plain "System.Exception")
          { fields := (∅ : Table String Value).insert "message" (message.shift k) }
        (.object made.1, { m with heap := made.2 })) := by
    intro m m' hm
    obtain ⟨hr, hheap⟩ := hm.heap.newObject (.plain "System.Exception")
      { fields := (∅ : Table String Value).insert "message" message }
    have hreadable := hm.readable.heap
    exact ⟨⟨congrArg Value.object hr, wellFormed_exception⟩, hm.withHeap hheap
      ⟨hreadable.types.newObject _ (Table.Holds.insert .empty hmessage), hreadable.locals⟩⟩
  obtain ⟨signature, context, receiver, args⟩ := c
  cases receiver with
  | object r =>
    refine .access fun m m' hm => ?_
    have hreadable := hm.readable.heap
    exact ⟨⟨rfl, trivial⟩, hm.withHeap (hm.heap.setField r "message" message)
      ⟨hreadable.types.setField r "message" hmessage, hreadable.locals⟩⟩
  | _ => exact .access hobject

/-- Neither does joining texts. -/
theorem uniform_concat : HostCode.Uniform concat := by
  intro k c _
  show Host.Shifts k (.done (joined c.args)) (.done (joined (c.args.map (Value.shift k))))
  rw [joined_shift]
  exact .done_plain trivial

/-- Neither does joining the items of an array. -/
theorem uniform_concatItems : HostCode.Uniform concatItems := by
  intro k c hc
  refine .ofExcept_value (HostCall.shifts_argAs hc .array 0) fun v _ => ?_
  cases v with
  | array r =>
    refine .read fun m m' hm => ?_
    show Host.Shifts k (.done (joined (m.heap.items r).toList))
      (.done (joined (m'.heap.items r).toList))
    rw [hm.heap.items, Array.toList_map, joined_shift]
    exact .done_plain trivial
  | _ => exact .fail _

/-- Neither does the length of a text. -/
theorem uniform_length : HostCode.Uniform length := by
  intro k c hc
  refine .ofExcept_value (HostCall.shifts_receiverAs hc .string) fun v _ => ?_
  cases v with
  | string s => exact .done_plain trivial
  | _ => exact .fail _

/-- Neither does the test for an empty one. -/
theorem uniform_isNullOrEmpty : HostCode.Uniform isNullOrEmpty := by
  intro k c hc
  unfold isNullOrEmpty
  rw [text?_shift hc]
  exact .ofExcept_same _ fun _ => .done_plain trivial

/-- Neither does the equality of texts. -/
theorem uniform_sameText : HostCode.Uniform sameText := by
  intro k c hc
  unfold sameText
  rw [text?_shift hc, text?_shift hc]
  exact .ofExcept_same _ fun _ => .ofExcept_same _ fun _ => .done_plain trivial

/-- Neither does filling a template. -/
theorem uniform_format : HostCode.Uniform format := by
  intro k c hc
  refine .ofExcept_value (HostCall.shifts_argAs hc .string 0) fun v _ => ?_
  cases v with
  | string template =>
    show Host.Shifts k (.done (.string (fillTemplate template c.args.tail)))
      (.done (.string (fillTemplate template (c.args.map (Value.shift k)).tail)))
    rw [← List.map_tail, fillTemplate_shift]
    exact .done_plain trivial
  | _ => exact .fail _

/-- Neither does the absolute value. -/
theorem uniform_absolute : HostCode.Uniform absolute := by
  intro k c hc
  unfold absolute
  rw [intArg_shift hc]
  refine .ofExcept_same _ fun n => ?_
  split
  · exact .fail _
  · exact .done_plain trivial

/-- Neither does any function of integers. -/
theorem uniform_ofInts (f : Int32 → Int32 → Int32) : HostCode.Uniform (ofInts f) := by
  intro k c hc
  unfold ofInts
  rw [intArg_shift hc, intArg_shift hc]
  exact .ofExcept_same _ fun _ => .ofExcept_same _ fun _ => .done_plain trivial

/-- Neither does any of a floating-point number. -/
theorem uniform_ofFloat (f : Float → Float) : HostCode.Uniform (ofFloat f) := by
  intro k c hc
  unfold ofFloat
  rw [floatArg_shift hc]
  exact .ofExcept_same _ fun _ => .done_plain trivial

/-- Neither does any of two. -/
theorem uniform_ofFloats (f : Float → Float → Float) : HostCode.Uniform (ofFloats f) := by
  intro k c hc
  unfold ofFloats
  rw [floatArg_shift hc, floatArg_shift hc]
  exact .ofExcept_same _ fun _ => .ofExcept_same _ fun _ => .done_plain trivial

/-! ### References that they leave -/

/-- The constructor of objects leaves no reference dangling. -/
theorem live_newObject : HostCode.Live newObject := by
  rintro m ⟨signature, context, receiver, args⟩ hm - -
  cases receiver with
  | null => exact Host.live_access hm (keepsLive_newObject _)
  | _ => exact trivial

/-- Neither does the constructor of exceptions. -/
theorem live_newException : HostCode.Live newException := by
  intro m c hm _ hargs
  refine Host.live_ofExcept fun message hmessage => ?_
  have hlive : message.LiveBelow m.delegateCount := by
    unfold HostCall.arg at hmessage
    split at hmessage
    · rename_i v hv
      exact Except.ok.inj hmessage ▸ hargs v (List.mem_of_getElem? hv)
    · cases hmessage
  obtain ⟨signature, context, receiver, args⟩ := c
  cases receiver with
  | object r =>
    refine Host.live_access hm fun m' hm' hn => ?_
    have hheap := hm'.heap.setField r "message" (hlive.mono hn)
    exact ⟨hm'.withHeap hheap le_rfl, le_rfl, trivial⟩
  | _ =>
    refine Host.live_access hm fun m' hm' hn => ?_
    let content : Instance := { fields := (∅ : Table String Value).insert "message" message }
    have hcontent : content.fields.Holds (Value.LiveBelow m'.delegateCount) :=
      Table.Holds.insert .empty (hlive.mono hn)
    have hheap := hm'.heap.newObject (.plain "System.Exception") hcontent
    exact ⟨hm'.withHeap hheap le_rfl, le_rfl, trivial⟩

/-- The text of a value is plain. -/
theorem live_toText : HostCode.Live toText := HostCode.live_of_givesPlain fun _ => trivial

/-- So is the equality of two. -/
theorem live_equals : HostCode.Live equals :=
  HostCode.live_of_givesPlain fun _ => .ofExcept _ fun _ => trivial

/-- So are texts that are joined. -/
theorem live_concat : HostCode.Live concat := HostCode.live_of_givesPlain fun _ => trivial

/-- So are the items of an array that are joined. -/
theorem live_concatItems : HostCode.Live concatItems :=
  HostCode.live_of_givesPlain fun _ => .ofExcept _ fun v => by
    cases v with
    | array r => exact fun _ => trivial
    | _ => exact trivial

/-- So is the length of a text. -/
theorem live_length : HostCode.Live length :=
  HostCode.live_of_givesPlain fun _ => .ofExcept _ fun v => by cases v <;> trivial

/-- So is the test for an empty one. -/
theorem live_isNullOrEmpty : HostCode.Live isNullOrEmpty :=
  HostCode.live_of_givesPlain fun _ => .ofExcept _ fun _ => trivial

/-- So is the equality of texts. -/
theorem live_sameText : HostCode.Live sameText :=
  HostCode.live_of_givesPlain fun _ => .ofExcept _ fun _ => .ofExcept _ fun _ => trivial

/-- So is a template that is filled. -/
theorem live_format : HostCode.Live format :=
  HostCode.live_of_givesPlain fun _ => .ofExcept _ fun v => by cases v <;> trivial

/-- So is the absolute value. -/
theorem live_absolute : HostCode.Live absolute :=
  HostCode.live_of_givesPlain fun _ => .ofExcept _ fun n => by split <;> trivial

/-- So is what a function of integers gives. -/
theorem live_ofInts (f : Int32 → Int32 → Int32) : HostCode.Live (ofInts f) :=
  HostCode.live_of_givesPlain fun _ => .ofExcept _ fun _ => .ofExcept _ fun _ => trivial

/-- So is what one of a floating-point number gives. -/
theorem live_ofFloat (f : Float → Float) : HostCode.Live (ofFloat f) :=
  HostCode.live_of_givesPlain fun _ => .ofExcept _ fun _ => trivial

/-- So is what one of two gives. -/
theorem live_ofFloats (f : Float → Float → Float) : HostCode.Live (ofFloats f) :=
  HostCode.live_of_givesPlain fun _ => .ofExcept _ fun _ => .ofExcept _ fun _ => trivial

end CoreLibrary

/-! ## The module -/

/-- Every type, method and field of a module is as the predicates say. -/
structure Module.Holds (T : TypeDefinition → Prop) (C : HostCode → Prop) (A : Accessor → Prop)
    (m : Module) : Prop where
  /-- Every type is. -/
  types : m.types.Holds T
  /-- The code of every method is. -/
  methods : m.methods.Holds fun d => C d.code
  /-- Every field is. -/
  fields : m.fields.Holds A

namespace Module.Holds

variable {T : TypeDefinition → Prop} {C : HostCode → Prop} {A : Accessor → Prop} {m m' : Module}

/-- A module with more types holds what each of them does. -/
theorem addTypes (hm : m.Holds T C A) {ds : List TypeDefinition} (hds : ∀ d ∈ ds, T d) :
    (ds.foldl Module.addType m).Holds T C A := by
  induction ds generalizing m with
  | nil => exact hm
  | cons d rest ih =>
    obtain ⟨hd, hrest⟩ := List.forall_mem_cons.1 hds
    exact ih ⟨hm.types.insert hd, hm.methods, hm.fields⟩ hrest

/-- So does one with another method. -/
theorem addMethod (hm : m.Holds T C A) {reference : String} {isStatic : Bool} {code : HostCode}
    (hcode : C code) (h : m.addMethod reference isStatic code = .ok m') : m'.Holds T C A := by
  unfold Module.addMethod at h
  obtain ⟨ref, -, h⟩ := bind_eq_ok.1 h
  dsimp only at h
  split at h
  · split at h
    · cases h
    · cases h
      exact ⟨hm.types, hm.methods.insert hcode, hm.fields⟩
  · cases h

/-- So does one with several. -/
theorem addMethods (hm : m.Holds T C A) {isStatic : Bool} {es : List (String × HostCode)}
    (hes : ∀ e ∈ es, C e.2) (h : es.foldlM (fun m e => m.addMethod e.1 isStatic e.2) m = .ok m') :
    m'.Holds T C A := by
  induction es generalizing m with
  | nil =>
    cases h
    exact hm
  | cons e rest ih =>
    obtain ⟨he, hrest⟩ := List.forall_mem_cons.1 hes
    rw [List.foldlM_cons] at h
    obtain ⟨m₁, hadd, h⟩ := bind_eq_ok.1 h
    exact ih (hm.addMethod he hadd) hrest h

end Module.Holds

namespace CoreLibrary

/-- The values of a type start at a fixed one that refers to nothing, or as its kind has it. -/
def StartsPlain (d : TypeDefinition) : Prop :=
  d.initial = none ∨ ∃ v : Value, v.IsPlain ∧ d.initial = some (pure v)

/-- The types of the library start with plain values, if they have a value of their own. -/
theorem startsPlain_of_mem_types {d : TypeDefinition} (hd : d ∈ types) : StartsPlain d := by
  have hvalue : ∀ {name v base}, Value.IsPlain v → StartsPlain (valueType name v base) :=
    fun h => .inr ⟨_, h, rfl⟩
  have hclasses : ∀ d ∈ classes, StartsPlain d := by
    have hnull : Value.null.IsPlain := trivial
    simp only [classes, List.forall_mem_cons]
    exact ⟨.inl rfl, .inl rfl, .inl rfl, .inl rfl, .inl rfl, .inl rfl, .inl rfl, .inl rfl,
      .inl rfl, hvalue hnull, hvalue hnull, nofun⟩
  have hprimitives : ∀ p ∈ primitives, p.2.IsPlain := by simp [primitives, Value.IsPlain]
  rcases List.mem_append.1 hd with hd | hd
  · rcases List.mem_append.1 hd with hd | hd
    · exact hclasses d hd
    · obtain ⟨p, hp, rfl⟩ := List.mem_map.1 hd
      exact hvalue (hprimitives p hp)
  · obtain ⟨name, -, rfl⟩ := List.mem_map.1 hd
    exact .inl rfl

/-- The library holds what each of its types and each of its pieces of code does. -/
theorem holds_of_module {T : TypeDefinition → Prop} {C : HostCode → Prop} {A : Accessor → Prop}
    (htypes : ∀ d ∈ types, T d) (hnewObject : C newObject) (htoText : C toText) (hequals : C equals)
    (hnewException : C newException) (hlength : C length) (hconcat : C concat)
    (hconcatItems : C concatItems) (hisNullOrEmpty : C isNullOrEmpty) (hsameText : C sameText)
    (hformat : C format) (habsolute : C absolute) (hofInts : ∀ f, C (ofInts f))
    (hofFloat : ∀ f, C (ofFloat f)) (hofFloats : ∀ f, C (ofFloats f)) {m : Module}
    (h : CoreLibrary.module = .ok m) : m.Holds T C A := by
  have hinstances : ∀ e ∈ instanceMethods, C e.2 := by
    simp only [instanceMethods, List.forall_mem_cons]
    exact ⟨hnewObject, htoText, hequals, hnewException, hlength, htoText, htoText, htoText,
      htoText, htoText, nofun⟩
  have hstatics : ∀ e ∈ staticMethods, C e.2 := by
    simp only [staticMethods, List.forall_mem_cons]
    exact ⟨hconcat, hconcat, hconcat, hconcat, hconcat, hconcat, hconcatItems, hisNullOrEmpty,
      hsameText, hformat, hformat, habsolute, hofInts _, hofInts _, hofFloat _, hofFloats _,
      hofFloats _, hofFloat _, hofFloats _, hofFloat _, hofFloat _, hofFloat _, nofun⟩
  obtain ⟨m₁, hinstance, hstatic⟩ := bind_eq_ok.1 h
  have hempty : Module.Holds T C A { name := "System" } := ⟨.empty, .empty, .empty⟩
  exact ((hempty.addTypes htypes).addMethods hinstances hinstance).addMethods hstatics hstatic

/-- **The core library does not see the addresses of delegates.** -/
theorem uniform_of_module {m : Module} (h : CoreLibrary.module = .ok m) : m.Uniform := by
  have htypes : ∀ d ∈ types, d.Uniform := by
    intro d hd initial hinitial k m m' hm
    rcases startsPlain_of_mem_types hd with hnone | ⟨v, hv, hsome⟩
    · cases hnone.symm.trans hinitial
    · cases hsome.symm.trans hinitial
      exact ⟨⟨(hv.shift_eq k).symm, hv.over⟩, hm⟩
  have hholds : m.Holds TypeDefinition.Uniform HostCode.Uniform Accessor.Uniform :=
    holds_of_module htypes uniform_newObject uniform_toText uniform_equals uniform_newException
      uniform_length uniform_concat uniform_concatItems uniform_isNullOrEmpty uniform_sameText
      uniform_format uniform_absolute uniform_ofInts uniform_ofFloat uniform_ofFloats h
  exact ⟨hholds.types, hholds.methods, hholds.fields⟩

/-- **The core library leaves no reference dangling.** -/
theorem live_of_module {m : Module} (h : CoreLibrary.module = .ok m) : m.Live := by
  have htypes : ∀ d ∈ types, d.Live := by
    intro d hd initial hinitial m hm _
    rcases startsPlain_of_mem_types hd with hnone | ⟨v, hv, hsome⟩
    · cases hnone.symm.trans hinitial
    · cases hsome.symm.trans hinitial
      exact ⟨hm, le_rfl, hv.liveBelow _⟩
  have hholds : m.Holds TypeDefinition.Live HostCode.Live Accessor.Live :=
    holds_of_module htypes live_newObject live_toText live_equals live_newException live_length
      live_concat live_concatItems live_isNullOrEmpty live_sameText live_format live_absolute
      live_ofInts live_ofFloat live_ofFloats h
  exact ⟨hholds.types, hholds.methods, hholds.fields⟩

end CoreLibrary

end Hotswap
