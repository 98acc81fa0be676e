import Hotswap.Proofs.Machine.Fields
import Mathlib

/-!
# New arrays

A new array is filled from the default of the type of its items, which is made once. If the default
is an object, each item is an object of its own of the same class, and has no fields and no payload.
Any other default stands at every position as it is.

`step_newArray` says what comes of that: the array has the length that was asked for, and its items
look like the default and are apart from each other exactly if there are none, or the default is
one of the following: an object without fields and payload, an array that is needed once, or no
reference to an object or an array.
-/

namespace Hotswap

open FrameAction

variable {scope : Scope} {callee : Callee} {f : Frame} {s : State}

/-! ## The items -/

/-- The state with objects without fields added to the heap. -/
def State.addObjects (s : State) (count : Nat) : State :=
  { s with memory := { s.memory with heap := { s.memory.heap with
      objects := s.memory.heap.objects ++ Array.replicate count {} } } }

/-- References to objects of a class at consecutive addresses. -/
def consecutive (type : TypeName) (first count : Nat) : Array Value :=
  (Array.range count).map fun k => .object ⟨first + k, type⟩

/-- One reference more is to the next address. -/
theorem consecutive_succ (type : TypeName) (first count : Nat) :
    consecutive type first (count + 1) =
      (consecutive type first count).push (.object ⟨first + count, type⟩) := by
  simp [consecutive, Array.range_succ]

/-- For a default that is an object, every item is a new object of its class. -/
theorem freshItems_object (r : ObjectRef) (count : Nat) (s : State) :
    Step.freshItems (.object r) count s =
      (.ok (consecutive r.type s.memory.heap.objects.size count), s.addObjects count) := by
  induction count with
  | zero =>
    have hstate : s.addObjects 0 = s := by
      unfold State.addObjects
      rw [Array.replicate_zero, Array.append_empty]
    have hitems : consecutive r.type s.memory.heap.objects.size 0 = #[] := by simp [consecutive]
    rw [hstate, hitems]
    rfl
  | succ count ih =>
    have hstate : (s.addObjects count).memory.heap.newObject r.type {} =
        (⟨s.memory.heap.objects.size + count, r.type⟩, (s.addObjects (count + 1)).memory.heap) := by
      unfold State.addObjects Heap.newObject
      simp [Array.replicate_succ]
    rw [Step.freshItems, Machine.bind_apply, ih, consecutive_succ]
    show ((Except.ok ((consecutive r.type s.memory.heap.objects.size count).push
      (.object ((s.addObjects count).memory.heap.newObject r.type {}).1)) :
        Except Stop (Array Value)), { s.addObjects count with
          memory := { (s.addObjects count).memory with
            heap := ((s.addObjects count).memory.heap.newObject r.type {}).2 } }) = _
    rw [hstate]
    rfl

/-- Any other default is the item at every position. -/
theorem freshItems_value {fill : Value} (h : ∀ r, fill ≠ .object r) (count : Nat) (s : State) :
    Step.freshItems fill count s = (.ok (Array.replicate count fill), s) := by
  induction count with
  | zero => rfl
  | succ count ih =>
    rw [Step.freshItems, Machine.bind_apply, ih]
    dsimp only
    split
    · exact absurd rfl (h _)
    · rw [Array.replicate_succ]
      rfl

/-! ## What items look like -/

/-- Two values of two heaps that look alike: the same tag, and for objects the same class, the same
fields and a payload in both or in neither, for arrays the same type of items and the same items. -/
def LooksLike (h h' : Heap) : Value → Value → Prop
  | .object r, .object r' => r.type = r'.type ∧ (h.content r).fields = (h'.content r').fields ∧
      (h.content r).payload.isSome = (h'.content r').payload.isSome
  | .array r, .array r' => r.element = r'.element ∧ h.items r = h'.items r'
  | v, w => v = w

/-- A reference to an object or to an array. -/
def Value.IsObjectOrArray : Value → Prop
  | .object _ | .array _ => True
  | _ => False

/-- Values of which no two are one reference to an object or an array. -/
def Apart (items : Array Value) : Prop :=
  items.toList.Pairwise fun v w => v.IsObjectOrArray → v.isSame w = false

/-- The array that a reference is to is there, if it is one. -/
def Heap.HasArray (h : Heap) : Value → Prop
  | .array r => r.address < h.arrays.size
  | _ => True

/-- A default that every item can start as: an object without fields and payload, an array if there
is no more than one item, or a value that is no reference to an object or an array. -/
def Heap.Fills (h : Heap) (count : Nat) : Value → Prop
  | .object r => (h.content r).fields = ∅ ∧ (h.content r).payload = none
  | .array _ => count ≤ 1
  | _ => True

/-- Objects at different addresses are not one. -/
theorem isSame_consecutive (type : TypeName) {i j : Nat} (h : i ≠ j) (first : Nat) :
    (Value.object ⟨first + i, type⟩).isSame (.object ⟨first + j, type⟩) = false := by
  show (first + i == first + j) = false
  rw [beq_eq_false_iff_ne]
  omega

/-- So objects at consecutive addresses are apart. -/
theorem apart_consecutive (type : TypeName) (first count : Nat) :
    Apart (consecutive type first count) := by
  unfold Apart consecutive
  rw [Array.toList_map, List.pairwise_map, Array.toList_range]
  refine (List.nodup_range).imp fun hne _ => ?_
  exact isSame_consecutive type hne first

/-- The items of a new array look like an object exactly if that has no fields and no payload. -/
theorem looksLike_consecutive_iff (r : ObjectRef) (count : Nat) {h : Heap}
    (hobjects : h.objects = s.memory.heap.objects ++ Array.replicate count ({} : Instance)) :
    (∀ v ∈ consecutive r.type s.memory.heap.objects.size count,
      LooksLike h s.memory.heap v (.object r)) ↔
        count = 0 ∨ s.memory.heap.Fills count (.object r) := by
  have hbare : ∀ k, k < count →
      h.content ⟨s.memory.heap.objects.size + k, r.type⟩ = {} := by
    intro k hk
    unfold Heap.content
    rw [hobjects]
    simp [Array.getD_eq_getD_getElem?, hk]
  have hitem : ∀ k, k < count → (LooksLike h s.memory.heap
      (.object ⟨s.memory.heap.objects.size + k, r.type⟩) (.object r) ↔
        s.memory.heap.Fills count (.object r)) := by
    intro k hk
    unfold LooksLike Heap.Fills
    dsimp only
    rw [hbare k hk]
    refine ⟨fun hlooks => ⟨hlooks.2.1.symm, ?_⟩, fun hfills => ⟨rfl, hfills.1.symm, ?_⟩⟩
    · exact Option.isSome_eq_false_iff.1 hlooks.2.2.symm |> Option.isNone_iff_eq_none.1
    · rw [hfills.2]
  unfold consecutive
  simp only [Array.mem_map, Array.mem_range, forall_exists_index, and_imp,
    forall_apply_eq_imp_iff₂]
  constructor
  · intro hall
    cases count with
    | zero => exact .inl rfl
    | succ count =>
      have hpos : 0 < count + 1 := Nat.zero_lt_succ count
      exact .inr ((hitem 0 hpos).1 (hall 0 hpos))
  · rintro (rfl | hfills) k hk
    · exact absurd hk (Nat.not_lt_zero k)
    · exact (hitem k hk).2 hfills

/-- A value that is no object looks like itself in two heaps, if an array has the same items. -/
theorem looksLike_replicate {h h' : Heap} {fill : Value} (count : Nat)
    (hobject : ∀ r, fill ≠ .object r) (harray : ∀ r, fill = .array r → h.items r = h'.items r) :
    ∀ v ∈ Array.replicate count fill, LooksLike h h' v fill := by
  intro v hv
  obtain rfl := Array.eq_of_mem_replicate hv
  cases v with
  | object r => exact absurd rfl (hobject r)
  | array r => exact ⟨rfl, harray r rfl⟩
  | _ =>
    unfold LooksLike
    rfl

/-- One value at every position is apart from itself unless it is an array that is there twice. -/
theorem apart_replicate_iff {fill : Value} (h : Heap) (count : Nat)
    (hobject : ∀ r, fill ≠ .object r) :
    Apart (Array.replicate count fill) ↔ count = 0 ∨ h.Fills count fill := by
  unfold Apart
  rw [Array.toList_replicate, List.pairwise_replicate]
  cases fill with
  | object r => exact absurd rfl (hobject r)
  | array r =>
    have hself :
        ¬((Value.array r).IsObjectOrArray → (Value.array r).isSame (.array r) = false) := by
      intro hsame
      have hne : (r.address == r.address) = false := hsame trivial
      rw [beq_self_eq_true] at hne
      cases hne
    rw [or_iff_left hself]
    unfold Heap.Fills
    omega
  | _ => exact iff_of_true (.inr nofun) (.inr trivial)

/-! ## The instruction -/

/-- Making an array leaves the arrays that are there alone. -/
theorem Heap.items_newArray_of_lt (h : Heap) (element : TypeName) (items : Array Value)
    {r : ArrayRef} (hr : r.address < h.arrays.size) :
    (h.newArray element items).2.items r = h.items r := by
  have hne : r.address ≠ h.arrays.size := Nat.ne_of_lt hr
  simp [Heap.newArray, Heap.items, Array.getD_eq_getD_getElem?, Array.getElem?_push, hne]

/-- An array is made in three steps: the default of its items, the items, the array. -/
theorem makeArray_apply {element : TypeName} {n : Int64} {fill : Value} {items : Array Value}
    {s₁ s₂ : State} (hpos : 0 ≤ n) (hfill : scope.defaultValue element s = (.ok fill, s₁))
    (hitems : Step.freshItems fill n.toNatClampNeg s₁ = (.ok items, s₂)) :
    Step.makeArray scope element n s = (.ok (.array (s₂.memory.heap.newArray element items).1),
      { s₂ with memory := { s₂.memory with
        heap := (s₂.memory.heap.newArray element items).2 } }) := by
  unfold Step.makeArray
  rw [if_neg (Int64.not_lt.2 hpos), Machine.bind_apply, hfill]
  dsimp only
  rw [Machine.bind_apply, hitems]
  rfl

/-- The instruction takes the length from the stack and the item type from its text. -/
theorem step_newArray_apply {i : Instruction} {text : String} {t element : TypeName}
    {length : Value} {n : Int64} (hop : i.opcode.action = .effect .newArray)
    (hi : i.operand = .type text) (hparse : TypeName.parse text = .ok t)
    (hclose : f.context.close t = .ok element) (hn : length.integer? = some n) :
    step scope callee i (f.pushed length) = (do
      return (.next, f.pushed (← Step.makeArray scope element n)) : Machine (Flow × Frame)) := by
  have htype : typeOperand i f = (pure (element, f) : Machine (TypeName × Frame)) := by
    unfold typeOperand closedType
    rw [hi]
    dsimp only
    rw [hparse]
    show ofExcept (f.context.close t) f = _
    rw [hclose]
    rfl
  have hlength : Step.integerFor "newarr" length = .ok n := by
    unfold Step.integerFor
    rw [hn]
  unfold step
  rw [hop]
  show ((typeOperand i >>= fun element => ofExcept (Step.integerFor "newarr" length) >>= fun n =>
    ofMachine (Step.makeArray scope element n) >>= push) >>= fun _ => pure Flow.next :
      FrameAction Flow) f = _
  rw [bind_assoc]
  show (typeOperand i f >>= _ : Machine _) = _
  rw [htype, pure_bind, hlength]
  show ((ofMachine (Step.makeArray scope element n) >>= push) f >>= _ : Machine _) = _
  rw [ofMachine_push, bind_assoc]
  rfl

/-- **A new array.** With an item type that has a default and a length that is not negative, the
instruction pushes an array of that type and length. Its items look like the default and are apart
from each other exactly if there are none, or the default is one that they can all start as. -/
theorem step_newArray {i : Instruction} {text : String} {type element : TypeName}
    {length fill : Value} {n : Int64} {s₁ : State} (hop : i.opcode.action = .effect .newArray)
    (hi : i.operand = .type text) (hparse : TypeName.parse text = .ok type)
    (hclose : f.context.close type = .ok element) (hn : length.integer? = some n) (hpos : 0 ≤ n)
    (hfill : scope.defaultValue element s = (.ok fill, s₁))
    (hthere : s₁.memory.heap.HasArray fill) :
    ∃ r t, step scope callee i (f.pushed length) s = (.ok (.next, f.pushed (.array r)), t) ∧
      r.element = element ∧ ((t.memory.heap.items r).size : Int) = n.toInt ∧
      ((∀ v ∈ t.memory.heap.items r, LooksLike t.memory.heap s₁.memory.heap v fill) ∧
        Apart (t.memory.heap.items r) ↔
          n = 0 ∨ s₁.memory.heap.Fills n.toNatClampNeg fill) := by
  have hrun : ∀ {items : Array Value} {s₂ : State},
      Step.freshItems fill n.toNatClampNeg s₁ = (.ok items, s₂) →
      step scope callee i (f.pushed length) s = (.ok (.next, f.pushed (.array
        (s₂.memory.heap.newArray element items).1)), { s₂ with memory := { s₂.memory with
          heap := (s₂.memory.heap.newArray element items).2 } }) := by
    intro items s₂ hitems
    rw [step_newArray_apply hop hi hparse hclose hn, Machine.bind_apply,
      makeArray_apply hpos hfill hitems]
    rfl
  have hint : 0 ≤ n.toInt := by simpa [Int64.le_iff_toInt_le] using hpos
  have hcount : (n.toNatClampNeg : Int) = n.toInt := by
    rw [← Int64.toNat_toInt]
    exact Int.toNat_of_nonneg hint
  have hzero : n.toNatClampNeg = 0 ↔ n = 0 := by
    rw [← Int64.toInt_inj, ← hcount]
    exact Int.natCast_eq_zero.symm
  have hmade : ∀ (s₂ : State) (items : Array Value),
      (s₂.memory.heap.newArray element items).2.items
        (s₂.memory.heap.newArray element items).1 = items := fun s₂ items => by
    simp [Heap.newArray, Heap.items, Array.getD_eq_getD_getElem?]
  rw [← hzero]
  by_cases hobject : ∃ r, fill = .object r
  · obtain ⟨r, rfl⟩ := hobject
    refine ⟨_, _, hrun (freshItems_object r _ s₁), rfl, ?_, ?_⟩
    · rw [hmade, ← hcount]
      simp [consecutive]
    · rw [hmade, and_iff_left (apart_consecutive _ _ _)]
      exact looksLike_consecutive_iff r _ rfl
  · have hvalue : ∀ r, fill ≠ .object r := fun r hr => hobject ⟨r, hr⟩
    refine ⟨_, _, hrun (freshItems_value hvalue _ s₁), rfl, ?_, ?_⟩
    · rw [hmade, ← hcount, Array.size_replicate]
    · have hitems : ∀ r, fill = .array r → (s₁.memory.heap.newArray element
          (Array.replicate n.toNatClampNeg fill)).2.items r = s₁.memory.heap.items r := by
        rintro r rfl
        exact s₁.memory.heap.items_newArray_of_lt element _ hthere
      rw [hmade, and_iff_right (looksLike_replicate _ hvalue hitems)]
      exact apart_replicate_iff s₁.memory.heap _ hvalue

/-! ### Points that start with a coordinate -/

/-- Makes a point with a coordinate. -/
def makePoint : StateM Memory Value := fun m =>
  let (r, heap) := m.heap.newObject (.plain "Game.Point") { fields := .ofList [("X", .int32 5)] }
  (.object r, { m with heap })

/-- A host whose points start with a coordinate. -/
def pointScope : Scope where
  symbols := {
    modules := [{
      name := "Game"
      types := .ofList [("Game.Point", { name := "Game.Point", kind := .valueType
                                         initial := some makePoint })] }] }
  catalogue := ∅

/-- A variable starts with the coordinate, and the two items of a new array without it. -/
theorem step_newArray_bare :
    ∃ p s₁ r t, pointScope.defaultValue (.plain "Game.Point") {} = (.ok (.object p), s₁) ∧
      step pointScope (call pointScope 0) ⟨.newarr, .type "Game.Point", none⟩
          (emptyFrame.pushed (.int32 2)) {} =
        (.ok (.next, emptyFrame.pushed (.array r)), t) ∧
      (t.memory.heap.items r).size = 2 ∧
      ¬((∀ v ∈ t.memory.heap.items r,
          LooksLike t.memory.heap s₁.memory.heap v (.object p)) ∧
        Apart (t.memory.heap.items r)) := by
  have hdefault : (pointScope.defaultValue (.plain "Game.Point") {}).1 =
      .ok (.object ⟨0, .plain "Game.Point"⟩) := by decide +kernel
  have hfields : ((pointScope.defaultValue (.plain "Game.Point") {}).2.memory.heap.content
      ⟨0, .plain "Game.Point"⟩).fields ≠ ∅ := by decide +kernel
  generalize hfill : pointScope.defaultValue (.plain "Game.Point") {} = made at hdefault hfields
  obtain ⟨fill, s₁⟩ := made
  dsimp only at hdefault hfields
  subst hdefault
  have hparse : TypeName.parse "Game.Point" = .ok (.plain "Game.Point") := by decide +kernel
  have hclose : emptyFrame.context.close (.plain "Game.Point") = .ok (.plain "Game.Point") := by
    decide +kernel
  obtain ⟨r, t, hstep, -, hsize, hitems⟩ := @step_newArray pointScope (call pointScope 0)
    emptyFrame {} ⟨.newarr, .type "Game.Point", none⟩ _ _ _ (.int32 2) _ 2 s₁ rfl rfl hparse hclose
    rfl (by decide) hfill trivial
  have htwo : (2 : Int64).toInt = 2 := by decide
  rw [htwo] at hsize
  refine ⟨_, s₁, r, t, rfl, hstep, by exact_mod_cast hsize, ?_⟩
  rw [hitems]
  rintro (hzero | hfills)
  · exact absurd hzero (by decide)
  · exact hfields hfills.1

end Hotswap
