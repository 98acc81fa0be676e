import Hotswap.Proofs.Machine.Comparisons
import Hotswap.Proofs.Machine.Delegates
import Hotswap.Proofs.Machine.Expression

/-!
# A loop over an array

A method with a loop: it adds up an array of integers, with a local for the total, a local for the
index and a conditional branch back. Main statement (`invoke_arraySum`): for every array of fewer
than `2 ^ 31` integers the invocation ends, gives the sum modulo `2 ^ 32`, and leaves the array as
it is.

The run is cut at the two places that control jumps to, the body of the loop and its condition.
`Goes` says that control comes from one place to another in a number of rounds, and the pieces are
put together with `Goes.trans`. In a piece each line shows the locals and the stack after one
instruction.

The invariant is that at the condition the stack is empty, the first local is the total of the items
before the index, and the second local is the index. One turn of the loop keeps it (`goes_turn`),
and `goes_items` takes the turns until no item is left.
-/

namespace Hotswap

open FrameAction

/-! ## Pieces of a run -/

section pieces

variable {scope : Scope} {callee : Callee}

/-- Control comes from one frame to another in a number of rounds. -/
def Goes (scope : Scope) (callee : Callee) (count : Nat) (x y : Frame × State) : Prop :=
  ∀ fuel, loop scope callee (fuel + count) x.1 x.2 = loop scope callee fuel y.1 y.2

/-- Rounds can be put one after the other. -/
theorem Goes.trans {m n : Nat} {x y z : Frame × State} (h : Goes scope callee m x y)
    (h' : Goes scope callee n y z) : Goes scope callee (m + n) x z := by
  intro fuel
  rw [Nat.add_comm m n, ← Nat.add_assoc, h, h']

instance {m n : Nat} :
    Trans (Goes scope callee m) (Goes scope callee n) (Goes scope callee (m + n)) :=
  ⟨Goes.trans⟩

variable {f g : Frame} {i : Instruction} {s t : State}

/-- After one round control is at the next instruction. -/
theorem Goes.next {next : UInt32} (hi : f.descriptor.body.instructions.get? f.offset = some i)
    (hstep : step scope callee i f s = (.ok (.next, g), t)) (hnext : i.next = some next)
    (hin : g.descriptor.body.instructions.contains next = true) :
    Goes scope callee 1 (f, s) ({ g with offset := next }, t) :=
  fun fuel => loop_next fuel hi hstep hnext hin

/-- After one round control is at the target of a branch. -/
theorem Goes.jump {target : UInt32} (hi : f.descriptor.body.instructions.get? f.offset = some i)
    (hstep : step scope callee i f s = (.ok (.jump target, g), t))
    (hin : g.descriptor.body.instructions.contains target = true) :
    Goes scope callee 1 (f, s) ({ g with offset := target }, t) :=
  fun fuel => loop_jump fuel hi hstep hin

end pieces

/-! ## The method -/

namespace ArraySum

/-- Integers of 32 bits. -/
def int32 : TypeName := .plain "System.Int32"

/-- The code in front of the return. The body of the loop is at 5 and its condition at 15. -/
def code : List CodeItem :=
  [(.ldcI40, .none), (.stloc0, .none), (.ldcI40, .none), (.stloc1, .none), (.brS, .target 15),
    (.ldloc0, .none), (.ldarg0, .none), (.ldloc1, .none), (.ldelemI4, .none), (.add, .none),
    (.stloc0, .none), (.ldloc1, .none), (.ldcI41, .none), (.add, .none), (.stloc1, .none),
    (.ldloc1, .none), (.ldarg0, .none), (.ldlen, .none), (.convI4, .none), (.bltS, .target 5),
    (.ldloc0, .none)]

/-- The method that adds up an array. -/
def method : Descriptor where
  name := ⟨.plain "Game.Calc", "Sum", [], [int32.arrayOf]⟩
  isStatic := true
  parameters := [int32.arrayOf]
  returnType := int32
  body := {
    maxStack := 8
    locals := [int32, int32]
    instructions := ⟨listing 0 code, increasing_listing (by decide)⟩ }

/-- The method in the course of being run on an array. -/
def frame (context : GenericContext) (r : ArrayRef) (offset : UInt32) (total index : Value)
    (stack : List Value) : Frame :=
  ⟨method, context, [.array r], [total, index], stack, offset, false⟩

variable {scope : Scope} {callee : Callee} {context : GenericContext} {r : ArrayRef} {s : State}

/-! ## The pieces -/

/-- One instruction, after which control goes to the next one. -/
theorem goes_next {k next : UInt32} {op : Opcode} {operand : Operand} {v w v' w' : Value}
    {stack stack' : List Value}
    (hi : method.body.instructions.get? k = some ⟨op, operand, some next⟩)
    (hstep : step scope callee ⟨op, operand, some next⟩ (frame context r k v w stack) s =
      (.ok (.next, frame context r k v' w' stack'), s))
    (hin : method.body.instructions.contains next = true) :
    Goes scope callee 1 (frame context r k v w stack, s) (frame context r next v' w' stack', s) :=
  Goes.next hi hstep rfl hin

/-- The total and the index start at zero, and control goes to the condition. -/
theorem goes_start (v w : Value) :
    Goes scope callee 5 (frame context r 0 v w [], s)
      (frame context r 15 (.int32 0) (.int32 0) [], s) :=
  calc
    Goes scope callee 1 (frame context r 0 v w [], s)
        (frame context r 1 v w [.int32 0], s) := goes_next rfl rfl rfl
    Goes scope callee 1 _ (frame context r 2 (.int32 0) w [], s) := goes_next rfl rfl rfl
    Goes scope callee 1 _ (frame context r 3 (.int32 0) w [.int32 0], s) := goes_next rfl rfl rfl
    Goes scope callee 1 _ (frame context r 4 (.int32 0) (.int32 0) [], s) := goes_next rfl rfl rfl
    Goes scope callee 1 _ (frame context r 15 (.int32 0) (.int32 0) [], s) :=
      .jump (g := frame context r 4 (.int32 0) (.int32 0) []) rfl rfl rfl

/-- An item is loaded from the array below its index. -/
theorem perform_loadItem {f : Frame} {i : Instruction} {index : Int32} {v : Value}
    (hitem : s.memory.heap.item r index.toInt64 = .ok v) :
    perform scope callee i .loadItem ((f.pushed (.array r)).pushed (.int32 index)) s =
      (.ok ((), f.pushed v), s) := by
  show (ofExcept (s.memory.heap.item r index.toInt64) >>= push : FrameAction Unit) f s = _
  rw [hitem]
  rfl

/-- The body of the loop adds the item at the index to the total and goes on to the next index. -/
theorem goes_body {total index x : Int32}
    (hitem : s.memory.heap.item r index.toInt64 = .ok (.int32 x)) :
    Goes scope callee 10 (frame context r 5 (.int32 total) (.int32 index) [], s)
      (frame context r 15 (.int32 (total + x)) (.int32 (index + 1)) [], s) :=
  have hload : step scope callee ⟨.ldelemI4, .none, some 9⟩
      (frame context r 8 (.int32 total) (.int32 index) [.int32 index, .array r, .int32 total]) s =
        (.ok (.next, frame context r 8 (.int32 total) (.int32 index) [.int32 x, .int32 total]),
          s) := by
    show (perform scope callee _ .loadItem >>= fun _ => pure .next : FrameAction Flow)
      (((frame context r 8 (.int32 total) (.int32 index) [.int32 total]).pushed (.array r)).pushed
        (.int32 index)) s = _
    rw [FrameAction.bind_apply, perform_loadItem hitem]
    rfl
  calc
    Goes scope callee 1 (frame context r 5 (.int32 total) (.int32 index) [], s)
        (frame context r 6 (.int32 total) (.int32 index) [.int32 total], s) := goes_next rfl rfl rfl
    Goes scope callee 1 _
        (frame context r 7 (.int32 total) (.int32 index) [.array r, .int32 total], s) :=
      goes_next rfl rfl rfl
    Goes scope callee 1 _
        (frame context r 8 (.int32 total) (.int32 index) [.int32 index, .array r, .int32 total],
          s) :=
      goes_next rfl rfl rfl
    Goes scope callee 1 _
        (frame context r 9 (.int32 total) (.int32 index) [.int32 x, .int32 total], s) :=
      goes_next rfl hload rfl
    Goes scope callee 1 _
        (frame context r 10 (.int32 total) (.int32 index) [.int32 (total + x)], s) :=
      goes_next rfl rfl rfl
    Goes scope callee 1 _ (frame context r 11 (.int32 (total + x)) (.int32 index) [], s) :=
      goes_next rfl rfl rfl
    Goes scope callee 1 _
        (frame context r 12 (.int32 (total + x)) (.int32 index) [.int32 index], s) :=
      goes_next rfl rfl rfl
    Goes scope callee 1 _
        (frame context r 13 (.int32 (total + x)) (.int32 index) [.int32 1, .int32 index], s) :=
      goes_next rfl rfl rfl
    Goes scope callee 1 _
        (frame context r 14 (.int32 (total + x)) (.int32 index) [.int32 (index + 1)], s) :=
      goes_next rfl rfl rfl
    Goes scope callee 1 _ (frame context r 15 (.int32 (total + x)) (.int32 (index + 1)) [], s) :=
      goes_next rfl rfl rfl

/-- The condition puts the index and the length on the stack. -/
theorem goes_operands {v : Value} {index length : Int32}
    (hlength : Int32.ofNat (s.memory.heap.items r).size = length) :
    Goes scope callee 4 (frame context r 15 v (.int32 index) [], s)
      (frame context r 19 v (.int32 index) [.int32 length, .int32 index], s) :=
  have hload : step scope callee ⟨.ldlen, .none, some 18⟩
      (frame context r 17 v (.int32 index) [.array r, .int32 index]) s =
        (.ok (.next, frame context r 17 v (.int32 index) [.int32 length, .int32 index]), s) := by
    rw [← hlength]
    rfl
  have hconvert : step scope callee ⟨.convI4, .none, some 19⟩
      (frame context r 18 v (.int32 index) [.int32 length, .int32 index]) s =
        (.ok (.next, frame context r 18 v (.int32 index) [.int32 length, .int32 index]), s) := by
    show (_, s) = _
    conv_rhs => rw [← Int32.toInt32_toInt64 length]
    rfl
  calc
    Goes scope callee 1 (frame context r 15 v (.int32 index) [], s)
        (frame context r 16 v (.int32 index) [.int32 index], s) := goes_next rfl rfl rfl
    Goes scope callee 1 _ (frame context r 17 v (.int32 index) [.array r, .int32 index], s) :=
      goes_next rfl rfl rfl
    Goes scope callee 1 _ (frame context r 18 v (.int32 index) [.int32 length, .int32 index], s) :=
      goes_next rfl hload rfl
    Goes scope callee 1 _ (frame context r 19 v (.int32 index) [.int32 length, .int32 index], s) :=
      goes_next rfl hconvert rfl

/-- The branch is taken as long as the index is less than the length. -/
theorem step_branch (v w : Value) (index length : Int32) :
    step scope callee ⟨.bltS, .target 5, some 20⟩
        (frame context r 19 v w [.int32 length, .int32 index]) s =
      (.ok (if index.toInt < length.toInt then .jump 5 else .next, frame context r 19 v w []),
        s) :=
  step_branchOn (f := frame context r 19 v w []) rfl rfl
    (related_of_reads (.int32 index) (.int32 length) .less false)

/-- With the index of an item, control goes from the condition to the body of the loop. -/
theorem goes_enter (v : Value) {k : Nat} (hk : k < (s.memory.heap.items r).size)
    (hsize : (s.memory.heap.items r).size < 2 ^ 31) :
    Goes scope callee 5 (frame context r 15 v (.int32 (.ofNat k)) [], s)
      (frame context r 5 v (.int32 (.ofNat k)) [], s) := by
  have hless : (Int32.ofNat k).toInt < (Int32.ofNat (s.memory.heap.items r).size).toInt := by
    rw [Int32.toInt_ofNat_of_lt (Nat.lt_trans hk hsize), Int32.toInt_ofNat_of_lt hsize]
    exact Int.ofNat_lt.2 hk
  calc
    Goes scope callee 4 _ (frame context r 19 v (.int32 (.ofNat k))
      [.int32 (.ofNat (s.memory.heap.items r).size), .int32 (.ofNat k)], s) := goes_operands rfl
    Goes scope callee 1 _ _ := .jump (g := frame context r 19 v _ []) rfl
      ((step_branch v _ _ _).trans (by rw [if_pos hless])) rfl

/-- With the index behind the last item, control goes from the condition out of the loop. -/
theorem goes_leave (v : Value) {k : Nat} (hk : (s.memory.heap.items r).size = k) :
    Goes scope callee 5 (frame context r 15 v (.int32 (.ofNat k)) [], s)
      (frame context r 20 v (.int32 (.ofNat k)) [], s) :=
  calc
    Goes scope callee 4 _ (frame context r 19 v (.int32 (.ofNat k))
      [.int32 (.ofNat k), .int32 (.ofNat k)], s) := goes_operands (congrArg Int32.ofNat hk)
    Goes scope callee 1 _ _ := goes_next rfl
      ((step_branch v _ _ _).trans (by rw [if_neg (Int.lt_irrefl _)])) rfl

/-! ## The loop -/

/-- The item at a position is what is read at the index of the position. -/
theorem item_ofNat {k : Nat} {v : Value} (hk : k < 2 ^ 31)
    (hv : (s.memory.heap.items r)[k]? = some v) :
    s.memory.heap.item r (Int32.ofNat k).toInt64 = .ok v := by
  have hindex : (Int32.ofNat k).toInt64.toInt = k := by
    rw [Int32.toInt_toInt64, Int32.toInt_ofNat_of_lt hk]
  have hin : k < (s.memory.heap.items r).size := (Array.getElem?_eq_some_iff.1 hv).1
  have hposition : s.memory.heap.position? r (Int32.ofNat k).toInt64 = some k := by
    unfold Heap.position?
    rw [hindex, if_pos ⟨Int.natCast_nonneg k, Int.ofNat_lt.2 hin⟩, Int.toNat_natCast]
  unfold Heap.item
  rw [hposition]
  dsimp only
  rw [Array.getD_eq_getD_getElem?, hv, Option.getD_some]

/-- One turn of the loop: from the condition, through the body, to the condition. -/
theorem goes_turn (total : Int32) {x : Int32} {k : Nat}
    (hk : (s.memory.heap.items r)[k]? = some (.int32 x))
    (hsize : (s.memory.heap.items r).size < 2 ^ 31) :
    Goes scope callee 15 (frame context r 15 (.int32 total) (.int32 (.ofNat k)) [], s)
      (frame context r 15 (.int32 (total + x)) (.int32 (.ofNat (k + 1))) [], s) := by
  have hin : k < (s.memory.heap.items r).size := (Array.getElem?_eq_some_iff.1 hk).1
  have hitem := item_ofNat (Nat.lt_trans hin hsize) hk
  rw [Int32.ofNat_add]
  calc
    Goes scope callee 5 _ (frame context r 5 (.int32 total) (.int32 (.ofNat k)) [], s) :=
      goes_enter _ hin hsize
    Goes scope callee 10 _ _ := goes_body hitem

/-- From the condition on, the items that are left are added to the total. The induction is on
these; the items before the index, and their total, are general. -/
theorem goes_items {done rest : List Int32} (total : Int32)
    (hitems : s.memory.heap.items r = ((done ++ rest).map .int32).toArray)
    (hsize : (s.memory.heap.items r).size < 2 ^ 31) :
    Goes scope callee (15 * rest.length + 5)
      (frame context r 15 (.int32 total) (.int32 (.ofNat done.length)) [], s)
      (frame context r 20 (.int32 (total + rest.sum)) (.int32 (.ofNat (done ++ rest).length)) [],
        s) := by
  induction rest generalizing done total with
  | nil =>
    have hend : (s.memory.heap.items r).size = done.length := by
      rw [hitems, List.append_nil, List.size_toArray, List.length_map]
    rw [List.append_nil, List.sum_nil, Int32.add_zero]
    exact goes_leave _ hend
  | cons x rest ih =>
    have hdone : done ++ x :: rest = done ++ [x] ++ rest := List.append_cons done x rest
    have hitem : (s.memory.heap.items r)[done.length]? = some (.int32 x) := by
      rw [hitems]
      simp
    have hlength : (done ++ [x]).length = done.length + 1 := List.length_append
    have hcount : 15 * (rest.length + 1) + 5 = 15 + (15 * rest.length + 5) := by omega
    have hrest := @ih (done ++ [x]) (total + x) (by rw [hitems, hdone])
    rw [hlength, ← hdone, Int32.add_assoc] at hrest
    rw [List.length_cons, hcount, List.sum_cons]
    exact (goes_turn total hitem hsize).trans hrest

/-! ## The run -/

/-- The sum of words reads as the sum of what they read as, up to a multiple of `2 ^ 32`. -/
theorem toInt_sum (xs : List Int32) : xs.sum.toInt = (xs.map Int32.toInt).sum.bmod (2 ^ 32) := by
  induction xs with
  | nil => rfl
  | cons x xs ih =>
    rw [List.sum_cons, Int32.toInt_add, ih, List.map_cons, List.sum_cons, Int.add_bmod_bmod]

/-- The symbols have a type of integers, whose default leaves the arrays as they are. -/
def KnowsIntegers (symbols : SymbolTable) : Prop :=
  ∃ d, symbols.findType? "System.Int32" = some d ∧
    ∀ m, (d.defaultValue int32 m).2.heap.arrays = m.heap.arrays

/-- The type of integers is one that can be written. -/
theorem wellFormed_int32 : int32.WellFormed :=
  have hparse : TypeName.parse "System.Int32" = .ok int32 := by decide +kernel
  TypeName.wellFormed_of_parse hparse

/-- A local of the type of integers starts as something, and no array is touched by that. -/
theorem defaultValue_int32 (h : KnowsIntegers scope.symbols) (hs : s.memo.Sound scope.symbols) :
    ∃ v t, scope.defaultValue int32 s = (.ok v, t) ∧
      t.memory.heap.arrays = s.memory.heap.arrays ∧ t.memo.Sound scope.symbols := by
  obtain ⟨d, hd, hdefault⟩ := h
  obtain ⟨memo, hresolve, hsound, -⟩ :=
    hs.resolve wellFormed_int32 (SymbolTable.handleOf_plain hd)
  refine ⟨(d.defaultValue int32 s.memory).1,
    { s with memo, memory := (d.defaultValue int32 s.memory).2 }, ?_, hdefault s.memory, hsound⟩
  show (Machine.resolve (scope.symbols.resolveType int32) >>= fun handle =>
    Machine.onMemory handle.defaultValue : Machine Value) s = _
  rw [Machine.bind_apply]
  rw [hresolve]
  rfl

/-- A frame of the method starts with its two locals at defaults, and the arrays as they are. -/
theorem start_method (h : KnowsIntegers scope.symbols) (hs : s.memo.Sound scope.symbols) :
    ∃ v w t, Frame.start scope method (.ofSignature method.name) [.array r] s =
        (.ok (frame (.ofSignature method.name) r 0 v w []), t) ∧
      t.memory.heap.arrays = s.memory.heap.arrays := by
  obtain ⟨v, s₁, hv, harrays, hsound⟩ := defaultValue_int32 h hs
  obtain ⟨w, s₂, hw, harrays', -⟩ := defaultValue_int32 h hsound
  have hclose : (GenericContext.ofSignature method.name).close int32 = .ok int32 := rfl
  refine ⟨v, w, s₂, Frame.start_apply rfl rfl ?_, harrays'.trans harrays⟩
  show (do
    let v ← scope.defaultValue int32
    let w ← scope.defaultValue int32
    return [v, w] : Machine (List Value)) s = _
  rw [Machine.bind_apply, hv]
  dsimp only
  rw [Machine.bind_apply, hw]
  rfl

/-- From the entry on, the sum of the items is computed and loaded. -/
theorem goes_sum (v w : Value) {xs : List Int32}
    (hitems : s.memory.heap.items r = (xs.map .int32).toArray) (hlength : xs.length < 2 ^ 31) :
    Goes scope callee (5 + (15 * xs.length + 5) + 1) (frame context r 0 v w [], s)
      (frame context r 21 (.int32 xs.sum) (.int32 (.ofNat xs.length)) [.int32 xs.sum], s) := by
  have hsize : (s.memory.heap.items r).size = xs.length := by
    rw [hitems, List.size_toArray, List.length_map]
  calc
    Goes scope callee 5 _ (frame context r 15 (.int32 0) (.int32 0) [], s) := goes_start v w
    Goes scope callee (15 * xs.length + 5) _
        (frame context r 20 (.int32 (0 + xs.sum)) (.int32 (.ofNat xs.length)) [], s) :=
      @goes_items scope callee context r s [] xs 0 hitems (hsize ▸ hlength)
    Goes scope callee 1 _ _ := by
      rw [Int32.zero_add]
      exact goes_next rfl rfl rfl

/-- The run of the method ends with the sum. -/
theorem execute_method (h : KnowsIntegers scope.symbols) (hs : s.memo.Sound scope.symbols)
    {xs : List Int32} (hitems : s.memory.heap.items r = (xs.map .int32).toArray)
    (hlength : xs.length < 2 ^ 31) {fuel : Nat} (hfuel : 15 * xs.length + 12 ≤ fuel) :
    ∃ t, execute scope callee fuel method (.ofSignature method.name) [.array r] s =
        (.ok (.int32 xs.sum), t) ∧ t.memory.heap.items r = s.memory.heap.items r := by
  obtain ⟨v, w, t, hstart, harrays⟩ := start_method h hs
  have hsame : t.memory.heap.items r = s.memory.heap.items r := by
    unfold Heap.items
    rw [harrays]
  obtain ⟨extra, rfl⟩ : ∃ extra, fuel = extra + 1 + (5 + (15 * xs.length + 5) + 1) :=
    ⟨fuel - (15 * xs.length + 12), by omega⟩
  refine ⟨t, ?_, hsame⟩
  rw [execute_eq _ rfl hstart rfl, goes_sum v w (hsame.trans hitems) hlength,
    loop_ret extra rfl rfl rfl rfl]

/-- **The sum of an array.** With an array of fewer than `2 ^ 31` integers the invocation of the
method ends, gives the sum modulo `2 ^ 32`, and leaves the array as it is. Fifteen instructions are
run for each item. -/
theorem invoke_arraySum (engine : Engine) (h : KnowsIntegers engine.symbols)
    (hmemo : engine.state.memo.Sound engine.symbols)
    (hfiled : engine.catalogue.get? method.name.render = some method) (receiver : Option Value)
    {xs : List Int32} (hitems : engine.state.memory.heap.items r = (xs.map .int32).toArray)
    (hlength : xs.length < 2 ^ 31) {fuel : Nat} (hfuel : 15 * xs.length + 13 ≤ fuel) :
    ∃ (v : Int32) (engine' : Engine),
      engine.invoke fuel method.name receiver [.array r] = (.ok (.int32 v), engine') ∧
      v.toInt = (xs.map Int32.toInt).sum.bmod (2 ^ 32) ∧
      engine'.state.memory.heap.items r = engine.state.memory.heap.items r := by
  obtain ⟨fuel, rfl⟩ : ∃ fuel', fuel = fuel' + 1 := ⟨fuel - 1, by omega⟩
  obtain ⟨t, hrun, hsame⟩ := @execute_method engine.scope (call engine.scope fuel) r engine.state
    h hmemo xs hitems hlength fuel (Nat.le_of_lt_succ hfuel)
  refine ⟨xs.sum, { engine with state := t }, ?_, toInt_sum xs, hsame⟩
  have hslots : slots method receiver [.array r] = [.array r] := rfl
  unfold Engine.invoke Engine.run
  rw [invoke_eq fuel receiver _ hfiled, hslots, hrun]

/-- An engine with the method and an array of three integers, in a host that has integers. -/
def engine : Engine where
  symbols := {
    modules := [{
      name := "System"
      types := .ofList [("System.Int32", {
        name := "System.Int32", kind := .valueType, initial := some (pure (.int32 0)) })] }] }
  state := {
    catalogue := ⟨Table.insert ∅ method.name.render method⟩
    memory := { heap := { arrays := #[#[.int32 2147483647, .int32 4, .int32 (-1)]] } } }

/-- The sum of three integers goes beyond the greatest integer and starts again at the least. -/
theorem invoke_arraySum_engine :
    ∃ (v : Int32) (engine' : Engine),
      engine.invoke 58 method.name none [.array ⟨0, int32⟩] = (.ok (.int32 v), engine') ∧
      v.toInt = -2147483646 ∧ engine'.state.memory.heap.items ⟨0, int32⟩ =
        #[.int32 2147483647, .int32 4, .int32 (-1)] := by
  have hknows : KnowsIntegers engine.symbols := ⟨_, rfl, fun _ => rfl⟩
  have hfiled : engine.catalogue.get? method.name.render = some method :=
    Table.get?_insert_self _ _ _
  exact @invoke_arraySum ⟨0, int32⟩ engine hknows (Memo.sound_empty _) hfiled none
    [2147483647, 4, -1] rfl (by decide) 58 (by decide)

end ArraySum

end Hotswap
