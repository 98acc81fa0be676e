import Hotswap.Method

/-!
# The heap

Objects, arrays and delegates live in the heap, each kind at addresses of its own, and are never
removed. An object has named fields and perhaps a payload, which is a value of the host that is
carried along. Allocation gives an address that was not in use, so a new reference differs from
every older one.

The view of an object is `Heap.field?`, or `Heap.content` as a whole. The facts beside the
operations say what each of them does to it.
-/

namespace Hotswap

/-- A value of the host that the machine carries along without looking at it. -/
inductive Payload where
  /-- An unsigned integer of 8 bits. -/
  | uint8 (n : UInt8)
  /-- An unsigned integer of 32 bits. -/
  | uint32 (n : UInt32)
  /-- An unsigned integer of 64 bits. -/
  | uint64 (n : UInt64)
  /-- A character. -/
  | char (c : Char)
  /-- Nothing. -/
  | unit
  deriving DecidableEq, Repr

/-- The content of an object. -/
structure Instance where
  /-- The fields that have been stored. -/
  fields : Table String Value := ∅
  /-- The payload. -/
  payload : Option Payload := none
  deriving DecidableEq

/-- The objects, the arrays and the delegates there are. -/
structure Heap where
  /-- The objects, by address. -/
  objects : Array Instance := #[]
  /-- The items of the arrays, by address. -/
  arrays : Array (Array Value) := #[]
  /-- The delegates, by address. -/
  delegates : Array Delegate := #[]
  deriving DecidableEq

namespace Heap

/-! ## Objects -/

/-- Makes an object of a class. -/
def newObject (h : Heap) (type : TypeName) (content : Instance) : ObjectRef × Heap :=
  (⟨h.objects.size, type⟩, { h with objects := h.objects.push content })

/-- The content of an object. -/
def content (h : Heap) (r : ObjectRef) : Instance := h.objects.getD r.address {}

/-- What is stored in a field of an object. -/
def field? (h : Heap) (r : ObjectRef) (name : String) : Option Value :=
  (h.content r).fields.get? name

/-- Stores a value in a field of an object. -/
def setField (h : Heap) (r : ObjectRef) (name : String) (v : Value) : Heap :=
  { h with objects :=
      h.objects.modify r.address fun i => { i with fields := i.fields.insert name v } }

/-- Whether a reference is to an object of the heap. -/
def hasObject (h : Heap) (r : ObjectRef) : Prop := r.address < h.objects.size

/-- Storing in a field changes the fields of the object and nothing else in it. -/
theorem content_setField_self (h : Heap) (r : ObjectRef) (name : String) (v : Value)
    (hr : h.hasObject r) :
    (h.setField r name v).content r =
      { h.content r with fields := (h.content r).fields.insert name v } := by
  have hr : h.objects[r.address]? = some h.objects[r.address] := Array.getElem?_eq_getElem hr
  simp only [content, setField, Array.getD_eq_getD_getElem?, Array.getElem?_modify, hr]
  rfl

/-- A field holds what was stored in it. -/
theorem field?_setField_self (h : Heap) (r : ObjectRef) (name : String) (v : Value)
    (hr : h.hasObject r) : (h.setField r name v).field? r name = some v := by
  simp [field?, h.content_setField_self r name v hr]

/-- Storing in a field leaves the other fields of the object alone. -/
theorem field?_setField_of_ne (h : Heap) (r : ObjectRef) {name other : String} (v : Value)
    (hr : h.hasObject r) (hn : other ≠ name) :
    (h.setField r name v).field? r other = h.field? r other := by
  simp [field?, h.content_setField_self r name v hr, Table.get?_insert_of_ne _ _ hn]

/-- Storing in a field leaves the other objects alone. -/
theorem content_setField_of_ne (h : Heap) {r other : ObjectRef} (name : String) (v : Value)
    (hr : other.address ≠ r.address) :
    (h.setField r name v).content other = h.content other := by
  simp [content, setField, Array.getD_eq_getD_getElem?, Array.getElem?_modify, Ne.symm hr]

/-- A new object has the content that it was made with. -/
theorem content_newObject (h : Heap) (type : TypeName) (c : Instance) :
    (h.newObject type c).2.content (h.newObject type c).1 = c := by
  simp [content, newObject, Array.getD_eq_getD_getElem?]

/-- Making an object leaves the objects that are there alone. -/
theorem content_newObject_of_hasObject (h : Heap) (type : TypeName) (c : Instance) {r : ObjectRef}
    (hr : h.hasObject r) : (h.newObject type c).2.content r = h.content r := by
  have hne : r.address ≠ h.objects.size := Nat.ne_of_lt hr
  simp [content, newObject, Array.getD_eq_getD_getElem?, Array.getElem?_push, hne]

/-! ## Arrays -/

/-- Makes an array of a type of items. -/
def newArray (h : Heap) (element : TypeName) (items : Array Value) : ArrayRef × Heap :=
  (⟨h.arrays.size, element⟩, { h with arrays := h.arrays.push items })

/-- The items of an array. -/
def items (h : Heap) (r : ArrayRef) : Array Value := h.arrays.getD r.address #[]

/-- The position that an index stands for in an array. -/
def position? (h : Heap) (r : ArrayRef) (index : Int64) : Option Nat :=
  if 0 ≤ index.toInt ∧ index.toInt < (h.items r).size then some index.toInt.toNat else none

/-- The item of an array at an index. -/
def item (h : Heap) (r : ArrayRef) (index : Int64) : Except Error Value :=
  match h.position? r index with
  | some i => .ok ((h.items r).getD i .null)
  | none => .error (.indexOutOfRange index (h.items r).size)

/-- Stores a value in an array at an index. -/
def setItem (h : Heap) (r : ArrayRef) (index : Int64) (v : Value) : Except Error Heap :=
  match h.position? r index with
  | some i => .ok { h with arrays := h.arrays.modify r.address fun a => a.setIfInBounds i v }
  | none => .error (.indexOutOfRange index (h.items r).size)

/-! ## Delegates -/

/-- Makes a delegate. -/
def newDelegate (h : Heap) (d : Delegate) : Nat × Heap :=
  (h.delegates.size, { h with delegates := h.delegates.push d })

/-- The delegate at an address. -/
def delegate? (h : Heap) (address : Nat) : Option Delegate := h.delegates[address]?

end Heap

/-- What the host and the machine share: the heap, and named cells that belong to the host. -/
structure Memory where
  /-- The heap. -/
  heap : Heap := {}
  /-- The cells of the host. -/
  cells : Table String Value := ∅
  deriving DecidableEq

namespace Memory

/-- What a cell of the host holds; null if nothing has been stored in it. -/
def cell (m : Memory) (name : String) : Value := (m.cells.get? name).getD .null

/-- Stores a value in a cell of the host. -/
def setCell (m : Memory) (name : String) (v : Value) : Memory :=
  { m with cells := m.cells.insert name v }

/-- Makes an object of a class. -/
def newObject (m : Memory) (type : TypeName) : Value × Memory :=
  let (r, heap) := m.heap.newObject type {}
  (.object r, { m with heap })

end Memory

end Hotswap
