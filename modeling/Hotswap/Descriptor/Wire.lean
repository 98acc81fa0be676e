import Hotswap.Descriptor
import Hotswap.Instruction.Wire

/-!
# Descriptors in documents

A descriptor is a record, its body is a record in it, and the instructions of the body are an object
whose names are the offsets in decimal. Descriptors are written with a line per item.
-/

namespace Hotswap

/-! ## Parts -/

/-- Decodes a type name. -/
def TypeName.decode (d : Document) : Document.Decoded TypeName := do
  TypeName.parse (← Document.decodeString d)

/-- The document of a type name. -/
def TypeName.toDocument (t : TypeName) : Document := Document.ofString t.render

/-- Decodes a signature. -/
def Signature.decode (d : Document) : Document.Decoded Signature := do
  Signature.parse (← Document.decodeString d)

/-- The offset that the name of a member writes: a numeral of a natural number, and nothing else. -/
def offsetOfName? (raw : String) : Option UInt32 :=
  match Document.takeNumeral raw.toList with
  | some (numeral, []) =>
    ((Document.numberOf? (String.ofList numeral)).bind (·.below? UInt32.size)).map UInt32.ofNat
  | _ => none

/-! ## Bodies -/

namespace Body

/-- Decodes the instructions of a body. Of two instructions at one offset the later one counts. -/
def decodeInstructions (levels : Nat) :
    Table UInt32 Instruction → List (String × Document) →
      Document.Decoded (Table UInt32 Instruction)
  | table, [] => .ok table
  | table, (raw, d) :: rest => do
    let offset ← Document.require (offsetOfName? raw)
    let i ← Instruction.decode levels d
    decodeInstructions levels (table.insert offset i) rest

/-- A body as far as its record has been decoded. -/
structure Draft where
  /-- The depth of the operand stack. -/
  maxStack : UInt32 := 0
  /-- The types of the locals. -/
  locals : List TypeName := []
  /-- The instructions. -/
  instructions : Option (Table UInt32 Instruction) := none

/-- The fields of a body, in the order of an array. -/
def fields : List Document.Field :=
  [⟨"maxStackSize", "MaxStackSize"⟩, ⟨"variables", "Variables"⟩, ⟨"instructions", "Instructions"⟩]

/-- Decodes one field of a body. -/
def decodeField (levels : Nat) (draft : Draft) (i : Nat) (d : Document) :
    Document.Decoded Draft := do
  match i with
  | 0 => return { draft with maxStack := ← Document.decodeUInt32 d }
  | 1 => return { draft with locals := ← Document.decodeArray TypeName.decode d }
  | _ =>
    match d with
    | .object members =>
      return { draft with instructions := some (← decodeInstructions (levels - 1) ∅ members) }
    | _ => .error .malformedDocument

/-- Decodes a body, with a number of levels of nesting left. -/
def decode (levels : Nat) (d : Document) : Document.Decoded Body := do
  let draft ← Document.decodeRecord fields (decodeField (levels - 1)) {} d
  return ⟨draft.maxStack, draft.locals, ← Document.require draft.instructions⟩

/-- The document of a body. -/
def toDocument (b : Body) : Document :=
  Document.ofMembers
    [("maxStackSize", Document.ofNat b.maxStack.toNat),
      ("variables", .array (b.locals.map TypeName.toDocument)),
      ("instructions",
        Document.ofMembers
          (b.instructions.entries.map fun (o, i) => (Nat.repr o.toNat, i.toDocument)))]

end Body

/-! ## Descriptors -/

namespace Descriptor

/-- A descriptor as far as its record has been decoded. -/
structure Draft where
  /-- The method. -/
  name : Option Signature := none
  /-- Whether the method has no receiver. -/
  isStatic : Option Bool := none
  /-- The types of the parameters. -/
  parameters : List TypeName := []
  /-- The type of the result. -/
  returnType : Option TypeName := none
  /-- The body. -/
  body : Option Body := none

/-- The fields of a descriptor, in the order of an array. -/
def fields : List Document.Field :=
  [⟨"name", "Name"⟩, ⟨"isStatic", "IsStatic"⟩, ⟨"parameters", "Parameters"⟩,
    ⟨"returnType", "ReturnType"⟩, ⟨"body", "Body"⟩]

/-- Decodes one field of a descriptor. -/
def decodeField (levels : Nat) (draft : Draft) (i : Nat) (d : Document) :
    Document.Decoded Draft := do
  match i with
  | 0 => return { draft with name := some (← Signature.decode d) }
  | 1 => return { draft with isStatic := some (← Document.decodeBool d) }
  | 2 => return { draft with parameters := ← Document.decodeArray TypeName.decode d }
  | 3 => return { draft with returnType := some (← TypeName.decode d) }
  | _ => return { draft with body := some (← Body.decode levels d) }

/-- Decodes a descriptor, with a number of levels of nesting left. -/
def decode (levels : Nat) (d : Document) : Document.Decoded Descriptor := do
  let draft ← Document.decodeRecord fields (decodeField (levels - 1)) {} d
  let name ← Document.require draft.name
  let isStatic ← Document.require draft.isStatic
  let returnType ← Document.require draft.returnType
  let body ← Document.require draft.body
  return ⟨name, isStatic, draft.parameters, returnType, body⟩

/-- The document of a descriptor. -/
def toDocument (d : Descriptor) : Document :=
  Document.ofMembers
    [("name", Document.ofString d.name.render), ("isStatic", .bool d.isStatic),
      ("parameters", .array (d.parameters.map TypeName.toDocument)),
      ("returnType", d.returnType.toDocument), ("body", d.body.toDocument)]

/-- The text of a descriptor. -/
def toText (d : Descriptor) : String := d.toDocument.pretty

/-- Reads the text of a descriptor. -/
def parse (text : String) : Except FormatError Descriptor :=
  Document.decodeSource (decode Document.depthLimit) text

/-- Reads a descriptor from the content of a file. -/
def parseBytes (bytes : ByteArray) : Except FormatError Descriptor :=
  Document.decodeBytes (decode Document.depthLimit) bytes

end Descriptor

end Hotswap
