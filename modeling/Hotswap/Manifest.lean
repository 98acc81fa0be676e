import Hotswap.Descriptor.Wire
import Hotswap.Digest

/-!
# Manifests

A manifest lists the published methods: it maps the text of each signature to the content key of its
descriptor. Keys are digests of descriptor files in hexadecimal. The text of a signature may carry a
return type, which does not belong to the signature and is dropped when the entries are read.
-/

namespace Hotswap

/-- The content key of a file: the digest of its bytes. -/
def contentKey (bytes : ByteArray) : String := Text.hexBytes (Digest.sha256 bytes.toList)

/-- Whether two texts are equal but for the case of ASCII letters. -/
def equalIgnoringCase (s t : String) : Bool :=
  s.toList.map Char.toLower == t.toList.map Char.toLower

/-- Requires that a file has a content key. -/
def verifyContentKey (key : String) (bytes : ByteArray) : Except FormatError Unit :=
  let actual := contentKey bytes
  if equalIgnoringCase actual key then .ok () else .error (.digestMismatch key actual)

/-- A manifest: content keys by the text of signatures. -/
structure Manifest where
  /-- The lines, by the text of the signature. -/
  lines : Table String String
  deriving DecidableEq

/-- A line of a manifest with its signature read. -/
structure ManifestEntry where
  /-- The method. -/
  signature : Signature
  /-- The content key of its descriptor. -/
  key : String
  /-- Whether the line carries a return type. -/
  hadReturnType : Bool
  deriving DecidableEq

namespace Manifest

/-- The manifest without lines. -/
def empty : Manifest := ⟨∅⟩

/-- Lists a content key for a signature, in place of the one listed under the same text. -/
def insert (m : Manifest) (signature : Signature) (key : String) : Manifest :=
  ⟨m.lines.insert signature.render key⟩

/-- Reads the signature of a line. -/
def entryOf (line : String × String) : Except FormatError ManifestEntry := do
  let method ← MethodRef.parse line.1
  return ⟨method.signature, line.2, method.returnType.isSome⟩

/-- Reads the signatures of several lines, in order. -/
def entriesOf : List (String × String) → Except FormatError (List ManifestEntry)
  | [] => .ok []
  | line :: rest => do
    let entry ← entryOf line
    let rest ← entriesOf rest
    return entry :: rest

/-- The entries, in the order of the texts of their signatures. -/
def entries (m : Manifest) : Except FormatError (List ManifestEntry) := entriesOf m.lines.entries

/-! ## Documents -/

/-- Decodes the lines of a manifest. Of two lines with one text the later one counts. -/
def decodeLines :
    Table String String → List (String × Document) → Document.Decoded (Table String String)
  | table, [] => .ok table
  | table, (raw, d) :: rest => do
    let text ← Document.require (Document.textOf? raw)
    let key ← Document.decodeString d
    decodeLines (table.insert text key) rest

/-- Decodes a manifest. -/
def decode : Document → Document.Decoded Manifest
  | .object members => Manifest.mk <$> decodeLines ∅ members
  | _ => .error .malformedDocument

/-- The document of a manifest. -/
def toDocument (m : Manifest) : Document :=
  Document.ofMembers (m.lines.entries.map fun (text, key) => (text, Document.ofString key))

/-- The text of a manifest. -/
def toText (m : Manifest) : String := m.toDocument.pretty

/-- Reads the text of a manifest. -/
def parse (text : String) : Except FormatError Manifest := Document.decodeSource decode text

/-- Reads a manifest from the content of a file. -/
def parseBytes (bytes : ByteArray) : Except FormatError Manifest :=
  Document.decodeBytes decode bytes

end Manifest

end Hotswap
