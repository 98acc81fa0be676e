import Hotswap.Catalogue
import Hotswap.Manifest
import Hotswap.Path

/-!
# Sources of patches

A patch set is published as files: one for each descriptor, named by its content key, and a manifest
that lists the key of each signature. `load` reads a patch set through a function that fetches files
by name, and every entry of the manifest has to be in order for it to succeed.

There are two places to publish to. A `Shelf` keeps the files in memory. A directory is reached
through a `FileAccess`, which says how files are read and written; publishing and fetching are the
same whether these are the files of a system or a model of them.
-/

namespace Hotswap

/-- The name of a manifest if no other is given. -/
def defaultManifest : String := "catalogue.json"

/-! ## Loading -/

/-- How a patch set is loaded. -/
structure LoadOptions where
  /-- The name of the manifest. -/
  manifestName : String := defaultManifest
  /-- Whether the content of each file must have the digest that it is filed under. -/
  verifyContentKeys : Bool := false
  deriving DecidableEq, Repr

/-- Whether a character may stand in a content key. -/
def isKeyChar (c : Char) : Bool := c.isAlphanum || c == '-' || c == '_'

/-- The name of the file for a content key. -/
def descriptorFile (key : String) : String := key ++ ".json"

/-- The name of the file that an entry of a manifest asks for. -/
def ManifestEntry.file (manifestName : String) (e : ManifestEntry) : Except Error String :=
  if e.key.isEmpty then .error (.load (.emptyKey manifestName e.signature.render))
  else if e.key.toList.all isKeyChar then .ok (descriptorFile e.key)
  else .error (.load (.badKey manifestName e.signature.render e.key))

/-- Reads the descriptor of an entry from the content of its file. -/
def ManifestEntry.descriptor (verify : Bool) (e : ManifestEntry) (file : String)
    (bytes : ByteArray) : Except Error Descriptor := do
  let bad (cause : FormatError) : Error := .load (.badFile file cause)
  if verify then (verifyContentKey e.key bytes).mapError bad
  let d ← (Descriptor.parseBytes bytes).mapError bad
  if d.name = e.signature then return d
  else .error (.load (.otherMethod file d.name.render e.signature.render))

/-- The manifest in the content of a file. -/
def LoadOptions.manifest (options : LoadOptions) (bytes : ByteArray) : Except Error Manifest :=
  (Manifest.parseBytes bytes).mapError fun cause => .load (.badFile options.manifestName cause)

section Load

variable {m : Type → Type} [Monad m] [MonadExceptOf Error m]

/-- Gives a result or fails. -/
def orThrow {α : Type} : Except Error α → m α
  | .ok a => pure a
  | .error e => throw e

/-- Adds the descriptor of an entry of a manifest to a catalogue. -/
def loadEntry (fetch : String → m ByteArray) (options : LoadOptions) (c : Catalogue)
    (e : ManifestEntry) : m Catalogue := do
  let file ← orThrow (e.file options.manifestName)
  let bytes ← fetch file
  let d ← orThrow (e.descriptor options.verifyContentKeys file bytes)
  orThrow (c.insert d)

/-- Loads a patch set. -/
def load (fetch : String → m ByteArray) (options : LoadOptions) : m Catalogue := do
  let manifest ← orThrow (options.manifest (← fetch options.manifestName))
  let entries ← orThrow (manifest.entries.mapError .format)
  entries.foldlM (loadEntry fetch options) ∅

end Load

/-! ## Files in memory -/

/-- A patch set in memory. The manifest of what has been published is kept apart from the files, so
a file that is put in the place of the manifest does not change it. -/
structure Shelf where
  /-- The files, by name. -/
  files : Table String ByteArray := ∅
  /-- What has been published. -/
  manifest : Manifest := .empty

namespace Shelf

/-- Puts a file on the shelf, in place of one of that name. -/
def write (s : Shelf) (name : String) (bytes : ByteArray) : Shelf :=
  { s with files := s.files.insert name bytes }

/-- The content of a file. -/
def fetch (s : Shelf) (name : String) : Except Error ByteArray :=
  match s.files.get? name with
  | some bytes => .ok bytes
  | none => .error (.load (.noSuchFile name))

/-- Publishes a descriptor and gives its content key. -/
def publish (s : Shelf) (d : Descriptor) : String × Shelf :=
  let bytes := d.toText.toUTF8
  let key := contentKey bytes
  let manifest := s.manifest.insert d.name key
  (key, { (s.write (descriptorFile key) bytes).write defaultManifest manifest.toText.toUTF8 with
    manifest })

end Shelf

/-! ## Directories -/

/-- How files are read and written. -/
structure FileAccess (m : Type → Type) where
  /-- Reads the file at a path. -/
  read : String → m (Except FileFault ByteArray)
  /-- Writes the file at a path. -/
  write : String → ByteArray → m (Except FileFault Unit)

namespace FileAccess

variable {m : Type → Type} [Monad m]

/-- The fault of a file as an error of loading. -/
def orFault {α : Type} (path : String) (r : Except FileFault α) : Except Error α :=
  r.mapError fun fault => .load (.unreadable path fault)

/-- Reads a file of a directory. -/
def fetch (files : FileAccess m) (root name : String) : ExceptT Error m ByteArray := do
  if Path.isFileName name then
    let path := Path.join root name
    orThrow (orFault path (← files.read path))
  else throw (.load (.notAFileName name root))

/-- The manifest of a directory; one without lines if there is none yet. -/
def publishedManifest (path : String) : Except FileFault ByteArray → Except Error Manifest
  | .ok bytes => (Manifest.parseBytes bytes).mapError .format
  | .error .missing => .ok .empty
  | .error fault => .error (.load (.unreadable path fault))

/-- Publishes a descriptor to a directory and gives its content key. -/
def publish (files : FileAccess m) (root : String) (d : Descriptor) : ExceptT Error m String := do
  let bytes := d.toText.toUTF8
  let key := contentKey bytes
  let path := Path.join root (descriptorFile key)
  orThrow (orFault path (← files.write path bytes))
  let path := Path.join root defaultManifest
  let manifest ← orThrow (publishedManifest path (← files.read path))
  let manifest := manifest.insert d.name key
  orThrow (orFault path (← files.write path manifest.toText.toUTF8))
  return key

/-- Loads the patch set of a directory. -/
def load (files : FileAccess m) (root : String) (options : LoadOptions) :
    ExceptT Error m Catalogue :=
  Hotswap.load (files.fetch root) options

end FileAccess

end Hotswap
