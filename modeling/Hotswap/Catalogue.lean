import Hotswap.Descriptor
import Hotswap.Error

/-!
# Catalogues

A catalogue is a set of descriptors, filed under the text of their signatures. It is built by adding
descriptors one after another, and two for one signature are an error. `get?_of_insert` and
`get?_of_insert_of_ne` say what adding does to the view `Catalogue.get?`.
-/

namespace Hotswap

/-- The descriptors in force, by the text of their signatures. -/
structure Catalogue where
  /-- The descriptors. -/
  methods : Table String Descriptor := ∅
  deriving DecidableEq, Inhabited

namespace Catalogue

/-- The catalogue without descriptors. -/
def empty : Catalogue := {}

instance : EmptyCollection Catalogue := ⟨empty⟩

/-- The descriptor that is filed under a text. -/
def get? (c : Catalogue) (key : String) : Option Descriptor := c.methods.get? key

/-- Whether a descriptor is filed under a text. -/
def contains (c : Catalogue) (key : String) : Bool := c.methods.contains key

/-- The descriptor of a signature. -/
def lookup (c : Catalogue) (s : Signature) : Option Descriptor := c.get? s.render

/-- The first descriptor that is filed under one of several texts. -/
def find? (c : Catalogue) (keys : List String) : Option Descriptor := keys.findSome? c.get?

/-- The number of descriptors. -/
def size (c : Catalogue) : Nat := c.methods.size

/-- Whether there are no descriptors. -/
def isEmpty (c : Catalogue) : Bool := c.methods.isEmpty

/-- The signatures, in the order of their texts. -/
def signatures (c : Catalogue) : List String := c.methods.keys

/-- Adds a descriptor for a signature that has none yet. -/
def insert (c : Catalogue) (d : Descriptor) : Except Error Catalogue :=
  if c.contains d.name.render then .error (.duplicateSignature d.name.render)
  else .ok ⟨c.methods.insert d.name.render d⟩

/-- The catalogue of a list of descriptors. -/
def ofList (ds : List Descriptor) : Except Error Catalogue := ds.foldlM insert ∅

/-- An added descriptor is filed under the text of its signature. -/
theorem get?_of_insert {c c' : Catalogue} {d : Descriptor} (h : c.insert d = .ok c') :
    c'.get? d.name.render = some d := by
  unfold insert at h
  split at h
  · cases h
  · cases h
    exact Table.get?_insert_self _ _ _

/-- Adding a descriptor leaves the other texts alone. -/
theorem get?_of_insert_of_ne {c c' : Catalogue} {d : Descriptor} {key : String}
    (h : c.insert d = .ok c') (hk : key ≠ d.name.render) : c'.get? key = c.get? key := by
  unfold insert at h
  split at h
  · cases h
  · cases h
    exact Table.get?_insert_of_ne _ _ hk

end Catalogue

end Hotswap
