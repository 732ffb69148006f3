import FleetEnergy.Document.Atom

/-! Documents: trees of atoms, sequences and mappings. A tag may stand before any value. -/
namespace FleetEnergy
set_option autoImplicit false

inductive Document
  | atom (s : Document.Atom)
  | sequence (items : List Document)
  | mapping (entries : List (Document × Document))
  | tagged (tag : Document.Tag) (content : Document)
  /-- A value that has itself as a part, or is made up of too many repetitions. -/
  | endless

namespace Document

/-- The value where none is written. -/
def empty : Document := .atom .empty

def withTag (tag : Option Tag) (d : Document) : Document :=
  match tag with
  | some t => .tagged t d
  | none => d

def untagged : Document → Document
  | .tagged _ d => d
  | d => d

/-- What an atom means, as far as its tag allows a meaning. -/
def meaning? : Document → Option Meaning
  | .atom s => some s.meaning
  | .tagged t (.atom s) => s.meaningAs? t
  | _ => none

def isNull (d : Document) : Bool := d.meaning? == some .null

end Document

end FleetEnergy
