import FleetEnergy.Markup.Tree

/-! Name spaces. Attributes give short names to addresses. A short name before the colon of a name stands
for the address that the nearest element around gives to it. -/
namespace FleetEnergy.Markup
set_option autoImplicit false

/-- Short names and their addresses, the nearest first. -/
abbrev Scope : Type := List (Bytes × Bytes)

/-- What an element declares. -/
def declarations (attributes : Bytes) : Scope :=
  (leadingAttributes attributes).1.reverse.filterMap fun (name, address) =>
    if (ascii "xmlns:").isPrefixOf name then some (name.drop 6, address) else none

def endsWith (address : Bytes) (ending : String) : Bool := (ascii ending).isSuffixOf address

/-- The address of names that begin with `xml`. -/
def isReserved (address : Bytes) : Bool := endsWith address "/XML/1998/namespace"

/-- The address of the declarations themselves. -/
def isDeclaring (address : Bytes) : Bool := endsWith address "/2000/xmlns/"

/-- The two reserved names keep their addresses, and no other name has one of these. -/
def mayDeclare (name address : Bytes) : Bool :=
  if name == ascii "xml" then isReserved address
  else name != ascii "xmlns" && !isReserved address && !isDeclaring address

def checkDeclarations (attributes : Bytes) : Except Fault Unit :=
  if (declarations attributes).all fun (name, address) => mayDeclare name address then .ok ()
  else .error .badSpace

/-- Whether an attribute says that an element stands for no value. -/
def saysNil (scope : Scope) (attributes : Bytes) : Bool :=
  (leadingAttributes attributes).1.any fun (name, value) =>
    localName name == ascii "nil" && (value == ascii "1" || value == ascii "true")
      && (scope.lookup (name.takeWhile (· != code ':'))).any (endsWith · "/2001/XMLSchema-instance")

end FleetEnergy.Markup
