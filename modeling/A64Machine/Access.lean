import A64Machine.Register

/-!
# Accesses

The record of one read or write of a register or of memory.
-/

namespace A64Machine

/-- Whether an access reads or writes. -/
inductive AccessKind where
  | read | write
  deriving DecidableEq, Repr

/-- What is accessed: a register by its number, or memory from an address on. -/
inductive Location where
  | register (number : Int)
  | memory (address : Nat)
  deriving DecidableEq, Repr

/-- One access: the values before and after it and the number of bytes. -/
structure Access where
  kind : AccessKind
  location : Location
  before : Nat
  after : Nat
  width : Int
  deriving DecidableEq, Repr

namespace Access

/-- Whether the access is one of memory. -/
def isMemory (access : Access) : Bool :=
  match access.location with
  | .memory _ => true
  | .register _ => false

/-- Whether the access touches the byte at an address. -/
def touches (access : Access) (address : Int) : Bool :=
  match access.location with
  | .memory first => decide ((first : Int) ≤ address ∧ address < first + access.width)
  | .register _ => false

end Access

end A64Machine
