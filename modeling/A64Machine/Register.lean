import A64Machine.Text.Number

/-!
# Register names

There are thirty-one general registers and a zero register in slot 31. Each has a name for its
full width and one for its lower half; the stack pointer, the frame pointer and the link register
are further names of general registers.
-/

namespace A64Machine

/-- A register at one of its widths. -/
structure Register where
  slot : Nat
  wide : Bool
  deriving DecidableEq, Repr

namespace Register

/-- Number of general registers, which is also the slot of the zero register. -/
def zeroSlot : Nat := 31

/-- The slot of the link register. -/
def linkSlot : Nat := 30

/-- The name under which the register with a number is shown, whether there is one or not. -/
def nameOf (number : Int) (wide : Bool) : String :=
  if number = zeroSlot then if wide then "xzr" else "wzr"
  else (if wide then "x" else "w") ++ Text.decimal number

/-- The name under which a register is shown. -/
def name (register : Register) : String := nameOf register.slot register.wide

/-- All names that can be written, in lower case. -/
def names : List (String × Register) :=
  (List.range 32).flatMap
      (fun slot => [(name ⟨slot, true⟩, ⟨slot, true⟩), (name ⟨slot, false⟩, ⟨slot, false⟩)]) ++
    [("sp", ⟨28, true⟩), ("fp", ⟨29, true⟩), ("lr", ⟨30, true⟩)]

/-- The register of a name in lower case. -/
def ofName? (word : String) : Option Register := names.lookup word

end Register

end A64Machine
