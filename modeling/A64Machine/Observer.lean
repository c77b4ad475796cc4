import A64Machine.Access

/-!
# Observers

An observer is told of the accesses of every step that notifies. It records them and may ask for
a stop when a given number of them is reached.
-/

namespace A64Machine

/-- An observer: at which access it asks for a stop, how many accesses it has been told of, and
those on record from the oldest. -/
structure Observer where
  stopAt : Option Nat
  seen : Nat
  recorded : List Access
  deriving DecidableEq, Repr

namespace Observer

/-- An observer that has been told nothing. -/
def fresh (stopAt : Option Nat) : Observer := ⟨stopAt, 0, []⟩

/-- What an observer records of an access. It is not told the width and assumes that of a
register. -/
def observation (access : Access) : Access := { access with width := 8 }

/-- The observer after it was told of accesses. -/
def tell (observer : Observer) (accesses : List Access) : Observer :=
  { observer with
    seen := observer.seen + accesses.length
    recorded := observer.recorded ++ accesses.map observation }

/-- Whether one of the next `count` accesses makes the observer ask for a stop. -/
def stopsWithin (observer : Observer) (count : Nat) : Bool :=
  match observer.stopAt with
  | none => false
  | some number => decide (observer.seen < number ∧ number ≤ observer.seen + count)

/-- The observer with nothing on record. -/
def clear (observer : Observer) : Observer := { observer with recorded := [] }

end Observer

end A64Machine
