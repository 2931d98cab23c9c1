import Handover.Table

/-!
# Identities

Numbers that name a terminal, a cell, a radio link and a measurement event.
Each has a type of its own, so they cannot be mixed up, and each can be the key
of a `Table`.
-/

namespace Handover

/-- A terminal (user equipment). -/
structure UeId where
  /-- The subscriber-like number of the terminal. -/
  value : UInt64
deriving DecidableEq, Repr, Inhabited

/-- A cell, serving or neighbouring. -/
structure CellId where
  /-- The physical cell number. -/
  value : UInt16
deriving DecidableEq, Repr, Inhabited

/-- A temporary radio link number, unique within one cell only. -/
structure Rnti where
  /-- The link number. -/
  value : UInt16
deriving DecidableEq, Repr, Inhabited

/-- A measurement event, as tagged on the reports it causes. -/
structure MeasId where
  /-- The tag. -/
  value : UInt8
deriving DecidableEq, Repr, Inhabited

namespace UeId

/-- Text of a terminal in messages. -/
def text (ue : UeId) : String :=
  "UE[" ++ toString ue.value.toNat ++ "]"

instance : Keyed UeId where
  rank ue := ue.value.toNat
  rank_injective := fun {first second} same => by
    cases first
    cases second
    simpa [UInt64.toNat_inj] using same

end UeId

namespace CellId

/-- The reserved number that stands for "no cell". -/
def none : CellId :=
  ⟨0⟩

/-- The cell is the reserved one. -/
def isNone (cell : CellId) : Bool :=
  cell.value == 0

/-- Text of a cell in messages. -/
def text (cell : CellId) : String :=
  "cell " ++ toString cell.value.toNat

instance : Keyed CellId where
  rank cell := cell.value.toNat
  rank_injective := fun {first second} same => by
    cases first
    cases second
    simpa [UInt16.toNat_inj] using same

end CellId

namespace Rnti

/-- Text of a radio link in messages. -/
def text (rnti : Rnti) : String :=
  "rnti " ++ toString rnti.value.toNat

instance : Keyed Rnti where
  rank rnti := rnti.value.toNat
  rank_injective := fun {first second} same => by
    cases first
    cases second
    simpa [UInt16.toNat_inj] using same

end Rnti

namespace MeasId

/-- Text of a measurement event in messages. -/
def text (event : MeasId) : String :=
  toString event.value.toNat

end MeasId

end Handover
