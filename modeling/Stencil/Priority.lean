import Stencil.Json.Fields

/-!
# Priorities

A priority is a small number; one comes first. Zero is taken for one where a priority is set.
-/

namespace Stencil

/-- The place of an artifact in the order of processing. -/
structure Priority where
  value : UInt8
  deriving Repr, DecidableEq, Inhabited

namespace Priority

def highest : Priority := ⟨1⟩

def normal : Priority := ⟨3⟩

def of (n : UInt8) : Priority := if n = 0 then highest else ⟨n⟩

def text (p : Priority) : String := toString p.value.toNat

theorem one_le_of (n : UInt8) : 1 ≤ (of n).value := by
  simp only [of]
  split
  · decide
  · next h =>
    have : n.toNat ≠ 0 := fun e => h (UInt8.toNat.inj e)
    exact UInt8.le_iff_toNat_le.2 (by simpa using Nat.one_le_iff_ne_zero.2 this)

def byteOfJson? (j : Json) : Option UInt8 := (j.asNat? 8).map UInt8.ofNat

def toJson (p : Priority) : Json := .nat p.value.toNat

def ofJson? (j : Json) : Option Priority := (byteOfJson? j).map Priority.mk

end Priority

end Stencil
