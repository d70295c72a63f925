/-!
# Words

Which integers have a place in words of a number of bits.
-/

namespace Stencil.Decimal

def isWord (bits : Nat) (i : Int) : Bool := 0 ≤ i && i.toNat < Nat.pow 2 bits

def isSignedWord (bits : Nat) (i : Int) : Bool :=
  if 0 ≤ i then i.toNat < Nat.pow 2 (bits - 1) else (-i).toNat ≤ Nat.pow 2 (bits - 1)

theorem isWord_natCast {bits n : Nat} : isWord bits n = true ↔ n < Nat.pow 2 bits := by
  simp [isWord]

theorem isSignedWord_of_isWord {bits : Nat} {i : Int} (h : isWord (bits - 1) i = true) :
    isSignedWord bits i = true := by
  simp only [isWord, Bool.and_eq_true, decide_eq_true_eq] at h
  rw [isSignedWord, if_pos h.1]
  exact decide_eq_true h.2

end Stencil.Decimal
