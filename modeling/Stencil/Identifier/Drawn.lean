import Stencil.Digest
import Stencil.Identifier

/-!
# Drawn identifiers

New identifiers out of a seed and a number, spread over all identifiers as digests are. They have the
form of random ones: the thirteenth digit is 4, and the seventeenth is one of 8, 9, a and b.
-/

namespace Stencil.Identifier

def digestDigits (seed : String) (n : Nat) : List Nat :=
  (Digest.of (seed ++ "/" ++ toString n)).text.toList.filterMap Json.hexValue?

def randomForm (ds : List Nat) : List Nat :=
  ds.take 12 ++ 4 :: (ds.drop 13).take 3 ++ (8 + (ds.drop 16).headD 0 % 4) :: (ds.drop 17).take 15

def drawn (seed : String) (n : Nat) : Identifier :=
  let ds := randomForm (digestDigits seed n)
  ⟨BitVec.ofNat 128 (ds.foldl (fun n d => 16 * n + d) 0)⟩

theorem randomForm_version {ds : List Nat} (h : 12 ≤ ds.length) : (randomForm ds)[12]? = some 4 := by
  simp [randomForm, Nat.min_eq_left h]

end Stencil.Identifier
