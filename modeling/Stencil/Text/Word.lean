import Stencil.Text.Ranges

/-!
# Identifier characters and word characters

Membership in the tables of `Ranges`, ASCII first. A word character is one between which and its
neighbour no word boundary lies: letters, marks, decimal digits, connecting punctuation and the two
joiners.
-/

namespace Stencil.Text

def inRanges (rs : Array (Nat × Nat)) (n : Nat) : Bool :=
  rs.any fun r => r.1 ≤ n && n ≤ r.2

def isAsciiIdentStart (c : Char) : Bool := c.isAlpha || c == '_'

def isAsciiIdentContinue (c : Char) : Bool := c.isAlphanum || c == '_'

/-- Characters that may start an identifier: XID_Start and the underscore. -/
def isIdentStart (c : Char) : Bool :=
  if c.toNat < 0x80 then isAsciiIdentStart c else inRanges Ranges.identStart c.toNat

/-- Characters that may continue an identifier: XID_Continue. -/
def isIdentContinue (c : Char) : Bool :=
  if c.toNat < 0x80 then isAsciiIdentContinue c
  else inRanges Ranges.identStart c.toNat || inRanges Ranges.identOnlyContinue c.toNat

def isDecimalDigit (c : Char) : Bool :=
  if c.toNat < 0x80 then c.isDigit else inRanges Ranges.decimalDigit c.toNat

/-- Identifier characters that are punctuation or other numbers, and so not word characters. -/
def isIdentNotWord (n : Nat) : Bool :=
  n == 0xb7 || n == 0x387 || (0x1369 ≤ n && n ≤ 0x1371) || n == 0x19da || n == 0x2118 || n == 0x212e

/-- Word characters that no identifier holds: joiners, enclosing marks, circled letters and a few
presentation forms. -/
def isWordNotIdent (n : Nat) : Bool :=
  n == 0x37a || n == 0x488 || n == 0x489 || n == 0x1abe || n == 0x200c || n == 0x200d ||
    (0x20dd ≤ n && n ≤ 0x20e0) || (0x20e2 ≤ n && n ≤ 0x20e4) || (0x24b6 ≤ n && n ≤ 0x24e9) ||
    n == 0x2e2f || (0xa670 ≤ n && n ≤ 0xa672) || (0xfc5e ≤ n && n ≤ 0xfc63) || n == 0xfdfa ||
    n == 0xfdfb || (0xfe70 ≤ n && n ≤ 0xfe7e && n % 2 == 0) || (0x1f130 ≤ n && n ≤ 0x1f149) ||
    (0x1f150 ≤ n && n ≤ 0x1f169) || (0x1f170 ≤ n && n ≤ 0x1f189)

def isWordChar (c : Char) : Bool :=
  if c.toNat < 0x80 then isAsciiIdentContinue c
  else isWordNotIdent c.toNat || (isIdentContinue c && !isIdentNotWord c.toNat)

theorem isIdentContinue_of_isIdentStart {c : Char} (h : isIdentStart c = true) :
    isIdentContinue c = true := by
  simp only [isIdentStart, isIdentContinue] at h ⊢
  split at h
  · next lt =>
    simp only [if_pos lt, isAsciiIdentContinue, isAsciiIdentStart, Bool.or_eq_true] at h ⊢
    rcases h with h | h
    · exact Or.inl (by simp [Char.isAlphanum, h])
    · exact Or.inr h
  · next ge => simp [if_neg ge, h]

end Stencil.Text
