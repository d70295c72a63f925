/-!
# Texts with exchanged values

A text is passed from left to right by a machine with a state. At the places that `slot` allows, the
values that stand there are exchanged for others; everything else stays. What follows from an exchange is
proved by induction on it, one character or one value at a time.
-/

namespace Stencil.Extraction

/-- The second text is the first one with other values. The machine runs over the first text; `slot` sees
its state, the value and the text behind, and `new` says what may be put for the value. -/
inductive Exchange {σ : Type} (next : σ → Char → σ) (slot : σ → List Char → List Char → Prop)
    (new : List Char → List Char → Prop) : σ → List Char → List Char → Prop where
  | nil (s : σ) : Exchange next slot new s [] []
  | keep {s : σ} (c : Char) {cs cs' : List Char} :
      Exchange next slot new (next s c) cs cs' → Exchange next slot new s (c :: cs) (c :: cs')
  | value {s : σ} {old put back back' : List Char} : slot s old back → new old put →
      Exchange next slot new (old.foldl next s) back back' →
      Exchange next slot new s (old ++ back) (put ++ back')

namespace Exchange

variable {σ : Type} {next : σ → Char → σ} {slot : σ → List Char → List Char → Prop}
  {new : List Char → List Char → Prop}

theorem append {s : σ} (gap : List Char) {cs cs' : List Char}
    (h : Exchange next slot new (gap.foldl next s) cs cs') :
    Exchange next slot new s (gap ++ cs) (gap ++ cs') := by
  induction gap generalizing s with
  | nil => exact h
  | cons c gap ih => exact .keep c (ih h)

theorem refl (s : σ) (cs : List Char) : Exchange next slot new s cs cs := by
  simpa using (nil (cs.foldl next s)).append cs

/-- When nothing but the value itself may be put for a value, the text stays. -/
theorem eq_of_same {s : σ} {cs cs' : List Char} (same : ∀ old put, new old put → put = old)
    (h : Exchange next slot new s cs cs') : cs' = cs := by
  induction h with
  | nil => rfl
  | keep c _ ih => rw [ih]
  | value _ allowed _ ih => rw [same _ _ allowed, ih]

end Exchange

end Stencil.Extraction
