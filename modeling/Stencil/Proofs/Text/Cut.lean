import Mathlib.Data.List.DropRight
import Stencil.Text.Blank
import Stencil.Text.Bytes

/-!
# Cuts of a text

A text is cut exactly where a part of it ends, and of two fronts of a text the one with fewer bytes
is a front of the other. The cut within a number of bytes is at the last boundary between characters there. A text is what
is left of it when it is trimmed, with blanks around it (`exists_blanks_trim`).
-/

namespace Stencil.Text

@[simp] theorem takeBytes_byteSize (front rest : List Char) :
    takeBytes (byteSize front) (front ++ rest) = front := by
  induction front with
  | nil => cases rest with
    | nil => rfl
    | cons c rest =>
      have positive := c.utf8Size_pos
      simp only [byteSize_nil, List.nil_append, takeBytes]
      rw [if_neg (by omega)]
  | cons c front ih =>
    simp only [byteSize_cons, List.cons_append, takeBytes]
    rw [if_pos (by omega), Nat.add_sub_cancel_left, ih]

@[simp] theorem dropBytes_byteSize (front rest : List Char) :
    dropBytes (byteSize front) (front ++ rest) = rest := by
  have whole := takeBytes_append_dropBytes (byteSize front) (front ++ rest)
  rw [takeBytes_byteSize] at whole
  exact List.append_cancel_left whole

/-- Of two fronts of a text the one with fewer bytes is a front of the other. -/
theorem front_of_byteSize_le {a b c d : List Char} (same : a ++ b = c ++ d)
    (fewer : byteSize a ≤ byteSize c) : ∃ between, c = a ++ between ∧ b = between ++ d := by
  induction a generalizing c with
  | nil => exact ⟨c, rfl, same⟩
  | cons x a ih =>
    cases c with
    | nil =>
      have positive := x.utf8Size_pos
      simp only [byteSize_cons, byteSize_nil] at fewer
      omega
    | cons y c =>
      simp only [List.cons_append, List.cons.injEq] at same
      obtain ⟨rfl, tails⟩ := same
      simp only [byteSize_cons] at fewer
      obtain ⟨between, rfl, rest⟩ := ih tails (by omega)
      exact ⟨between, rfl, rest⟩

/-- A text falls apart in one way only at a number of bytes. -/
theorem append_inj_of_byteSize {a b c d : List Char} (same : a ++ b = c ++ d)
    (size : byteSize a = byteSize c) : a = c ∧ b = d := by
  obtain ⟨between, rfl, rfl⟩ := front_of_byteSize_le same size.le
  cases between with
  | nil => simp
  | cons x between =>
    have positive := x.utf8Size_pos
    simp only [byteSize_append, byteSize_cons] at size
    omega

/-- The front of a text up to the last boundary between characters within its first `n` bytes. -/
structure IsFront (n : Nat) (cs front : List Char) : Prop where
  begins : front <+: cs
  fits : byteSize front ≤ n
  last : ∀ other, other <+: cs → byteSize other ≤ n → byteSize other ≤ byteSize front

theorem byteSize_le_takeBytes {n : Nat} {cs other : List Char} (begins : other <+: cs)
    (fits : byteSize other ≤ n) : byteSize other ≤ byteSize (takeBytes n cs) := by
  induction cs generalizing n other with
  | nil => rw [List.prefix_nil.1 begins]; simp
  | cons c cs ih =>
    cases other with
    | nil => simp
    | cons d other =>
      obtain ⟨rfl, behind⟩ := List.cons_prefix_cons.1 begins
      rw [byteSize_cons] at fits
      have shorter : byteSize other ≤ byteSize (takeBytes (n - d.utf8Size) cs) :=
        ih behind (by omega)
      rw [takeBytes, if_pos (by omega), byteSize_cons, byteSize_cons]
      omega

theorem isFront_takeBytes (n : Nat) (cs : List Char) : IsFront n cs (takeBytes n cs) where
  begins := ⟨dropBytes n cs, takeBytes_append_dropBytes n cs⟩
  fits := byteSize_takeBytes_le n cs
  last _ := byteSize_le_takeBytes

theorem IsFront.eq_takeBytes {n : Nat} {cs front : List Char} (h : IsFront n cs front) :
    front = takeBytes n cs := by
  have cut := isFront_takeBytes n cs
  obtain ⟨rest, whole⟩ := h.begins
  have size : byteSize front = byteSize (takeBytes n cs) := by
    apply Nat.le_antisymm
    · exact cut.last front h.begins h.fits
    · exact h.last _ cut.begins cut.fits
  exact (append_inj_of_byteSize (whole.trans (takeBytes_append_dropBytes n cs).symm) size).1

theorem exists_append_dropEnd (p : Char → Bool) (cs : List Char) :
    ∃ tail, cs = (cs.reverse.dropWhile p).reverse ++ tail := by
  obtain ⟨tail, whole⟩ := List.rdropWhile_prefix p (l := cs)
  exact ⟨tail, whole.symm⟩

/-! ### Blanks around a text -/

theorem trimEnd_append {cs blanks : List Char} (blank : allBlank blanks = true) :
    trimEnd (cs ++ blanks) = trimEnd cs := by
  have gone : ∀ c ∈ blanks.reverse, isBlank c = true := by
    intro c among
    exact List.all_eq_true.1 blank c (List.mem_reverse.1 among)
  unfold trimEnd
  rw [List.reverse_append, List.dropWhile_append_of_pos gone]

theorem trimEnd_of_not_isBlank {c : Char} (cs : List Char) (solid : isBlank c = false) :
    trimEnd (cs ++ [c]) = cs ++ [c] := by
  simp [trimEnd, solid]

theorem trimStart_append {blanks : List Char} (blank : allBlank blanks = true) (cs : List Char) :
    trimStart (blanks ++ cs) = trimStart cs :=
  List.dropWhile_append_of_pos (List.all_eq_true.1 blank)

theorem exists_blanks_trimStart (cs : List Char) :
    ∃ blanks, cs = blanks ++ trimStart cs ∧ allBlank blanks = true := by
  refine ⟨cs.takeWhile isBlank, List.takeWhile_append_dropWhile.symm, ?_⟩
  exact List.all_eq_true.2 fun c among => List.mem_takeWhile_imp among

theorem exists_blanks_trimEnd (cs : List Char) :
    ∃ blanks, cs = trimEnd cs ++ blanks ∧ allBlank blanks = true := by
  refine ⟨(cs.reverse.takeWhile isBlank).reverse, ?_, ?_⟩
  · rw [trimEnd, ← List.reverse_append, List.takeWhile_append_dropWhile, List.reverse_reverse]
  · refine List.all_eq_true.2 fun c among => ?_
    exact List.mem_takeWhile_imp (List.mem_reverse.1 among)

/-- A text is its trimmed form with blanks around it. -/
theorem exists_blanks_trim (cs : List Char) : ∃ before after, cs = before ++ trim cs ++ after ∧
    allBlank before = true ∧ allBlank after = true := by
  obtain ⟨before, front, blankBefore⟩ := exists_blanks_trimStart cs
  obtain ⟨after, back, blankAfter⟩ := exists_blanks_trimEnd (trimStart cs)
  refine ⟨before, after, ?_, blankBefore, blankAfter⟩
  rw [List.append_assoc, trim, ← back, ← front]

theorem mem_of_mem_trim {c : Char} {cs : List Char} (among : c ∈ trim cs) : c ∈ cs := by
  obtain ⟨before, after, whole, -, -⟩ := exists_blanks_trim cs
  rw [whole]
  simp [among]

theorem trim_of_blanks {before after : List Char} {c : Char} (cs : List Char)
    (blankBefore : allBlank before = true) (solid : isBlank c = false)
    (blankAfter : allBlank after = true) :
    trim (before ++ c :: cs ++ after) = trimEnd (c :: cs) := by
  rw [trim, List.append_assoc, trimStart_append blankBefore, List.cons_append,
    trimStart_of_not_isBlank solid, ← List.cons_append, trimEnd_append blankAfter]

end Stencil.Text
