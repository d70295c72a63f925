import Mathlib.Data.List.DropRight
import Mathlib.Data.Prod.Lex
import Mathlib.Order.Bounds.Basic
import Stencil.Proofs.Text.Cut
import Stencil.Text.Lines

/-!
# Positions

Every character moves a place on in the order of reading, so that no two boundaries between characters share a
place. The place of an offset is that of the last boundary up to it, and is told by counting in the text before:
the line feeds, and the characters behind the last of them (`positionAt_identifies`).
-/

namespace Stencil.Text

namespace Position

def rank (p : Position) : ℕ ×ₗ ℕ := toLex (p.line, p.column)

theorem rank_lt_next (p : Position) (c : Char) : p.rank < (p.next c).rank := by
  rw [rank, rank, Prod.Lex.toLex_lt_toLex, next]
  split
  · exact .inl (Nat.lt_succ_self p.line)
  · exact .inr ⟨rfl, Nat.lt_succ_self p.column⟩

theorem rank_lt_foldl_next (p : Position) (c : Char) (cs : List Char) :
    p.rank < ((c :: cs).foldl next p).rank := by
  induction cs generalizing p c with
  | nil => exact rank_lt_next p c
  | cons d cs ih =>
    calc p.rank
      _ < (p.next c).rank := rank_lt_next p c
      _ < ((d :: cs).foldl next (p.next c)).rank := ih (p.next c) d

theorem rank_after_lt (front : List Char) {between : List Char} (some : between ≠ []) :
    (after front).rank < (after (front ++ between)).rank := by
  obtain ⟨c, cs, rfl⟩ := List.exists_cons_of_ne_nil some
  rw [after, after, List.foldl_append]
  exact rank_lt_foldl_next (front.foldl next start) c cs

theorem after_eq (cs : List Char) :
    after cs = ⟨cs.count '\n' + 1, (cs.rtakeWhile (· != '\n')).length + 1⟩ := by
  induction cs using List.reverseRecOn with
  | nil => rfl
  | append_singleton cs c ih =>
    rw [after] at ih ⊢
    rw [List.foldl_concat, ih, next, List.rtakeWhile_concat, List.count_append]
    by_cases feed : c = '\n'
    · simp [feed]
    · simp [feed]

end Position

/-! ### Boundaries between characters -/

@[simp] theorem byteSize_toList (s : String) : byteSize s.toList = s.utf8ByteSize := by
  induction s using String.push_induction with
  | empty => rfl
  | push s c ih => simp [ih]

variable {s before after : String} {p q : s.Pos} {n : Nat}

theorem toList_of_splits (cut : p.Splits before after) : s.toList = before.toList ++ after.toList := by
  rw [← String.toList_append, ← cut.eq_append]

theorem byteSize_of_splits (cut : p.Splits before after) : byteSize before.toList = p.offset.byteIdx := by
  rw [byteSize_toList, cut.offset_eq_rawEndPos, String.byteIdx_rawEndPos]

theorem exists_pos_of_prefix {front : List Char} (begins : front <+: s.toList) :
    ∃ q : s.Pos, q.offset.byteIdx = byteSize front := by
  obtain ⟨rest, whole⟩ := begins
  have cut : s = String.ofList front ++ String.ofList rest := by
    rw [← String.ofList_append, whole, String.ofList_toList]
  have valid : (String.ofList front).rawEndPos.IsValid s :=
    String.Pos.Raw.isValid_iff_exists_append.2 ⟨_, _, cut, rfl⟩
  refine ⟨s.pos _ valid, ?_⟩
  have size := byteSize_toList (String.ofList front)
  rw [String.toList_ofList] at size
  exact size.symm

theorem isGreatest_posLE (s : String) (n : Nat) :
    IsGreatest {q : s.Pos | q.offset.byteIdx ≤ n} (s.posLE ⟨n⟩) :=
  ⟨String.offset_posLE_le, fun _ reached => String.le_posLE_iff.2 reached⟩

/-- The text before the last boundary up to an offset is its longest front there. -/
theorem isFront_of_splits (greatest : IsGreatest {q : s.Pos | q.offset.byteIdx ≤ n} p)
    (cut : p.Splits before after) : IsFront n s.toList before.toList where
  begins := ⟨after.toList, (toList_of_splits cut).symm⟩
  fits := (byteSize_of_splits cut).trans_le greatest.1
  last other begins fits := by
    -- Another front ends at a boundary too, and that is not behind the last one.
    obtain ⟨q, ends⟩ := exists_pos_of_prefix begins
    have up : q ≤ p := greatest.2 (ends.trans_le fits)
    rw [byteSize_of_splits cut, ← ends]
    exact up

theorem positionAt_of_splits (cut : p.Splits before after) :
    positionAt s.toList p.offset.byteIdx = Position.after before.toList := by
  rw [positionAt, ← byteSize_of_splits cut, toList_of_splits cut, takeBytes_byteSize]

/-- An offset has the place of the last boundary up to it. -/
theorem positionAt_of_isGreatest (greatest : IsGreatest {q : s.Pos | q.offset.byteIdx ≤ n} p) :
    positionAt s.toList n = positionAt s.toList p.offset.byteIdx := by
  have front := isFront_of_splits greatest p.splits
  rw [positionAt_of_splits p.splits, front.eq_takeBytes, positionAt]

/-- An offset inside a character, and one past the end. -/
example : positionAt "é\nab".toList 1 = ⟨1, 1⟩ ∧ positionAt "é\nab".toList 9 = ⟨2, 3⟩ := by decide

theorem rank_positionAt_lt (earlier : p < q) :
    (positionAt s.toList p.offset.byteIdx).rank < (positionAt s.toList q.offset.byteIdx).rank := by
  obtain ⟨between, some, longer, -⟩ := (p.splits.lt_iff_exists_eq_append q.splits).1 earlier
  rw [positionAt_of_splits p.splits, positionAt_of_splits q.splits, longer, String.toList_append]
  exact Position.rank_after_lt _ (by simpa using some)

/-- Every offset has a place, that of the last boundary of the text up to it, whose line and column are counted in
the text before that boundary. A later boundary has a later place, and no other boundary has the same one. -/
theorem positionAt_identifies (s : String) :
    (∀ n : Nat, ∃ p : s.Pos, IsGreatest {q : s.Pos | q.offset.byteIdx ≤ n} p ∧
      positionAt s.toList n = positionAt s.toList p.offset.byteIdx ∧
      ∃ before after : String, p.Splits before after ∧ positionAt s.toList p.offset.byteIdx =
        ⟨before.toList.count '\n' + 1, (before.toList.rtakeWhile (· != '\n')).length + 1⟩) ∧
    (∀ p q : s.Pos, p < q →
      (positionAt s.toList p.offset.byteIdx).rank < (positionAt s.toList q.offset.byteIdx).rank) ∧
    ∀ p q : s.Pos, p ≠ q → positionAt s.toList p.offset.byteIdx ≠ positionAt s.toList q.offset.byteIdx := by
  refine ⟨fun n => ?_, fun p q => rank_positionAt_lt, fun p q other same => ?_⟩
  · have greatest := isGreatest_posLE s n
    refine ⟨s.posLE ⟨n⟩, greatest, positionAt_of_isGreatest greatest, _, _, (s.posLE ⟨n⟩).splits, ?_⟩
    rw [positionAt_of_splits (s.posLE ⟨n⟩).splits, Position.after_eq]
  · rcases Std.lt_trichotomy p q with earlier | here | later
    · exact (rank_positionAt_lt earlier).ne (congrArg Position.rank same)
    · exact other here
    · exact (rank_positionAt_lt later).ne (congrArg Position.rank same.symm)

/-- Behind a line feed the column is smaller, and the place later all the same. -/
theorem positionAt_identifies_lineFeed : ∃ p q : "é\nab".Pos,
    p.offset.byteIdx = 2 ∧ q.offset.byteIdx = 3 ∧ p < q ∧ p ≠ q ∧
      positionAt "é\nab".toList 2 = ⟨1, 2⟩ ∧ positionAt "é\nab".toList 3 = ⟨2, 1⟩ ∧
      (positionAt "é\nab".toList 2).rank < (positionAt "é\nab".toList 3).rank ∧
      positionAt "é\nab".toList 2 ≠ positionAt "é\nab".toList 3 := by
  have before : (⟨2⟩ : String.Pos.Raw).IsValid "é\nab" := by decide
  have behind : (⟨3⟩ : String.Pos.Raw).IsValid "é\nab" := by decide
  have earlier : "é\nab".pos ⟨2⟩ before < "é\nab".pos ⟨3⟩ behind :=
    Nat.lt_succ_self 2
  obtain ⟨-, ordered, distinct⟩ := positionAt_identifies "é\nab"
  have other := Std.ne_of_lt earlier
  exact ⟨_, _, rfl, rfl, earlier, other, by decide, by decide, ordered _ _ earlier, distinct _ _ other⟩

end Stencil.Text
