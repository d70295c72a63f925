import Stencil.Proofs.Text.Cut
import Stencil.Script.Parse

/-!
# Cursors on a source

A cursor that is on a source holds what is left of it and counts the bytes before that. Whatever layout
is passed, the cursor stays on its source.
-/

namespace Stencil.Script

/-- The text of a script, which cursors and nodes point into. -/
structure Source where
  text : List Char

/-- The rest and the offset of a cursor are a cut of the source. -/
def Cursor.On (source : Source) (cur : Cursor) : Prop :=
  ∃ front, source.text = front ++ cur.rest ∧ cur.offset = Text.byteSize front

/-- The cursor of what comes next is on the source. -/
def Ahead.On (source : Source) : Ahead → Prop
  | .string cur | .token cur => cur.On source
  | .newline | .indent _ | .dedent => True

variable {source : Source}

@[simp] theorem Ahead.on_string {cur : Cursor} : (Ahead.string cur).On source ↔ cur.On source := Iff.rfl

@[simp] theorem Ahead.on_token {cur : Cursor} : (Ahead.token cur).On source ↔ cur.On source := Iff.rfl

namespace Cursor

theorem on_congr {cur cur' : Cursor} (rest : cur'.rest = cur.rest) (offset : cur'.offset = cur.offset) :
    cur'.On source ↔ cur.On source := by
  rw [On, On, rest, offset]

@[simp] theorem on_depths {cur : Cursor} {depths : List Nat} :
    Cursor.On source { cur with depths } ↔ cur.On source := on_congr rfl rfl

@[simp] theorem on_inFormat {cur : Cursor} {inFormat : Bool} :
    Cursor.On source { cur with inFormat } ↔ cur.On source := on_congr rfl rfl

/-- Passing characters of the rest and their bytes keeps the cursor on the source. -/
theorem On.pass {cur : Cursor} (on : cur.On source) {passed rest : List Char}
    (whole : cur.rest = passed ++ rest) {offset : Nat}
    (place : offset = cur.offset + Text.byteSize passed) :
    Cursor.On source { cur with rest, offset } := by
  obtain ⟨front, split, bytes⟩ := on
  refine ⟨front ++ passed, ?_, ?_⟩
  · rw [split, whole, List.append_assoc]
  · rw [Text.byteSize_append, ← bytes]
    exact place

theorem exists_of_dropping (p : Char → Bool) (offset : Nat) (cs : List Char) :
    ∃ passed, cs = passed ++ (dropping p offset cs).1 ∧
      (dropping p offset cs).2 = offset + Text.byteSize passed := by
  induction cs generalizing offset with
  | nil => exact ⟨[], rfl, rfl⟩
  | cons c cs ih =>
    rw [dropping]
    split
    · obtain ⟨passed, whole, place⟩ := ih (offset + c.utf8Size)
      refine ⟨c :: passed, ?_, ?_⟩
      · rw [List.cons_append, ← whole]
      · rw [place, Text.byteSize_cons, Nat.add_assoc]
    · exact ⟨[], rfl, rfl⟩

@[simp] theorem On.skipWhile {cur : Cursor} (on : cur.On source) (p : Char → Bool) :
    (cur.skipWhile p).On source := by
  obtain ⟨passed, whole, place⟩ := exists_of_dropping p cur.offset cur.rest
  exact on.pass whole place

theorem exists_of_skip (n : Nat) (cur : Cursor) :
    ∃ passed, cur.rest = passed ++ (cur.skip n).rest ∧
      (cur.skip n).offset = cur.offset + Text.byteSize passed := by
  induction n generalizing cur with
  | zero => exact ⟨[], rfl, rfl⟩
  | succ n ih =>
    rw [skip]
    split
    · exact ⟨[], rfl, rfl⟩
    · next c cs rest =>
      obtain ⟨passed, whole, place⟩ := ih { cur with rest := cs, offset := cur.offset + c.utf8Size }
      refine ⟨c :: passed, ?_, ?_⟩
      · rw [rest, List.cons_append, ← whole]
      · rw [place, Text.byteSize_cons, Nat.add_assoc]

@[simp] theorem On.skip {cur : Cursor} (on : cur.On source) (n : Nat) : (cur.skip n).On source := by
  obtain ⟨passed, whole, place⟩ := exists_of_skip n cur
  exact (on_congr rfl rfl).1 (on.pass whole place)

end Cursor

/-! ### What comes next -/

/-- The rest of a gap is what is left of a text behind some bytes, and its offset counts them. -/
def Gap.Reached (offset : Nat) (cs : List Char) (g : Gap) : Prop :=
  ∃ passed, cs = passed ++ g.rest ∧ g.offset = offset + Text.byteSize passed

theorem Gap.Reached.behind {offset offset' : Nat} {cs : List Char} {g : Gap}
    (h : g.Reached offset' cs) (front : List Char)
    (bytes : offset' = offset + Text.byteSize front) : g.Reached offset (front ++ cs) := by
  obtain ⟨passed, whole, place⟩ := h
  refine ⟨front ++ passed, ?_, ?_⟩
  · rw [List.append_assoc, ← whole]
  · rw [place, bytes, Text.byteSize_append, Nat.add_assoc]

theorem reached_of_readGap {passes inComment : Bool} {g g' : Gap} {cs : List Char}
    (h : readGap passes inComment g cs = some g') : g'.Reached g.offset cs := by
  fun_induction readGap passes inComment g cs with
  | case1 =>
    obtain rfl := Option.some.inj h
    exact ⟨[], rfl, rfl⟩
  | case2 g c cs after ih => exact (ih h).behind [c] rfl
  | case3 _ g cs _ after ih => exact (ih h).behind ['\n'] rfl
  | case4 _ g cs _ after _ ih => exact (ih h).behind [' '] rfl
  | case5 _ g cs _ after _ _ ih => exact (ih h).behind ['\t'] rfl
  | case6 _ g c cs after _ _ _ _ _ ih => exact (ih h).behind [c] rfl
  | case7 _ g c cs after _ _ _ _ _ _ _ ih => exact (ih h).behind [c] rfl
  | case8 => cases h
  | case9 _ _ _ _ _ _ _ _ _ ih => exact (ih h).behind ['\\', '\n'] rfl
  | case10 _ _ _ _ _ _ _ _ ih => exact (ih h).behind ['\\', '\r'] rfl
  | case11 _ _ _ _ _ _ _ _ _ ih => exact (ih h).behind ['\\', '\r', '\n'] rfl
  | case12 _ _ _ _ _ _ _ _ ih => exact (ih h).behind ['\\'] rfl
  | case13 => cases h
  | case14 =>
    obtain rfl := Option.some.inj h
    exact ⟨[], rfl, rfl⟩

theorem on_of_decided? {e : Expectation} {cur : Cursor} (on : cur.On source) {a : Ahead}
    (h : decided? e cur = some a) : a.On source := by
  unfold decided? at h
  obtain ⟨g, read, h⟩ := Option.bind_eq_some_iff.1 h
  obtain ⟨passed, whole, place⟩ := reached_of_readGap read
  split at h
  · next a' found =>
    obtain rfl := Option.some.inj h
    unfold layout? at found
    split at found
    · cases found
    · split at found
      · exact Option.some.inj found ▸ trivial
      · split at found
        · exact Option.some.inj found ▸ trivial
        · split at found
          · exact Option.some.inj found ▸ trivial
          · cases found
  · split at h
    · exact Option.some.inj h ▸ on.pass whole place
    · cases h

theorem Cursor.On.ahead {cur : Cursor} (on : cur.On source) (e : Expectation) :
    (cur.ahead e).On source := by
  -- What is passed counts from behind the blanks, in a cursor that keeps the blocks of the first one.
  have joined : ∀ (passed : List Char) {cur : Cursor} {rest : List Char} {offset : Nat}, cur.On source →
      (cur.skipWhile isGapChar).rest = passed ++ rest →
      offset = (cur.skipWhile isGapChar).offset + Text.byteSize passed →
      Cursor.On source { cur with rest, offset } := by
    intro passed cur rest offset on whole place
    exact (Cursor.on_congr rfl rfl).1 ((on.skipWhile isGapChar).pass whole place)
  fun_induction Cursor.ahead e cur with
  | case1 cur a found => exact on_of_decided? on found
  | case2 cur _ rest found _ _ ih =>
    obtain ⟨passed, whole, place⟩ :=
      Cursor.exists_of_dropping (· != '\n') ((cur.skipWhile isGapChar).offset + 1) rest
    refine ih (joined ('#' :: passed) on ?_ ?_)
    · rw [found, List.cons_append, ← whole]
    · rw [place, Nat.add_assoc]
      rfl
  | case3 cur _ rest found _ ih => exact ih (joined ['\\', '\n'] on found rfl)
  | case4 cur _ rest found _ ih => exact ih (joined ['\\', '\r', '\n'] on found rfl)
  | case5 cur _ found _ ih => exact ih (joined ['\\'] on found rfl)
  | case6 cur _ rest found _ ih => exact ih (joined ['\\', '\x00'] on found rfl)
  | case7 cur => exact on.skipWhile isGapChar

end Stencil.Script
