import Stencil.Proofs.Placeholder.Segments

/-!
# Outlines of templates

An outline is what a template's text is made from: raw texts with names between them. Written with the raw texts
escaped and the names marked, it is read off the segments again (`ofSegments_segments`), as long as no raw text in
front of a name ends in a dollar, which would turn the mark behind it into an escape.
-/

namespace Stencil.Placeholder

/-- A raw text, and then names, each with the raw text behind it. -/
structure Outline where
  front : List Char
  marked : List (List Char × List Char) := []
  deriving Repr, DecidableEq, Inhabited

namespace Outline

/-- The template's text: raw texts escaped, and names marked. -/
def write (o : Outline) : List Char :=
  escape o.front ++ o.marked.flatMap fun m => mark m.1 ++ escape m.2

def names (o : Outline) : List (List Char) := o.marked.map (·.1)

def gaps (o : Outline) : List (List Char) := o.front :: o.marked.map (·.2)

/-- An outline with raw text in front of it. -/
def pushFront (text : List Char) (o : Outline) : Outline := { o with front := text ++ o.front }

/-- Cuts segments at their placeholders, and reads what lies between as raw text. -/
def ofSegments : List Segment → Outline
  | [] => ⟨[], []⟩
  | .literal text :: segs => (ofSegments segs).pushFront text
  | .escape :: segs => (ofSegments segs).pushFront ['$', '{']
  | .placeholder name :: segs => ⟨[], (name, (ofSegments segs).front) :: (ofSegments segs).marked⟩

/-- Names that can be marked, and no raw text in front of one that ends in a dollar. -/
structure Separated (o : Outline) : Prop where
  names : ∀ name ∈ o.names, isName name = true
  gaps : ∀ gap ∈ o.gaps.dropLast, gap.getLast? ≠ some '$'

variable {o : Outline} {segs : List Segment}

@[simp] theorem pushFront_nil (o : Outline) : o.pushFront [] = o := rfl

@[simp] theorem ofSegments_pushChar (c : Char) (segs : List Segment) :
    ofSegments (pushChar c segs) = (ofSegments segs).pushFront [c] := by
  cases segs with
  | nil => rfl
  | cons s segs => cases s <;> rfl

@[simp] theorem ofSegments_pushText (g : List Char) (segs : List Segment) :
    ofSegments (pushText g segs) = (ofSegments segs).pushFront g := by
  fun_induction pushText g segs with
  | case1 => rfl
  | case2 segs rest ih => rw [ofSegments, ih]; rfl
  | case3 segs c rest _ ih => rw [ofSegments_pushChar, ih]; rfl

theorem write_cons (front name gap : List Char) (rest : List (List Char × List Char)) :
    write ⟨front, (name, gap) :: rest⟩ = escape front ++ (mark name ++ write ⟨gap, rest⟩) := by
  simp only [write, List.flatMap_cons, List.append_assoc]

theorem Separated.tail {front name gap : List Char} {rest : List (List Char × List Char)}
    (h : Separated ⟨front, (name, gap) :: rest⟩) : Separated ⟨gap, rest⟩ where
  names other among := h.names other (List.mem_cons_of_mem name among)
  gaps other among := h.gaps other (List.mem_cons_of_mem front among)

theorem ofSegments_segments_escape (raw : List Char) : ofSegments (segments (escape raw)) = ⟨raw, []⟩ := by
  have read := segments_escape_append (g := raw) (T := []) (.inr rfl)
  rw [List.append_nil] at read
  rw [read, ofSegments_pushText, segments]
  exact congrArg (Outline.mk · []) (List.append_nil raw)

theorem Separated.ofSegments_write (h : o.Separated) : ofSegments (segments o.write) = o := by
  obtain ⟨front, marked⟩ := o
  induction marked generalizing front with
  | nil =>
    have alone : write ⟨front, []⟩ = escape front := List.append_nil _
    rw [alone, ofSegments_segments_escape]
  | cons m rest ih =>
    obtain ⟨name, gap⟩ := m
    have valid : isName name = true := h.names name List.mem_cons_self
    have apart : front.getLast? ≠ some '$' := h.gaps front List.mem_cons_self
    calc ofSegments (segments (write ⟨front, (name, gap) :: rest⟩))
        = ofSegments (pushText front (.placeholder name :: segments (write ⟨gap, rest⟩))) := by
          rw [write_cons, segments_escape_append (.inl apart), segments_mark valid]
      _ = pushFront front ⟨[], (name, gap) :: rest⟩ := by
          rw [ofSegments_pushText, ofSegments, ih gap h.tail]
      _ = ⟨front, (name, gap) :: rest⟩ := congrArg (Outline.mk · _) (List.append_nil front)

/-- An outline is read off its text again: the segments have its names in order as their placeholders, and what
lies between them is its raw texts. A raw text alone is read back whatever it is. -/
theorem ofSegments_segments :
    (∀ o : Outline, o.Separated → ofSegments (segments o.write) = o) ∧
      ∀ raw : List Char, ofSegments (segments (escape raw)) = ⟨raw, []⟩ :=
  ⟨fun _ separated => separated.ofSegments_write, ofSegments_segments_escape⟩

/-- Runs of dollars, an opener that is not closed, an escape, a mark in raw text, and a dollar at the end. -/
def tangled : Outline :=
  ⟨"$$ $\x7b".toList, [("_a".toList, "$$\x7bb\x7d \x7d".toList), ("b9".toList, []),
    ("c".toList, "$\x7bc\x7d$$$".toList)]⟩

theorem ofSegments_segments_tangled :
    tangled.Separated ∧ ofSegments (segments tangled.write) = tangled ∧
      ofSegments (segments (escape "$$\x7b$".toList)) = ⟨"$$\x7b$".toList, []⟩ := by
  have separated : tangled.Separated := ⟨by decide, by decide⟩
  exact ⟨separated, ofSegments_segments.1 tangled separated, ofSegments_segments.2 _⟩

end Outline

end Stencil.Placeholder
