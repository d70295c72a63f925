import Stencil.Proofs.Extraction.Exchange
import Stencil.Proofs.Extraction.Standing
import Stencil.Proofs.Extraction.Variables
import Stencil.Proofs.Placeholder.Segments

/-!
# Parameters restore a text

The content that `parameterize` writes reads back, with values for its variables, as the text that it was
made from with values exchanged at the candidates; the defaults of the variables are the values that stood
there. The induction is on the candidates: those before the offset are skipped, and each of the others is
found behind the offset because it stands in the text.
-/

namespace Stencil.Extraction

open Placeholder (segments escape mark marked fill)

variable {σ : Type} {next : σ → Char → σ} {slot : σ → List Char → List Char → Prop}
  {new : List Char → List Char → Prop}

/-- A content marks declared variables only, forgets no variable that was declared before, and says a
text with values exchanged, whatever may be put for the defaults of the variables. -/
structure Restores (next : σ → Char → σ) (slot : σ → List Char → List Char → Prop)
    (new : List Char → List Char → Prop) (s : σ) (vs : Variables) (rest : List Char)
    (made : List Char × Variables) : Prop where
  sound : made.2.Sound
  grown : Variables.Extends vs.schema made.2.schema
  declared : ∀ name ∈ marked (segments made.1),
    ∃ type default, made.2.schema.get? (String.ofList name) = some (.optional type default)
  filled : ∀ value : List Char → List Char,
    (∀ name type default, made.2.schema.get? name = some (.optional type default) →
      new default.toList (value name.toList)) →
    Exchange next slot new s rest (fill value (segments made.1))

/-- What an escaped gap and a placeholder in front of a content add to its segments. -/
theorem segments_replaced {gap name : List Char} (plain : gap.getLast? ≠ some '$')
    (valid : Placeholder.isName name = true) (content : List Char) :
    segments (escape gap ++ mark name ++ content) =
      Placeholder.pushText gap (.placeholder name :: segments content) := by
  rw [List.append_assoc, Placeholder.segments_escape_append (.inl plain), Placeholder.segments_mark valid]

theorem restores_escape (s : σ) {vs : Variables} (sound : vs.Sound) (rest : List Char) :
    Restores next slot new s vs rest (escape rest, vs) where
  sound := sound
  grown := .refl _
  declared := by simp [Placeholder.marked_segments_escape]
  filled := fun value _ => by
    rw [Placeholder.fill_segments_escape]
    exact .refl s rest

/-- One more candidate in front: its gap is escaped and its value marked. -/
theorem Restores.cons {s : σ} {vs : Variables} (sound : vs.Sound) {c : Candidate}
    {gap rest : List Char} {made : List Char × Variables}
    (h : Restores next slot new ((gap ++ c.value).foldl next s) (vs.nameOf c).2 rest made)
    (plain : gap.getLast? ≠ some '$') (here : slot (gap.foldl next s) c.value rest) :
    Restores next slot new s vs (gap ++ (c.value ++ rest))
      (escape gap ++ mark (vs.nameOf c).1.toList ++ made.1, made.2) := by
  obtain ⟨-, grown, type, first⟩ := Variables.nameOf_spec sound c
  have declared := h.grown _ _ first
  have valid := Variables.isName_nameOf sound c
  have read := segments_replaced plain valid made.1
  refine ⟨h.sound, grown.trans h.grown, ?_, ?_⟩
  · intro name among
    rw [read, Placeholder.marked_pushText, Placeholder.marked_placeholder] at among
    rcases List.mem_cons.1 among with rfl | among
    · rw [String.ofList_toList]
      exact ⟨type, _, declared⟩
    · exact h.declared name among
  · intro value values
    have put := values _ _ _ declared
    rw [String.toList_ofList] at put
    have behind := h.filled value values
    rw [List.foldl_append] at behind
    rw [read, Placeholder.fill_pushText, Placeholder.fill_placeholder]
    exact (Exchange.value here put behind).append gap

/-- A candidate that stands in a text is skipped, or is found behind a gap and becomes a placeholder. The gap
ends with no dollar, which would escape the mark. -/
theorem parameterize_cons {cs : List Char} {c : Candidate} (stands : Stands cs c.start c.value)
    {done rest : List Char} (split : cs = done ++ rest) (vs : Variables) (found : List Candidate) :
    (c.start < Text.byteSize done ∧ parameterize (Text.byteSize done) rest vs (c :: found) =
      parameterize (Text.byteSize done) rest vs found) ∨
    ∃ gap after, rest = gap ++ (c.value ++ after) ∧ gap.getLast? ≠ some '$' ∧
      c.start = Text.byteSize (done ++ gap) ∧ c.stop = Text.byteSize (done ++ (gap ++ c.value)) ∧
      parameterize (Text.byteSize done) rest vs (c :: found) =
        let behind := parameterize c.stop after (vs.nameOf c).2 found
        (escape gap ++ mark (vs.nameOf c).1.toList ++ behind.1, behind.2) := by
  obtain ⟨front, after, whole, start, last, ends, plain⟩ := stands
  rw [parameterize]
  by_cases before : c.start < Text.byteSize done
  · rw [if_pos (.inl before)]
    exact .inl ⟨before, rfl⟩
  · obtain ⟨gap, rfl, rfl⟩ := Text.front_of_byteSize_le (split.symm.trans whole)
      (Nat.not_lt.1 (start ▸ before))
    have gapSize : c.start - Text.byteSize done = Text.byteSize gap := by
      rw [start, Text.byteSize_append, Nat.add_sub_cancel_left]
    have stopSize : c.stop = Text.byteSize (done ++ (gap ++ c.value)) := by
      rw [Candidate.stop, start]
      simp only [Text.byteSize_append]
      omega
    have valueSize : c.stop - Text.byteSize done = Text.byteSize (gap ++ c.value) := by
      rw [stopSize, Text.byteSize_append, Nat.add_sub_cancel_left]
    have within : ¬Text.byteSize done + Text.byteSize (gap ++ (c.value ++ after)) < c.stop := by
      rw [stopSize]
      simp only [Text.byteSize_append]
      omega
    have behind : Text.dropBytes (c.stop - Text.byteSize done) (gap ++ (c.value ++ after)) = after := by
      rw [valueSize, ← List.append_assoc, Text.dropBytes_byteSize]
    have gapPlain : gap.getLast? ≠ some '$' := by
      intro dollar
      rw [List.getLast?_append, dollar, Option.some_or] at ends
      exact plain (Option.some.inj ends).symm
    refine .inr ⟨gap, after, rfl, gapPlain, start, stopSize, ?_⟩
    rw [if_neg (not_or.2 ⟨before, within⟩)]
    dsimp only
    rw [gapSize, Text.takeBytes_byteSize, behind]

/-- Whatever candidates stand in a text at slots of the machine, the content made from the text restores
it. -/
theorem restores_parameterize (s : σ) {cs : List Char} {found : List Candidate}
    (stands : ∀ c ∈ found, Stands cs c.start c.value)
    (slots : ∀ c ∈ found, ∀ front back, cs = front ++ (c.value ++ back) →
      c.start = Text.byteSize front → slot (front.foldl next s) c.value back)
    {done rest : List Char} (split : cs = done ++ rest) {vs : Variables} (sound : vs.Sound) :
    Restores next slot new (done.foldl next s) vs rest
      (parameterize (Text.byteSize done) rest vs found) := by
  induction found generalizing done rest vs with
  | nil => exact restores_escape _ sound rest
  | cons c found ih =>
    obtain ⟨here, later⟩ := List.forall_mem_cons.1 stands
    obtain ⟨hereSlots, laterSlots⟩ := List.forall_mem_cons.1 slots
    rcases parameterize_cons here split vs found with ⟨-, skipped⟩ | ⟨gap, after, rfl, plain, start, stop, made⟩
    · rw [skipped]
      exact ih later laterSlots split sound
    · have split' : cs = (done ++ (gap ++ c.value)) ++ after := by
        rw [split]
        simp
      have whole : cs = (done ++ gap) ++ (c.value ++ after) := by
        rw [split]
        simp
      have behind := ih later laterSlots split' (Variables.nameOf_spec sound c).1
      have slotHere := hereSlots (done ++ gap) after whole start
      rw [List.foldl_append] at behind slotHere
      rw [made, stop]
      exact behind.cons sound plain slotHere

end Stencil.Extraction
