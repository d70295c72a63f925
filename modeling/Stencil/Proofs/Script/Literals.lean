import Mathlib.Data.Option.Basic
import Stencil.Proofs.Text.Cut
import Stencil.Script.Literals

/-!
# Where literals come from

A plain literal is a string of the tree, and its value is a piece of the script. In trees whose contents directly
follow their quotes it stands behind a quote (`exists_quote_of_mem_literalsOf`), whether the script has errors or not.
-/

namespace Stencil.Script

/-- In a tree the content of a plain string directly follows its quote. -/
def Node.ContentsFollow (source : List Char) (tree : Node) : Prop :=
  ∀ string ∈ tree.preorder, string.form = .string → ∀ opening others content,
    string.named = opening :: others → Literal.content? source string = some content →
      content.start = opening.stop

variable {cs : List Char} {l : Literal}

/-- A text that a node has stands in the source at the node's place. -/
theorem Node.exists_append_text {n : Node} (some : n.text cs ≠ []) : ∃ front behind,
    cs = front ++ (n.text cs ++ behind) ∧ n.start = Text.byteSize front ∧
      n.stop = n.start + Text.byteSize (n.text cs) := by
  unfold text at some ⊢
  dsimp only at some ⊢
  split at some
  · next whole =>
    obtain ⟨start, stop⟩ := whole
    rw [if_pos ⟨start, stop⟩]
    refine ⟨Text.takeBytes n.start cs, Text.dropBytes (n.stop - n.start) (Text.dropBytes n.start cs), ?_,
      start.symm, ?_⟩
    · rw [Text.sliceBytes, Text.takeBytes_append_dropBytes, Text.takeBytes_append_dropBytes]
    · have long : Text.byteSize (Text.sliceBytes n.start n.stop cs) ≠ 0 := by
        obtain ⟨c, rest, text⟩ := List.exists_cons_of_ne_nil some
        rw [text, Text.byteSize_cons]
        have size := c.utf8Size_pos
        omega
      omega
  · exact absurd rfl some

theorem Literal.content_of_ofString? {parent string : Node} (h : ofString? cs parent string = some l) :
    ∃ content, content? cs string = some content ∧ l.start = content.start ∧ l.value = content.text cs ∧
      l.value ≠ [] := by
  unfold ofString? at h
  obtain ⟨_, -, h⟩ := Option.bind_eq_some_iff.1 h
  obtain ⟨_, -, h⟩ := Option.bind_eq_some_iff.1 h
  obtain ⟨content, found, h⟩ := Option.bind_eq_some_iff.1 h
  obtain ⟨_, plain, h⟩ := Option.bind_eq_some_iff.1 h
  cases h
  have some := (Bool.and_eq_true_iff.1 ((Option.guard_eq_some' ()).1 plain)).1
  exact ⟨content, found, rfl, rfl, by simpa using some⟩

/-- A string with plain content has a quote in front, and but for its ends nothing else than the content. -/
theorem Literal.parts_of_content? {string content : Node} (h : content? cs string = some content) :
    ∃ opening others quote, string.named = opening :: others ∧ opening.form = .stringStart ∧
      opening.text cs = [quote] ∧ (quote = '"' ∨ quote = '\'') ∧
      (others.filter fun p => !isDelimiter p.form) = [content] ∧ content.form = .stringContent := by
  unfold content? at h
  split at h
  · next opening others named =>
    dsimp only at h
    split at h
    · next plain =>
      simp only [Bool.and_eq_true, Bool.or_eq_true, beq_iff_eq] at plain
      split at h
      · next only =>
        split at h
        · next isContent =>
          obtain rfl := Option.some.inj h
          simp only [Bool.and_eq_true, beq_iff_eq] at isContent
          rcases plain.2 with mark | mark
          · exact ⟨opening, others, '"', named, plain.1, mark, .inl rfl, only, isContent.1⟩
          · exact ⟨opening, others, '\'', named, plain.1, mark, .inr rfl, only, isContent.1⟩
        · cases h
      · cases h
    · cases h
  · cases h

mutual

/-- A literal below a node is a string there. -/
theorem exists_of_mem_literalsOf : ∀ {n : Node}, l ∈ literalsOf cs n →
    ∃ parent, ∃ string ∈ n.preorder, string.form = .string ∧ Literal.ofString? cs parent string = some l
  | .mk form role start stop parts, h => by
    rw [literalsOf] at h
    obtain ⟨parent, string, among, rest⟩ := exists_of_mem_literalsAmong h
    rw [Node.preorder]
    exact ⟨parent, string, List.mem_cons_of_mem _ among, rest⟩

theorem exists_of_mem_literalsAmong {parent : Node} : ∀ {parts : List Node}, l ∈ literalsAmong cs parent parts →
    ∃ parent, ∃ string ∈ Node.preorderAll parts, string.form = .string ∧
      Literal.ofString? cs parent string = some l
  | [], h => by simp [literalsAmong] at h
  | p :: parts, h => by
    rw [literalsAmong] at h
    rw [Node.preorderAll]
    rcases List.mem_append.1 h with here | later
    · split at here
      · next form =>
        have self : p ∈ p.preorder := by
          cases p
          rw [Node.preorder]
          exact List.mem_cons_self
        exact ⟨parent, p, List.mem_append_left _ self, by simpa using form, Option.mem_toList.1 here⟩
      · obtain ⟨parent, string, among, rest⟩ := exists_of_mem_literalsOf here
        exact ⟨parent, string, List.mem_append_left _ among, rest⟩
    · obtain ⟨parent, string, among, rest⟩ := exists_of_mem_literalsAmong later
      exact ⟨parent, string, List.mem_append_right _ among, rest⟩

end

/-- The plain literals of a script stand right behind a quote. -/
theorem exists_quote_of_mem_literalsOf {tree : Node} (follow : tree.ContentsFollow cs)
    (h : l ∈ literalsOf cs tree) : ∃ front quote behind, cs = front ++ quote :: (l.value ++ behind) ∧
      (quote = '"' ∨ quote = '\'') ∧ l.start = Text.byteSize front + quote.utf8Size := by
  obtain ⟨parent, string, among, form, made⟩ := exists_of_mem_literalsOf h
  obtain ⟨content, found, start, value, some⟩ := Literal.content_of_ofString? made
  obtain ⟨opening, others, quote, named, -, mark, either, -⟩ := Literal.parts_of_content? found
  have shown : opening.text cs ≠ [] := by simp [mark]
  obtain ⟨front, behind, whole, place, stop⟩ := opening.exists_append_text shown
  obtain ⟨front', behind', whole', place', -⟩ := content.exists_append_text (value ▸ some)
  have next := follow string among form opening others content named found
  rw [mark] at whole stop
  -- The content begins where the quote ends, so what stands before it is what stands before the quote, and the quote.
  have before : front' = front ++ [quote] := by
    have texts : front' ++ (content.text cs ++ behind') = (front ++ [quote]) ++ behind := by
      rw [← whole', whole, List.append_assoc]
    refine (Text.append_inj_of_byteSize texts ?_).1
    rw [← place', next, stop, place, Text.byteSize_append]
  refine ⟨front, quote, behind', ?_, either, ?_⟩
  · rw [value]
    refine whole'.trans ?_
    rw [before, List.append_assoc]
    rfl
  · rw [start, next, stop, place]
    rfl

end Stencil.Script
