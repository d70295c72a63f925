import Stencil.Proofs.Placeholder.Outline
import Stencil.Proofs.Rendering.Bytes

/-!
# Tokens of a text

The tokens of a plain text are all the places where the mark of a name begins: a dollar stands at the front of a
mark only, so that no mark begins inside of another one and none is passed over. The last step of rendering puts
defaults in place of those whose dollar a rule wrote, and keeps what lies between them.
-/

namespace Stencil

open Text (byteSize dropBytes sliceBytes)

namespace Placeholder

/-- The mark of a name begins at a byte offset of a text. -/
structure MarkedAt (cs : List Char) (offset : Nat) (name : List Char) : Prop where
  valid : isName name = true
  place : ∃ before after, cs = before ++ mark name ++ after ∧ byteSize before = offset

variable {c : Char} {cs name first rest before after : List Char} {start offset : Nat}

/-! ### The front of a text -/

theorem not_mem_tail_mark (valid : isName name = true) : '$' ∉ '{' :: name ++ ['}'] := by
  intro among
  have inside : '$' ∈ name := by simpa using among
  exact MarkedText.ne_dollar_of_isName valid '$' inside rfl

theorem mark_inj_of_append (valid : isName first = true) (valid' : isName name = true)
    (whole : mark first ++ rest = mark name ++ after) : first = name ∧ rest = after := by
  have behind : first ++ '}' :: rest = name ++ '}' :: after := by simpa [mark] using whole
  have closed := closed?_mark valid rest
  rw [behind, closed?_mark valid' after, Option.some.injEq, Prod.mk.injEq] at closed
  exact ⟨closed.1.symm, closed.2.symm⟩

/-- In a text that begins with a mark, another mark comes behind it. -/
theorem mark_append_cases (valid : isName first = true) (valid' : isName name = true)
    (whole : mark first ++ rest = before ++ mark name ++ after) :
    (before = [] ∧ first = name) ∨ ∃ between, before = mark first ++ between ∧ rest = between ++ mark name ++ after := by
  cases before with
  | nil => exact .inl ⟨rfl, (mark_inj_of_append valid valid' whole).1⟩
  | cons d before =>
    refine .inr ?_
    rw [List.append_assoc] at whole
    rcases List.append_eq_append_iff.1 whole with ⟨between, front, behind⟩ | ⟨within, front, behind⟩
    · exact ⟨between, front, by rw [behind, List.append_assoc]⟩
    · cases within with
      | nil => exact ⟨[], by simpa using front.symm, by simpa using behind.symm⟩
      | cons e within =>
        -- The dollar of the second mark would stand inside of the first one.
        obtain rfl : '$' = e := (List.cons.inj behind).1
        have tail : '{' :: first ++ ['}'] = before ++ '$' :: within := (List.cons.inj front).2
        have inside : '$' ∈ before ++ '$' :: within := by simp
        exact absurd (tail ▸ inside) (not_mem_tail_mark valid)

theorem tokensFrom_mark (valid : isName name = true) (start : Nat) (rest : List Char) :
    tokensFrom start (mark name ++ rest) = (start, name) :: tokensFrom (start + byteSize (mark name)) rest := by
  have front : mark name ++ rest = '$' :: '{' :: (name ++ '}' :: rest) := by simp [mark]
  rw [front, Template.tokensFrom_token (closed?_mark valid rest), Template.byteSize_mark, Nat.add_assoc]

theorem tokensFrom_char (plain : ∀ name, isName name = true → ¬mark name <+: c :: rest) (start : Nat) :
    tokensFrom start (c :: rest) = tokensFrom (start + c.utf8Size) rest := by
  cases rest with
  | nil =>
    have none : ∀ start, tokensFrom start [] = [] := fun start => by rw [tokensFrom]
    rw [none, tokensFrom]
    · exact none _
    · rintro r rfl ⟨⟩
  | cons d rest =>
    refine Template.tokensFrom_cons ?_ start
    split
    · next opener =>
      obtain ⟨rfl, rfl⟩ := opener
      exact closed?_eq_none plain
    · rfl

/-- A property of texts with their tokens holds when the front of a text hands it on. -/
theorem tokensFrom_induction {P : Nat → List Char → List (Nat × List Char) → Prop} (nil : ∀ start, P start [] [])
    (mark : ∀ start name rest, isName name = true →
      P (start + byteSize (mark name)) rest (tokensFrom (start + byteSize (mark name)) rest) →
      P start (mark name ++ rest) ((start, name) :: tokensFrom (start + byteSize (Placeholder.mark name)) rest))
    (char : ∀ start c rest, (∀ name, isName name = true → ¬Placeholder.mark name <+: c :: rest) →
      P (start + c.utf8Size) rest (tokensFrom (start + c.utf8Size) rest) →
      P start (c :: rest) (tokensFrom (start + c.utf8Size) rest))
    (start : Nat) (cs : List Char) : P start cs (tokensFrom start cs) := by
  induction length : cs.length using Nat.strongRecOn generalizing start cs with
  | ind n ih =>
    subst length
    by_cases front : ∃ name, isName name = true ∧ Placeholder.mark name <+: cs
    · obtain ⟨name, valid, rest, rfl⟩ := front
      have shorter : rest.length < (Placeholder.mark name ++ rest).length := by simp [Placeholder.mark]; omega
      rw [tokensFrom_mark valid]
      exact mark start name rest valid (ih _ shorter _ rest rfl)
    · cases cs with
      | nil =>
        rw [tokensFrom]
        exact nil start
      | cons c rest =>
        have plain : ∀ name, isName name = true → ¬Placeholder.mark name <+: c :: rest :=
          fun name valid begins => front ⟨name, valid, begins⟩
        rw [tokensFrom_char plain]
        exact char start c rest plain (ih _ (Nat.lt_succ_self _) _ rest rfl)

/-! ### All tokens -/

theorem mem_tokensFrom_iff (start : Nat) (cs : List Char) : (offset, name) ∈ tokensFrom start cs ↔
    isName name = true ∧ ∃ before after, cs = before ++ mark name ++ after ∧ start + byteSize before = offset := by
  refine tokensFrom_induction (P := fun start cs tokens => (offset, name) ∈ tokens ↔ isName name = true ∧
    ∃ before after, cs = before ++ mark name ++ after ∧ start + byteSize before = offset) ?nil ?mark ?char start cs
  case nil => simp [mark]
  case mark =>
    intro start first rest valid ih
    rw [List.mem_cons, Prod.mk.injEq, ih]
    constructor
    · rintro (⟨rfl, rfl⟩ | ⟨valid', before, after, rfl, rfl⟩)
      · exact ⟨valid, [], rest, rfl, rfl⟩
      · exact ⟨valid', mark first ++ before, after, by simp, by simp [Nat.add_assoc]⟩
    · rintro ⟨valid', before, after, whole, rfl⟩
      rcases mark_append_cases valid valid' whole with ⟨rfl, rfl⟩ | ⟨between, rfl, rfl⟩
      · exact .inl ⟨rfl, rfl⟩
      · exact .inr ⟨valid', between, after, rfl, by simp [Nat.add_assoc]⟩
  case char =>
    intro start c rest plain ih
    rw [ih]
    refine and_congr_right fun valid => ⟨?_, ?_⟩
    · rintro ⟨before, after, rfl, rfl⟩
      exact ⟨c :: before, after, rfl, by simp [Nat.add_assoc]⟩
    · rintro ⟨before, after, whole, rfl⟩
      cases before with
      | nil => exact absurd ⟨after, whole.symm⟩ (plain name valid)
      | cons d before =>
        obtain ⟨rfl, rfl⟩ := List.cons.inj whole
        exact ⟨before, after, rfl, by simp [Nat.add_assoc]⟩

theorem mem_tokens_iff : (offset, name) ∈ tokens cs ↔ MarkedAt cs offset name := by
  rw [tokens, mem_tokensFrom_iff]
  constructor
  · rintro ⟨valid, before, after, whole, size⟩
    exact ⟨valid, before, after, whole, by rw [← size, Nat.zero_add]⟩
  · rintro ⟨valid, before, after, whole, size⟩
    exact ⟨valid, before, after, whole, by rw [size, Nat.zero_add]⟩

theorem pairwise_tokensFrom (start : Nat) (cs : List Char) :
    (tokensFrom start cs).Pairwise fun x y => x.1 + byteSize (mark x.2) ≤ y.1 := by
  refine tokensFrom_induction
    (P := fun _ _ tokens => tokens.Pairwise fun x y => x.1 + byteSize (mark x.2) ≤ y.1)
    (fun _ => .nil) ?mark (fun _ _ _ _ ih => ih) start cs
  case mark =>
    intro start name rest _ ih
    refine List.pairwise_cons.2 ⟨fun y later => ?_, ih⟩
    obtain ⟨-, before, -, -, size⟩ := (mem_tokensFrom_iff _ rest).1 later
    simp only [← size]
    omega

/-! ### Marks in an outline -/

namespace Outline

/-- The text of an outline with values in place of its names. -/
def filled (value : List Char → List Char) (o : Outline) : List Char :=
  o.front ++ o.marked.flatMap fun m => value m.1 ++ m.2

/-- The byte offsets of the marks of an outline that begins at `start`, with their names. -/
def marksFrom (start : Nat) (front : List Char) : List (List Char × List Char) → List (Nat × List Char)
  | [] => []
  | (name, gap) :: rest =>
    (start + byteSize front, name) :: marksFrom (start + byteSize front + byteSize (mark name)) gap rest

def marks (o : Outline) : List (Nat × List Char) := marksFrom 0 o.front o.marked

theorem filled_cons (value : List Char → List Char) (front name gap : List Char)
    (rest : List (List Char × List Char)) :
    filled value ⟨front, (name, gap) :: rest⟩ = front ++ (value name ++ filled value ⟨gap, rest⟩) := by
  simp only [filled, List.flatMap_cons, List.append_assoc]

end Outline

end Placeholder

/-! ### The last step -/

namespace Template

open Placeholder (Outline MarkedAt)

variable {d : MarkedBytes}

/-- The text of an outline with defaults for its names; the first name without one is refused. -/
def fillOutline (t : Template) (o : Outline) : Except Error (List Char) :=
  match o.names.find? fun name => (t.default? name).isNone with
  | some name => .error (.unresolved (String.ofList name))
  | none => .ok (o.filled fun name => ((t.default? name).getD "").toList)

theorem fillOutline_cons (t : Template) (front name gap : List Char) (rest : List (List Char × List Char)) :
    t.fillOutline ⟨front, (name, gap) :: rest⟩ =
      match t.default? name with
      | none => .error (.unresolved (String.ofList name))
      | some default => (t.fillOutline ⟨gap, rest⟩).map (front ++ default.toList ++ ·) := by
  unfold fillOutline
  rw [Outline.names, List.map_cons, List.find?_cons]
  cases found : t.default? name with
  | none => rfl
  | some default =>
    show (match (Outline.names ⟨gap, rest⟩).find? _ with | some _ => _ | none => _) = _
    cases (Outline.names ⟨gap, rest⟩).find? fun name => (t.default? name).isNone with
    | some refused => rfl
    | none =>
      show Except.ok (Outline.filled _ _) = Except.ok (front ++ default.toList ++ Outline.filled _ _)
      rw [Outline.filled_cons, found, List.append_assoc]
      rfl

/-- From a boundary on, the tokens of rules cut the rest of a text into an outline, which the last step fills. -/
theorem fillFrom_outline (t : Template) (sized : d.origins.length = byteSize d.text) {front rest : List Char}
    {tokens : List (Nat × List Char)} (whole : d.text = front ++ rest)
    (marked : ∀ x ∈ tokens, MarkedAt d.text x.1 x.2) (behind : ∀ x ∈ tokens, byteSize front ≤ x.1)
    (apart : tokens.Pairwise fun x y => x.1 + byteSize (Placeholder.mark x.2) ≤ y.1) :
    ∃ o : Outline, o.filled Placeholder.mark = rest ∧
      Outline.marksFrom (byteSize front) o.front o.marked =
        tokens.filter (fun x => d.origins[x.1]? = some .rule) ∧
      t.fillFrom d (byteSize front) tokens = t.fillOutline o := by
  induction tokens generalizing front rest with
  | nil =>
    refine ⟨⟨rest, []⟩, by simp [Outline.filled], rfl, ?_⟩
    rw [fillFrom, whole, Text.dropBytes_byteSize]
    simp [fillOutline, Outline.names, Outline.filled]
  | cons token tokens ih =>
    obtain ⟨offset, name⟩ := token
    obtain ⟨later, apart⟩ := List.pairwise_cons.1 apart
    have others : ∀ x ∈ tokens, MarkedAt d.text x.1 x.2 := fun x among => marked x (List.mem_cons_of_mem _ among)
    obtain ⟨-, before, after, place, size⟩ : MarkedAt d.text offset name := marked _ List.mem_cons_self
    have inside : offset < d.origins.length := by
      have positive := Template.byteSize_mark name
      rw [sized, place, Text.byteSize_append, Text.byteSize_append]
      omega
    cases origin : d.origins[offset] with
    | final =>
      have read : d.origins[offset]? = some .final := by rw [List.getElem?_eq_getElem inside, origin]
      have further : ∀ x ∈ tokens, byteSize front ≤ x.1 := fun x among => behind x (List.mem_cons_of_mem _ among)
      obtain ⟨o, text, marks, filled⟩ := ih whole others further apart
      refine ⟨o, text, by rw [marks, List.filter_cons_of_neg (by simp [read])], ?_⟩
      rw [fillFrom, if_pos read, filled]
    | rule =>
      have read : d.origins[offset]? = some .rule := by rw [List.getElem?_eq_getElem inside, origin]
      -- What lies between the boundary and the mark is kept, and the rest begins behind the mark.
      obtain ⟨between, rfl, rfl⟩ := Text.front_of_byteSize_le
        (whole.symm.trans (place.trans (List.append_assoc ..))) (size ▸ behind _ List.mem_cons_self)
      have cursor : offset + byteSize name + 3 = byteSize (front ++ between ++ Placeholder.mark name) := by
        rw [Text.byteSize_append, size, byteSize_mark, Nat.add_assoc]
      have further : ∀ x ∈ tokens, byteSize (front ++ between ++ Placeholder.mark name) ≤ x.1 := by
        intro x among
        rw [Text.byteSize_append, size]
        exact later x among
      obtain ⟨o, text, marks, filled⟩ := ih place others further apart
      refine ⟨⟨between, (name, o.front) :: o.marked⟩, ?_, ?_, ?_⟩
      · rw [Outline.filled_cons, ← text]
      · rw [List.filter_cons_of_pos (by simp [read]), ← marks, Outline.marksFrom, ← Text.byteSize_append, size,
          Text.byteSize_append, size]
      · have slice : sliceBytes (byteSize front) offset d.text = between := by
          rw [sliceBytes, place, ← size, List.append_assoc, List.append_assoc, Text.dropBytes_byteSize,
            Text.byteSize_append, Nat.add_sub_cancel_left, Text.takeBytes_byteSize]
        rw [fillFrom, if_neg (by simp [read]), fillOutline_cons]
        cases t.default? name with
        | none => rfl
        | some default =>
          show (t.fillFrom _ _ _ >>= _) = _
          rw [cursor, filled, slice]
          cases t.fillOutline o <;> rfl

/-- The tokens of a text are exactly the places where the mark of a name begins, from left to right, and each ends
before the next one begins. So the last step cuts a text at the tokens whose dollar a rule wrote, keeps what lies
between them, and puts in their defaults, or refuses the first name that has none. -/
theorem fillLeftovers_tokens :
    (∀ cs : List Char,
      (∀ offset name, (offset, name) ∈ Placeholder.tokens cs ↔ MarkedAt cs offset name) ∧
      (Placeholder.tokens cs).Pairwise (fun x y => x.1 < y.1) ∧
      (Placeholder.tokens cs).Pairwise (fun x y => x.1 + byteSize (Placeholder.mark x.2) ≤ y.1)) ∧
    ∀ (t : Template) (d : MarkedText), ∃ o : Outline, o.filled Placeholder.mark = d.text ∧
      o.marks = (Placeholder.tokens d.text).filter (fun x => d.origins[x.1]? = some .rule) ∧
      t.fillLeftovers d = t.fillOutline o ∧ t.fillBytes (.of d) = t.fillOutline o := by
  refine ⟨fun cs => ⟨fun offset name => Placeholder.mem_tokens_iff, ?_, Placeholder.pairwise_tokensFrom 0 cs⟩,
    fun t d => ?_⟩
  · refine (Placeholder.pairwise_tokensFrom 0 cs).imp fun {x y} apart => ?_
    rw [byteSize_mark] at apart
    omega
  · have marked : ∀ x ∈ Placeholder.tokens d.text, MarkedAt d.text x.1 x.2 := fun x among =>
      Placeholder.mem_tokens_iff.1 among
    have start : (MarkedBytes.of d).text = [] ++ d.text := rfl
    obtain ⟨o, text, marks, filled⟩ := t.fillFrom_outline d.length_origins start marked
      (fun x _ => Nat.zero_le _) (Placeholder.pairwise_tokensFrom 0 d.text)
    have whole : t.fillBytes (.of d) = t.fillOutline o := filled
    exact ⟨o, text, marks, (t.fillBytes_of d).symm.trans whole, whole⟩

end Template

end Stencil
