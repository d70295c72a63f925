import Stencil.Proofs.Rendering.Rewriting
import Stencil.Proofs.Text.Cut

/-!
# Marked bytes

A text can also be kept with an origin for every byte, and be cut at byte offsets. That is a view of a marked text
(`MarkedBytes.of`), which every rule and the last step keep, so that the origins never get out of step with the
text.
-/

namespace Stencil

open Text (byteSize sliceBytes dropBytes)

/-- A text with the origin of every byte. -/
structure MarkedBytes where
  text : List Char := []
  origins : List Origin := []

namespace MarkedBytes

def push (d : MarkedBytes) (origin : Origin) (cs : List Char) : MarkedBytes :=
  ⟨d.text ++ cs, d.origins ++ List.replicate (byteSize cs) origin⟩

def copy (d other : MarkedBytes) (start stop : Nat) : MarkedBytes :=
  ⟨d.text ++ sliceBytes start stop other.text, d.origins ++ (other.origins.drop start).take (stop - start)⟩

def pushSegment (d : MarkedBytes) : Placeholder.Segment → MarkedBytes
  | .literal text => d.push .rule text
  | .escape => d.push .final ['$', '{']
  | .placeholder name => d.push .rule (Placeholder.mark name)

def pushRule (d : MarkedBytes) (cs : List Char) : MarkedBytes := (Placeholder.segments cs).foldl pushSegment d

/-- The byte offsets at which `old` is in a text, from left to right and without overlap, if the text has the
offset `start`; `skip` counts the characters of an occurrence still to be passed. -/
def occurrences (old : List Char) (start skip : Nat) : List Char → List Nat
  | [] => []
  | c :: cs =>
    match skip with
    | k + 1 => occurrences old (start + c.utf8Size) k cs
    | 0 =>
      if !old.isEmpty && old.isPrefixOf (c :: cs) then
        start :: occurrences old (start + c.utf8Size) (old.length - 1) cs
      else occurrences old (start + c.utf8Size) 0 cs

def splice (d : MarkedBytes) (old new : List Char) (out : MarkedBytes) (cursor : Nat) : List Nat → MarkedBytes
  | [] => out.copy d cursor (byteSize d.text)
  | start :: starts =>
    d.splice old new ((out.copy d cursor start).pushRule new) (start + byteSize old) starts

def apply (d : MarkedBytes) : Rule → MarkedBytes
  | .replace old new =>
    if old.isEmpty then d else d.splice old.toList new.toList {} 0 (occurrences old.toList 0 0 d.text)
  | .prepend text => (({} : MarkedBytes).pushRule text.toList).copy d 0 (byteSize d.text)
  | .append text => d.pushRule text.toList

end MarkedBytes

def Environment.ruledBytes (e : Environment) (text : List Char) : MarkedBytes :=
  e.rules.foldl MarkedBytes.apply (({} : MarkedBytes).push .final text)

namespace Template

/-- The text from `cursor` on, with the defaults of the tokens that rules wrote. -/
def fillFrom (t : Template) (d : MarkedBytes) (cursor : Nat) : List (Nat × List Char) → Except Error (List Char)
  | [] => .ok (dropBytes cursor d.text)
  | (offset, name) :: tokens =>
    if d.origins[offset]? = some .final then t.fillFrom d cursor tokens
    else
      match t.default? name with
      | none => .error (.unresolved (String.ofList name))
      | some default => do
        let others ← t.fillFrom d (offset + byteSize name + 3) tokens
        return sliceBytes cursor offset d.text ++ default.toList ++ others

def fillBytes (t : Template) (d : MarkedBytes) : Except Error (List Char) :=
  t.fillFrom d 0 (Placeholder.tokens d.text)

end Template

/-! ### The bytes of a marked text -/

namespace MarkedText

def origins (d : MarkedText) : List Origin := d.flatMap fun x => List.replicate x.1.utf8Size x.2

@[simp] theorem origins_append (a b : MarkedText) : origins (a ++ b) = origins a ++ origins b :=
  List.flatMap_append

theorem length_origins (d : MarkedText) : (origins d).length = byteSize (text d) := by
  induction d with
  | nil => rfl
  | cons x d ih =>
    show (List.replicate _ _ ++ origins d).length = _
    rw [List.length_append, List.length_replicate, ih]
    rfl

theorem origins_ofText (origin : Origin) (cs : List Char) :
    origins (ofText origin cs) = List.replicate (byteSize cs) origin := by
  induction cs with
  | nil => rfl
  | cons c cs ih =>
    show List.replicate _ _ ++ origins (ofText origin cs) = _
    rw [ih, ← List.replicate_add]
    rfl

end MarkedText

namespace MarkedBytes

def of (d : MarkedText) : MarkedBytes := ⟨d.text, d.origins⟩

theorem push_of (d : MarkedText) (origin : Origin) (cs : List Char) :
    (of d).push origin cs = of (d ++ .ofText origin cs) := by
  rw [of, of, MarkedText.text_append, MarkedText.origins_append, MarkedText.text_ofText,
    MarkedText.origins_ofText]
  rfl

/-- A part that is cut between characters is copied with its origins. -/
theorem copy_of (out front part rest : MarkedText) :
    (of out).copy (of (front ++ part ++ rest)) (byteSize front.text)
      (byteSize (MarkedText.text (front ++ part))) = of (out ++ part) := by
  have size : byteSize (MarkedText.text (front ++ part)) - byteSize front.text = byteSize part.text := by
    rw [MarkedText.text_append, Text.byteSize_append, Nat.add_sub_cancel_left]
  have text : sliceBytes (byteSize front.text) (byteSize (MarkedText.text (front ++ part)))
      (MarkedText.text (front ++ part ++ rest)) = part.text := by
    rw [sliceBytes, size, List.append_assoc, MarkedText.text_append, Text.dropBytes_byteSize,
      MarkedText.text_append, Text.takeBytes_byteSize]
  have origins : ((MarkedText.origins (front ++ part ++ rest)).drop (byteSize front.text)).take
      (byteSize part.text) = part.origins := by
    rw [List.append_assoc, MarkedText.origins_append, ← front.length_origins, List.drop_left,
      MarkedText.origins_append, ← part.length_origins, List.take_left]
  rw [copy, of, of, text, size, origins, of, MarkedText.text_append,
    MarkedText.origins_append]

theorem copy_all_of (out d : MarkedText) :
    (of out).copy (of d) 0 (byteSize d.text) = of (out ++ d) := by
  have copied := copy_of out [] d []
  rwa [List.nil_append, List.append_nil] at copied

theorem pushRule_of (d : MarkedText) (cs : List Char) :
    (of d).pushRule cs = of (d ++ .ofRule cs) := by
  unfold pushRule MarkedText.ofRule
  induction Placeholder.segments cs generalizing d with
  | nil => rw [List.flatMap_nil, List.append_nil, List.foldl_nil]
  | cons s segs ih =>
    rw [List.foldl_cons, List.flatMap_cons, ← List.append_assoc]
    cases s <;> exact (congrArg (List.foldl pushSegment · segs) (push_of d _ _)).trans (ih _)

/-! ### Occurrences -/

variable {old : List Char}

theorem occurrences_eq (old : List Char) (start skip : Nat) (cs : List Char) :
    occurrences old start skip cs = occurrences old (start + byteSize (cs.take skip)) 0 (cs.drop skip) := by
  induction cs generalizing start skip with
  | nil => cases skip <;> rfl
  | cons c cs ih =>
    cases skip with
    | zero => rfl
    | succ k =>
      rw [occurrences, ih, List.take_succ_cons, List.drop_succ_cons, Text.byteSize_cons, Nat.add_assoc]

theorem occurrences_append (nonempty : old ≠ []) (start : Nat) (cs : List Char) :
    occurrences old start 0 (old ++ cs) = start :: occurrences old (start + byteSize old) 0 cs := by
  cases old with
  | nil => exact absurd rfl nonempty
  | cons o os =>
    have front : (o :: os).isPrefixOf (o :: (os ++ cs)) = true :=
      List.isPrefixOf_iff_prefix.2 (List.prefix_append (o :: os) cs)
    rw [List.cons_append, occurrences, front]
    simp only [List.isEmpty_cons, Bool.not_false, Bool.and_self, if_true]
    rw [occurrences_eq, List.length_cons, Nat.add_sub_cancel, List.take_left, List.drop_left, Nat.add_assoc]
    rfl

theorem occurrences_cons {c : Char} {cs : List Char} (other : ¬(old ≠ [] ∧ old <+: c :: cs)) (start : Nat) :
    occurrences old start 0 (c :: cs) = occurrences old (start + c.utf8Size) 0 cs := by
  rw [occurrences, if_neg]
  simpa [List.isPrefixOf_iff_prefix] using other

end MarkedBytes

namespace MarkedText

variable {old : List Char}

theorem replaceAfter_eq (old : List Char) (new : MarkedText) (skip : Nat) (d : MarkedText) :
    replaceAfter old new skip d = replaceAfter old new 0 (d.drop skip) := by
  induction d generalizing skip with
  | nil => cases skip <;> rfl
  | cons x d ih =>
    cases skip with
    | zero => rfl
    | succ k =>
      rw [replaceAfter, ih]
      rfl

theorem replaceAfter_append {found : MarkedText} (same : found.text = old) (nonempty : old ≠ [])
    (new d : MarkedText) : replaceAfter old new 0 (found ++ d) = new ++ replaceAfter old new 0 d := by
  subst same
  cases found with
  | nil => exact absurd rfl nonempty
  | cons x found =>
    have front : startsWith (text (x :: found)) (x :: (found ++ d)) = true := by
      rw [startsWith_eq]
      show (text (x :: found)).isPrefixOf (text ((x :: found) ++ d)) = true
      rw [text_append]
      exact List.isPrefixOf_iff_prefix.2 (List.prefix_append _ _)
    have length : (text (x :: found)).length - 1 = found.length := by
      rw [text, List.length_map, List.length_cons, Nat.add_sub_cancel]
    rw [List.cons_append, replaceAfter, front, text_cons, List.isEmpty_cons]
    simp only [Bool.not_false, Bool.and_self, if_true]
    rw [replaceAfter_eq, ← text_cons, length, List.drop_left]

theorem replaceAfter_cons {x : Char × Origin} {d : MarkedText} (other : ¬(old ≠ [] ∧ old <+: text (x :: d)))
    (new : MarkedText) : replaceAfter old new 0 (x :: d) = x :: replaceAfter old new 0 d := by
  rw [replaceAfter, if_neg]
  rw [startsWith_eq]
  simpa [List.isPrefixOf_iff_prefix] using other

theorem replaceAfter_empty (new d : MarkedText) : replaceAfter [] new 0 d = d := by
  induction d with
  | nil => rfl
  | cons x d ih => exact congrArg (x :: ·) ih

theorem exists_append_of_prefix {cs : List Char} {d : MarkedText} (front : cs <+: d.text) :
    ∃ found behind, d = found ++ behind ∧ text found = cs := by
  obtain ⟨rest, whole⟩ := front
  obtain ⟨found, behind, rfl, same, -⟩ := List.map_eq_append_iff.1 whole.symm
  exact ⟨found, behind, rfl, same⟩

end MarkedText

/-! ### Rules -/

namespace MarkedBytes

/-- What is behind `front` is copied up to `rest`, and `rest` with what a rule writes for the occurrences. -/
theorem splice_of (old new : List Char) (out front part rest : MarkedText) :
    (of (front ++ part ++ rest)).splice old new (of out) (byteSize front.text)
        (occurrences old (byteSize (MarkedText.text (front ++ part))) 0 rest.text) =
      of (out ++ part ++ .replaceAfter old (.ofRule new) 0 rest) := by
  induction length : rest.length using Nat.strongRecOn generalizing out front part rest with
  | ind n ih =>
    subst length
    by_cases here : old ≠ [] ∧ old <+: rest.text
    · -- The occurrence is passed as a whole, and nothing in front of what follows it is left to copy.
      obtain ⟨found, behind, rfl, same⟩ := MarkedText.exists_append_of_prefix here.2
      have shorter : behind.length < (found ++ behind).length := by
        have positive : 0 < (MarkedText.text found).length := same ▸ List.length_pos_iff.2 here.1
        rw [MarkedText.text, List.length_map] at positive
        rw [List.length_append]
        omega
      have others := ih behind.length shorter (out ++ part ++ .ofRule new) (front ++ part ++ found) [] behind rfl
      have cursor : byteSize (MarkedText.text (front ++ part)) + byteSize old =
          byteSize (MarkedText.text (front ++ part ++ found)) := by
        rw [MarkedText.text_append (front ++ part), Text.byteSize_append, same]
      rw [List.append_nil, List.append_nil] at others
      rw [MarkedText.text_append found, same, occurrences_append here.1, splice, copy_of, pushRule_of, cursor,
        ← List.append_assoc, others, MarkedText.replaceAfter_append same here.1]
      simp only [List.append_assoc]
    · cases rest with
      | nil =>
        have copied := copy_of out front part []
        rw [List.append_nil] at copied ⊢
        exact copied.trans (congrArg of (List.append_nil _).symm)
      | cons x rest =>
        have others := ih rest.length (Nat.lt_succ_self _) out front (part ++ [x]) rest rfl
        have passed : byteSize (MarkedText.text (front ++ (part ++ [x]))) =
            byteSize (MarkedText.text (front ++ part)) + x.1.utf8Size := by
          rw [← List.append_assoc, MarkedText.text_append, Text.byteSize_append]
          rfl
        have other : ¬(old ≠ [] ∧ old <+: x.1 :: MarkedText.text rest) := here
        rw [passed] at others
        rw [MarkedText.replaceAfter_cons here, MarkedText.text_cons, occurrences_cons other]
        simpa only [List.append_assoc, List.singleton_append] using others

theorem apply_of (d : MarkedText) (r : Rule) : (of d).apply r = of (d.apply r) := by
  cases r with
  | replace old new =>
    rw [apply, MarkedText.apply]
    split
    · next empty =>
      have nothing : old.toList = [] := by simpa using empty
      rw [nothing, MarkedText.replaceAfter_empty]
    · exact splice_of old.toList new.toList [] [] [] d
  | prepend text =>
    have written : ({} : MarkedBytes).pushRule text.toList = of (.ofRule text.toList) := pushRule_of [] _
    rw [apply, written]
    exact copy_all_of _ d
  | append text => exact pushRule_of d _

theorem foldl_apply_of (rules : List Rule) (d : MarkedText) :
    rules.foldl apply (of d) = of (rules.foldl MarkedText.apply d) := by
  induction rules generalizing d with
  | nil => rfl
  | cons r rules ih => rw [List.foldl_cons, List.foldl_cons, apply_of, ih]

/-- The bytes after any rules are those of the marked text after them. -/
theorem ruledBytes_eq (e : Environment) (text : List Char) : e.ruledBytes text = of (e.ruled text) := by
  have start : ({} : MarkedBytes).push .final text = of (.ofText .final text) := push_of [] _ _
  rw [Environment.ruledBytes, start, foldl_apply_of]
  rfl

end MarkedBytes

/-! ### The last step -/

namespace Template

open MarkedBytes (of)

theorem tokensFrom_token {rest name after : List Char} (closed : Placeholder.closed? rest = some (name, after))
    (start : Nat) : Placeholder.tokensFrom start ('$' :: '{' :: rest) =
      (start, name) :: Placeholder.tokensFrom (start + byteSize name + 3) after := by
  rw [Placeholder.tokensFrom]
  split
  · next name' after' found =>
    obtain ⟨rfl, rfl⟩ := Prod.mk.inj (Option.some.inj (closed.symm.trans found))
    rfl
  · next missing => rw [closed] at missing; cases missing

theorem tokensFrom_cons {c d : Char} {rest : List Char}
    (plain : (if c = '$' ∧ d = '{' then Placeholder.closed? rest else none) = none) (start : Nat) :
    Placeholder.tokensFrom start (c :: d :: rest) = Placeholder.tokensFrom (start + c.utf8Size) (d :: rest) := by
  by_cases opener : c = '$' ∧ d = '{'
  · obtain ⟨rfl, rfl⟩ := opener
    rw [if_pos ⟨rfl, rfl⟩] at plain
    rw [Placeholder.tokensFrom]
    split
    · next found => rw [plain] at found; cases found
    · rfl
  · rw [Placeholder.tokensFrom]
    rintro r rfl same
    exact opener ⟨rfl, (List.cons.inj same).1⟩

theorem byteSize_mark (name : List Char) : byteSize (Placeholder.mark name) = byteSize name + 3 := by
  rw [Placeholder.mark, List.cons_append, List.cons_append, Text.byteSize_cons, Text.byteSize_cons,
    Text.byteSize_append]
  show 1 + (1 + (byteSize name + (1 + 0))) = _
  omega

theorem origin_of (front rest : MarkedText) (c : Char) (origin : Origin) :
    (of (front ++ (c, origin) :: rest)).origins[byteSize front.text]? = some origin := by
  have positive := c.utf8Size_pos
  have first : (List.replicate c.utf8Size origin ++ MarkedText.origins rest)[0]? = some origin := by
    rw [List.getElem?_append_left (by rwa [List.length_replicate]), List.getElem?_replicate, if_pos positive]
  show (MarkedText.origins (front ++ (c, origin) :: rest))[byteSize front.text]? = _
  rw [MarkedText.origins_append, ← front.length_origins, List.getElem?_append_right (le_refl _), Nat.sub_self]
  exact first

/-- A token is cut off a marked text as it is off its characters. -/
theorem exists_token {rest : MarkedText} {name after : List Char} (origin origin' : Origin)
    (closed : Placeholder.closed? rest.text = some (name, after)) :
    ∃ token : MarkedText, ('$', origin) :: ('{', origin') :: rest = token ++ rest.drop (name.length + 1) ∧
      token.text = Placeholder.mark name ∧ MarkedText.text (rest.drop (name.length + 1)) = after := by
  have token : (('$', origin) :: ('{', origin') :: rest : MarkedText) =
      (('$', origin) :: ('{', origin') :: rest.take (name.length + 1)) ++ rest.drop (name.length + 1) := by
    rw [List.cons_append, List.cons_append, List.take_append_drop]
  have behind : MarkedText.text (rest.drop (name.length + 1)) = after := by
    rw [MarkedText.text_drop, (Placeholder.eq_append_of_closed? closed).1, ← List.drop_drop]
    simp
  have whole := text_token origin origin' closed
  rw [token, MarkedText.text_append] at whole
  exact ⟨_, token, List.append_cancel_right whole, behind⟩

theorem dropBytes_of (front part rest : MarkedText) :
    dropBytes (byteSize front.text) (of (front ++ part ++ rest)).text = part.text ++ rest.text := by
  show dropBytes _ (MarkedText.text (front ++ part ++ rest)) = _
  rw [List.append_assoc, MarkedText.text_append, Text.dropBytes_byteSize, MarkedText.text_append]

theorem sliceBytes_of (front part rest : MarkedText) :
    sliceBytes (byteSize front.text) (byteSize (MarkedText.text (front ++ part)))
      (of (front ++ part ++ rest)).text = part.text := by
  rw [sliceBytes, dropBytes_of, MarkedText.text_append, Text.byteSize_append, Nat.add_sub_cancel_left,
    Text.takeBytes_byteSize]

theorem byteSize_token {token : MarkedText} {name : List Char} (marked : token.text = Placeholder.mark name)
    (front : MarkedText) :
    byteSize (MarkedText.text (front ++ token)) = byteSize front.text + byteSize name + 3 := by
  rw [MarkedText.text_append, Text.byteSize_append, marked, byteSize_mark, Nat.add_assoc]

/-- What is behind `front` is copied up to `rest`, and the tokens of `rest` that rules wrote get their defaults. -/
theorem fillFrom_of (t : Template) (front part rest : MarkedText) :
    t.fillFrom (of (front ++ part ++ rest)) (byteSize front.text)
        (Placeholder.tokensFrom (byteSize (MarkedText.text (front ++ part))) rest.text) =
      (t.fillLeftovers rest).map (part.text ++ ·) := by
  fun_induction t.fillLeftovers rest generalizing front part with
  | case1 =>
    have none : Placeholder.tokensFrom (byteSize (MarkedText.text (front ++ part))) [] = [] := by
      rw [Placeholder.tokensFrom]
    show t.fillFrom _ _ (Placeholder.tokensFrom _ []) = _
    rw [none, fillFrom, dropBytes_of]
    rfl
  | case2 c origin =>
    have plain : Placeholder.tokensFrom (byteSize (MarkedText.text (front ++ part))) [c] = [] := by
      rw [Placeholder.tokensFrom]
      · rw [Placeholder.tokensFrom]
      · rintro r rfl ⟨⟩
    show t.fillFrom _ _ (Placeholder.tokensFrom _ [c]) = _
    rw [plain, fillFrom, dropBytes_of]
    rfl
  | case3 c d origin' rest name after token ih =>
    obtain ⟨rfl, rfl, closed⟩ := token_of_closed? token
    obtain ⟨token, whole, marked, behind⟩ := exists_token .final origin' closed
    have origin := origin_of (front ++ part) (('{', origin') :: rest) '$' .final
    have others := ih front (part ++ token)
    have kept : MarkedText.text (part ++ token) = part.text ++ Placeholder.mark name := by
      rw [MarkedText.text_append, marked]
    rw [← List.append_assoc, byteSize_token marked, behind, kept] at others
    rw [MarkedText.text_cons, MarkedText.text_cons, tokensFrom_token closed, fillFrom, if_pos origin, whole,
      ← List.append_assoc, others]
    cases t.fillLeftovers (rest.drop (name.length + 1)) with
    | error x => rfl
    | ok cs => exact congrArg Except.ok (List.append_assoc ..)
  | case4 c d origin' rest name after token default found ih =>
    obtain ⟨rfl, rfl, closed⟩ := token_of_closed? token
    obtain ⟨token, whole, marked, behind⟩ := exists_token .rule origin' closed
    have origin := origin_of (front ++ part) (('{', origin') :: rest) '$' .rule
    have slice := sliceBytes_of front part (('$', .rule) :: ('{', origin') :: rest)
    have others := ih (front ++ part ++ token) []
    rw [List.append_nil, byteSize_token marked, behind] at others
    rw [MarkedText.text_cons, MarkedText.text_cons, tokensFrom_token closed, fillFrom, if_neg (by rw [origin]; simp),
      default?, found, slice, whole, ← List.append_assoc]
    show (t.fillFrom _ _ _ >>= _) = _
    rw [others]
    cases t.fillLeftovers (rest.drop (name.length + 1)) with
    | error x => rfl
    | ok cs => exact congrArg Except.ok (List.append_assoc ..)
  | case5 c d origin' rest name after token missing =>
    obtain ⟨rfl, rfl, closed⟩ := token_of_closed? token
    have origin := origin_of (front ++ part) (('{', origin') :: rest) '$' .rule
    rw [MarkedText.text_cons, MarkedText.text_cons, tokensFrom_token closed, fillFrom, if_neg (by rw [origin]; simp),
      default?, missing]
    rfl
  | case6 c origin d origin' rest plain ih =>
    have others := ih front (part ++ [(c, origin)])
    have passed : byteSize (MarkedText.text (front ++ part ++ [(c, origin)])) =
        byteSize (MarkedText.text (front ++ part)) + c.utf8Size := by
      rw [MarkedText.text_append, Text.byteSize_append]
      rfl
    have kept : MarkedText.text (part ++ [(c, origin)]) = part.text ++ [c] := by
      rw [MarkedText.text_append]
      rfl
    rw [← List.append_assoc, passed, List.append_assoc, List.singleton_append, kept] at others
    have behind := tokensFrom_cons plain (byteSize (MarkedText.text (front ++ part)))
    rw [MarkedText.text_cons, MarkedText.text_cons, behind]
    refine others.trans ?_
    cases t.fillLeftovers ((d, origin') :: rest) with
    | error x => rfl
    | ok cs => exact congrArg Except.ok (List.append_assoc ..)

theorem fillBytes_of (t : Template) (d : MarkedText) : t.fillBytes (of d) = t.fillLeftovers d := by
  have whole := t.fillFrom_of [] [] d
  refine whole.trans ?_
  cases t.fillLeftovers d <;> rfl

/-! ### Rendering -/

/-- When the first step succeeds, the rules make of its text what they make of plain text, whoever wrote which
part of it, with an origin for every byte after any number of them; the last step gets that text; and where no
rule writes a dollar it is what comes out. -/
theorem render_eq_rewritten {t : Template} {e : Environment} {text : List Char} (filled : t.filled e = .ok text) :
    (∀ rules, rules <+: e.rules →
      let d := rules.foldl MarkedBytes.apply (({} : MarkedBytes).push .final text)
      d.text = rules.foldl Rule.rewrite text ∧ d.origins.length = byteSize d.text) ∧
    MarkedText.text (e.ruled text) = e.rewritten text ∧ of (e.ruled text) = e.ruledBytes text ∧
    t.render e = (t.fillBytes (e.ruledBytes text)).map
      (fun content => ⟨t.id, e.name, t.kind, String.ofList content, []⟩) ∧
    ((∀ r ∈ e.rules, '$' ∉ r.written.toList) →
      t.render e = .ok ⟨t.id, e.name, t.kind, String.ofList (e.rewritten text), []⟩) := by
  have rendered : t.render e = (t.fillLeftovers (e.ruled text)).map
      fun content => ⟨t.id, e.name, t.kind, String.ofList content, []⟩ := by
    rw [render_eq_filled, filled]
    show (t.fillLeftovers _ >>= _) = _
    cases t.fillLeftovers (e.ruled text) <;> rfl
  have bytes : e.ruledBytes text = of (e.ruled text) := MarkedBytes.ruledBytes_eq e text
  refine ⟨fun rules _ => ?_, MarkedText.text_ruled e text, bytes.symm, ?_, fun plain => ?_⟩
  · have start : ({} : MarkedBytes).push .final text = of (.ofText .final text) := MarkedBytes.push_of [] _ _
    rw [start, MarkedBytes.foldl_apply_of]
    refine ⟨?_, MarkedText.length_origins _⟩
    show MarkedText.text (rules.foldl MarkedText.apply _) = _
    rw [MarkedText.text_foldl_apply, MarkedText.text_ofText]
  · rw [rendered, bytes, fillBytes_of]
  · have unopened : ∀ name, ¬MarkedText.Opens (e.ruled text) name :=
      MarkedText.not_opens_ruled (fun r among => MarkedText.not_mem_ofRule (plain r among)) text
    rw [rendered, fillLeftovers_of_not_opens t unopened, MarkedText.text_ruled]
    rfl

end Template

/-- An environment with a rule of every kind, none of which writes a dollar. -/
def Environment.centsRules : Environment :=
  { name := "prod", rules := [.replace "US$" "EU", .prepend "# ¢\n", .append "Z=1\n"] }

/-- The braces of the source stay as they are, although a rule takes the dollar in front of them away. -/
theorem Environment.render_centsRules :
    let t := Template.ofSource "K=US${HOME} US$$\n".toList
    t.filled centsRules = .ok "K=US${HOME} US$$\n".toList ∧
      (∀ r ∈ centsRules.rules, '$' ∉ r.written.toList) ∧
      t.render centsRules = .ok ⟨t.id, "prod", t.kind, "# ¢\nK=EU{HOME} EU$\nZ=1\n", []⟩ := by
  have filled := Template.filled_ofSource "K=US${HOME} US$$\n".toList centsRules
  have plain : ∀ r ∈ centsRules.rules, '$' ∉ r.written.toList := by decide +kernel
  have text : String.ofList (centsRules.rewritten "K=US${HOME} US$$\n".toList) = "# ¢\nK=EU{HOME} EU$\nZ=1\n" := by
    decide +kernel
  obtain ⟨-, -, -, -, rendered⟩ := Template.render_eq_rewritten filled
  exact ⟨filled, plain, text ▸ rendered plain⟩

end Stencil
