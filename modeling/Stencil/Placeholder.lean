import Stencil.Text.Bytes

/-!
# Placeholders

A template's text marks a variable as `${name}` and writes a plain `${` as `$${`. Everything else,
such as a lone dollar or an opener that no brace closes, is literal text, so that reading a text
never fails. `write_segments` says that the segments of a text write back to it.
-/

namespace Stencil.Placeholder

open Text (byteSize)

def isNameStart (c : Char) : Bool := c.isAlpha || c == '_'

def isNameChar (c : Char) : Bool := c.isAlphanum || c == '_'

def isName : List Char → Bool
  | [] => false
  | c :: cs => isNameStart c && cs.all isNameChar

/-- One piece of a template's text. -/
inductive Segment where
  | literal (text : List Char)
  /-- Stands for a literal `${`. -/
  | escape
  | placeholder (name : List Char)
  deriving Repr, DecidableEq, Inhabited

def mark (name : List Char) : List Char := '$' :: '{' :: name ++ ['}']

/-- After an opening `${`: the name up to the closing brace, and what follows the brace. -/
def closed? (cs : List Char) : Option (List Char × List Char) :=
  match cs.dropWhile isNameChar with
  | '}' :: rest =>
    let name := cs.takeWhile isNameChar
    if isName name then some (name, rest) else none
  | _ => none

theorem isNameChar_of_isNameStart {c : Char} (h : isNameStart c = true) : isNameChar c = true := by
  simp only [isNameStart, Bool.or_eq_true] at h
  rcases h with h | h
  · simp [isNameChar, Char.isAlphanum, h]
  · simp [isNameChar, h]

theorem eq_append_of_closed? {cs name rest : List Char} (h : closed? cs = some (name, rest)) :
    cs = name ++ '}' :: rest ∧ isName name = true := by
  unfold closed? at h
  split at h
  · next r e =>
    dsimp only at h
    split at h
    · next v =>
      simp only [Option.some.injEq, Prod.mk.injEq] at h
      obtain ⟨rfl, rfl⟩ := h
      exact ⟨by rw [← e, List.takeWhile_append_dropWhile], v⟩
    · simp at h
  · simp at h

theorem closed?_mark {name : List Char} (h : isName name = true) (rest : List Char) :
    closed? (name ++ '}' :: rest) = some (name, rest) := by
  have all : ∀ c ∈ name, isNameChar c = true := by
    cases name with
    | nil => simp [isName] at h
    | cons c cs =>
      simp only [isName, Bool.and_eq_true, List.all_eq_true] at h
      intro d hd
      rcases List.mem_cons.1 hd with rfl | hd
      · exact isNameChar_of_isNameStart h.1
      · exact h.2 d hd
  have brace : isNameChar '}' = false := by decide
  have drop : (name ++ '}' :: rest).dropWhile isNameChar = '}' :: rest := by
    rw [List.dropWhile_append_of_pos all]
    simp [brace]
  have take : (name ++ '}' :: rest).takeWhile isNameChar = name := by
    rw [List.takeWhile_append_of_pos all]
    simp [brace]
  simp [closed?, drop, take, h]

theorem length_lt_of_closed? {cs name rest : List Char} (h : closed? cs = some (name, rest)) :
    rest.length < cs.length := by
  rw [(eq_append_of_closed? h).1]
  simp
  omega

/-- Puts a character in front of the segments, into a literal that stands there. -/
def pushChar (c : Char) : List Segment → List Segment
  | .literal text :: segs => .literal (c :: text) :: segs
  | segs => .literal [c] :: segs

def segments : List Char → List Segment
  | [] => []
  | '$' :: '$' :: '{' :: rest => .escape :: segments rest
  | '$' :: '{' :: rest =>
    match h : closed? rest with
    | some (name, after) =>
      have := length_lt_of_closed? h
      .placeholder name :: segments after
    | none => pushChar '$' (segments ('{' :: rest))
  | c :: rest => pushChar c (segments rest)
  termination_by cs => cs.length
  decreasing_by all_goals simp_wf <;> omega

def Segment.write : Segment → List Char
  | .literal text => text
  | .escape => ['$', '$', '{']
  | .placeholder name => mark name

def write (segs : List Segment) : List Char := segs.flatMap Segment.write

@[simp] theorem write_pushChar (c : Char) (segs : List Segment) :
    write (pushChar c segs) = c :: write segs := by
  cases segs with
  | nil => rfl
  | cons s segs => cases s <;> rfl

@[simp] theorem write_segments (cs : List Char) : write (segments cs) = cs := by
  fun_induction segments cs with
  | case1 => rfl
  | case2 rest ih => simpa [write, Segment.write] using ih
  | case3 rest name after h _ ih =>
    have := (eq_append_of_closed? h).1
    simp only [write, List.flatMap_cons, Segment.write, mark] at ih ⊢
    rw [ih, this]
    simp
  | case4 rest h ih => simpa using ih
  | case5 c rest _ _ ih => simpa using ih

def Segment.name? : Segment → Option (List Char)
  | .placeholder name => some name
  | _ => none

/-- The names that a text marks, by first appearance and each once. -/
def names (cs : List Char) : List (List Char) :=
  ((segments cs).filterMap Segment.name?).foldl
    (fun seen name => if seen.contains name then seen else seen ++ [name]) []

/-- Every `${name}` in plain text, where `$${` has no meaning of its own, as byte offset and name;
`start` is the offset of the text. -/
def tokensFrom (start : Nat) : List Char → List (Nat × List Char)
  | [] => []
  | '$' :: '{' :: rest =>
    match h : closed? rest with
    | some (name, after) =>
      have := length_lt_of_closed? h
      (start, name) :: tokensFrom (start + byteSize name + 3) after
    | none => tokensFrom (start + 1) ('{' :: rest)
  | c :: rest => tokensFrom (start + c.utf8Size) rest
  termination_by cs => cs.length
  decreasing_by all_goals simp_wf <;> omega

def tokens (cs : List Char) : List (Nat × List Char) := tokensFrom 0 cs

/-- Writes raw text so that it reads back as itself. -/
def escape : List Char → List Char
  | [] => []
  | '$' :: '{' :: rest => '$' :: '$' :: '{' :: escape rest
  | c :: rest => c :: escape rest

/-- The plain text of segments, with a value for every placeholder. -/
def fill (value : List Char → List Char) (segs : List Segment) : List Char :=
  segs.flatMap fun
    | .literal text => text
    | .escape => ['$', '{']
    | .placeholder name => value name

end Stencil.Placeholder
