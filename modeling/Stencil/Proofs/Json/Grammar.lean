import Stencil.Proofs.Json.Numbers

/-!
# The grammar of JSON

The grammar of RFC 8259, within the depth that the reader allows: each part of it relates a text, what it
begins with stands for, and the text behind that. Numbers are what `readNumber` takes them for. The reader
accepts exactly the texts of the grammar (`parse_eq_ok_iff`), so neither its fuel nor its order of
decisions refuses any of them.
-/

namespace Stencil.Json

namespace Grammar

/-- What stands behind a backslash in a string. -/
inductive Escape : List Char → Char → List Char → Prop where
  | same {c : Char} {rest : List Char} : c ∈ ['"', '\\', '/'] → Escape (c :: rest) c rest
  | named {c d : Char} {rest : List Char} :
      (c, d) ∈ [('b', '\x08'), ('f', '\x0c'), ('n', '\n'), ('r', '\r'), ('t', '\t')] →
      Escape (c :: rest) d rest
  | unit {a b c d : Char} {n : Nat} {rest : List Char} : hexFour? [a, b, c, d] = some n →
      (n < 0xd800 ∨ 0xdfff < n) → Escape ('u' :: a :: b :: c :: d :: rest) (Char.ofNat n) rest
  | pair {a b c d e f g h : Char} {n m : Nat} {rest : List Char} :
      hexFour? [a, b, c, d] = some n → 0xd800 ≤ n → n ≤ 0xdbff →
      hexFour? [e, f, g, h] = some m → 0xdc00 ≤ m → m ≤ 0xdfff →
      Escape ('u' :: a :: b :: c :: d :: '\\' :: 'u' :: e :: f :: g :: h :: rest)
        (Char.ofNat ((n - 0xd800) * 0x400 + (m - 0xdc00) + 0x10000)) rest

/-- The rest of a string behind its opening quote, with its closing quote. -/
inductive Chars : List Char → List Char → List Char → Prop where
  | close (rest : List Char) : Chars ('"' :: rest) [] rest
  | plain {c : Char} {cs s rest : List Char} : c ≠ '"' → c ≠ '\\' → 0x20 ≤ c.toNat →
      Chars cs s rest → Chars (c :: cs) (c :: s) rest
  | escape {c : Char} {cs mid s rest : List Char} : Escape cs c mid → Chars mid s rest →
      Chars ('\\' :: cs) (c :: s) rest

/-- A mark with blanks before it. -/
inductive Mark (m : Char) : List Char → List Char → Prop where
  | here (rest : List Char) : Mark m (m :: rest) rest
  | gap {c : Char} {cs rest : List Char} : Cursor.isGap c = true → Mark m cs rest → Mark m (c :: cs) rest

mutual

/-- A value with blanks before it, in which as many values may be opened as `d` says. -/
inductive Value : (d : Nat) → List Char → Json → List Char → Prop where
  | gap {d : Nat} {c : Char} {cs : List Char} {j : Json} {rest : List Char} : Cursor.isGap c = true →
      Value d cs j rest → Value d (c :: cs) j rest
  | null {d : Nat} {rest : List Char} : Value d ('n' :: 'u' :: 'l' :: 'l' :: rest) .null rest
  | yes {d : Nat} {rest : List Char} : Value d ('t' :: 'r' :: 'u' :: 'e' :: rest) (.bool true) rest
  | no {d : Nat} {rest : List Char} :
      Value d ('f' :: 'a' :: 'l' :: 's' :: 'e' :: rest) (.bool false) rest
  | negative {d : Nat} {cs : List Char} {n : Number} {after : Cursor} :
      readNumber true ⟨cs, 1, 0⟩ = .ok (n, after) → Value d ('-' :: cs) (.num n) after.rest
  | number {d : Nat} {c : Char} {cs : List Char} {n : Number} {after : Cursor} : c.isDigit = true →
      readNumber false ⟨c :: cs, 1, 0⟩ = .ok (n, after) → Value d (c :: cs) (.num n) after.rest
  | string {d : Nat} {cs s rest : List Char} : Chars cs s rest →
      Value d ('"' :: cs) (.str (String.ofList s)) rest
  | list {d : Nat} {cs : List Char} {xs : List Json} {rest : List Char} : Items d true cs xs rest →
      Value (d + 1) ('[' :: cs) (.arr xs) rest
  | object {d : Nat} {cs : List Char} {ms : List (String × Json)} {rest : List Char} :
      Members d true cs ms rest → Value (d + 1) ('\x7b' :: cs) (.sorted ms) rest

/-- The items of a list behind its opening, or behind an item, with its closing. -/
inductive Items : (d : Nat) → (first : Bool) → List Char → List Json → List Char → Prop where
  | gap {d : Nat} {first : Bool} {c : Char} {cs : List Char} {xs : List Json} {rest : List Char} :
      Cursor.isGap c = true → Items d first cs xs rest → Items d first (c :: cs) xs rest
  | close {d : Nat} {first : Bool} {rest : List Char} : Items d first (']' :: rest) [] rest
  | head {d : Nat} {cs mid : List Char} {x : Json} {xs : List Json} {rest : List Char} :
      Value d cs x mid → Items d false mid xs rest → Items d true cs (x :: xs) rest
  | next {d : Nat} {cs mid : List Char} {x : Json} {xs : List Json} {rest : List Char} :
      Value d cs x mid → Items d false mid xs rest → Items d false (',' :: cs) (x :: xs) rest

/-- The members of an object behind its opening, or behind a member, with its closing. -/
inductive Members : (d : Nat) → (first : Bool) → List Char → List (String × Json) → List Char → Prop where
  | gap {d : Nat} {first : Bool} {c : Char} {cs : List Char} {ms : List (String × Json)}
      {rest : List Char} : Cursor.isGap c = true → Members d first cs ms rest →
      Members d first (c :: cs) ms rest
  | close {d : Nat} {first : Bool} {rest : List Char} : Members d first ('\x7d' :: rest) [] rest
  | head {d : Nat} {cs mid : List Char} {m : String × Json} {ms : List (String × Json)}
      {rest : List Char} : Member d cs m mid → Members d false mid ms rest →
      Members d true ('"' :: cs) (m :: ms) rest
  | next {d : Nat} {cs behind mid : List Char} {m : String × Json} {ms : List (String × Json)}
      {rest : List Char} : Mark '"' cs behind → Member d behind m mid → Members d false mid ms rest →
      Members d false (',' :: cs) (m :: ms) rest

/-- A member of an object behind the opening quote of its key. -/
inductive Member : (d : Nat) → List Char → String × Json → List Char → Prop where
  | mk {d : Nat} {cs key mid behind : List Char} {value : Json} {rest : List Char} : Chars cs key mid →
      Mark ':' mid behind → Value d behind value rest → Member d cs (String.ofList key, value) rest

end

/-- A text that is a value and nothing else but blanks. -/
def Text (cs : List Char) (j : Json) : Prop :=
  ∃ rest, Value 127 cs j rest ∧ ∀ c ∈ rest, Cursor.isGap c = true

theorem Chars.shorter {cs s rest : List Char} (h : Chars cs s rest) : rest.length < cs.length := by
  induction h with
  | close => simp
  | plain _ _ _ _ ih => simp only [List.length_cons]; omega
  | escape e _ ih => cases e <;> simp only [List.length_cons] at ih ⊢ <;> omega

theorem Mark.shorter {m : Char} {cs rest : List Char} (h : Mark m cs rest) : rest.length < cs.length := by
  induction h with
  | here => simp
  | gap _ _ ih => simp only [List.length_cons]; omega

mutual

theorem Value.shorter {d : Nat} {cs : List Char} {j : Json} {rest : List Char} :
    Value d cs j rest → rest.length < cs.length
  | .gap _ h => by have := h.shorter; simp only [List.length_cons]; omega
  | .null => by simp only [List.length_cons]; omega
  | .yes => by simp only [List.length_cons]; omega
  | .no => by simp only [List.length_cons]; omega
  | .negative h => by have := readNumber_shorter h; simp only [List.length_cons] at this ⊢; omega
  | .number _ h => readNumber_shorter h
  | .string h => by have := h.shorter; simp only [List.length_cons]; omega
  | .list h => by have := h.shorter; simp only [List.length_cons]; omega
  | .object h => by have := h.shorter; simp only [List.length_cons]; omega

theorem Items.shorter {d : Nat} {first : Bool} {cs : List Char} {xs : List Json} {rest : List Char} :
    Items d first cs xs rest → rest.length < cs.length
  | .gap _ h => by have := h.shorter; simp only [List.length_cons]; omega
  | .close => by simp
  | .head h h' => by have := h.shorter; have := h'.shorter; omega
  | .next h h' => by have := h.shorter; have := h'.shorter; simp only [List.length_cons]; omega

theorem Members.shorter {d : Nat} {first : Bool} {cs : List Char} {ms : List (String × Json)}
    {rest : List Char} : Members d first cs ms rest → rest.length < cs.length
  | .gap _ h => by have := h.shorter; simp only [List.length_cons]; omega
  | .close => by simp
  | .head h h' => by have := h.shorter; have := h'.shorter; simp only [List.length_cons]; omega
  | .next q h h' => by
    have := q.shorter; have := h.shorter; have := h'.shorter; simp only [List.length_cons]; omega

theorem Member.shorter {d : Nat} {cs : List Char} {m : String × Json} {rest : List Char} :
    Member d cs m rest → rest.length < cs.length
  | .mk k c v => by have := k.shorter; have := c.shorter; have := v.shorter; omega

end

end Grammar

end Stencil.Json
