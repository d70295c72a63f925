import Stencil.Proofs.Extraction.Exchange
import Stencil.Proofs.Json.Acceptance
import Stencil.Proofs.Json.Reworded

/-!
# Strings in texts of JSON

A machine tells from the characters passed whether a text of JSON is inside a string, and whether the string
is the value of a member: whether it was opened behind a colon. No text of JSON leads it astray, and what
stands in the values of members can be exchanged for other plain texts: the text is JSON again
(`exists_text`).
-/

namespace Stencil.Json

/-- Where a text stands, as far as the characters passed tell. -/
inductive Lexis where
  /-- Outside of strings, where a value or a key may begin. -/
  | free
  /-- Behind a string. -/
  | closed
  /-- Behind a colon that is behind a string. -/
  | colon
  /-- Behind a colon and an opening brace. -/
  | brace
  /-- Behind a value that is no string; a comma comes before the next string. -/
  | ended
  /-- Right behind the opening quote of a string. -/
  | opened (value : Bool)
  | inside (value : Bool)
  /-- Behind a backslash in a string. -/
  | escaped (value : Bool)
  | astray
  deriving DecidableEq

namespace Lexis

def next : Lexis → Char → Lexis
  | free, c =>
    if c = '"' then opened false
    else if Cursor.isGap c ∨ c = ',' ∨ c = '[' ∨ c = '\x7b' then free else ended
  | closed, c =>
    if Cursor.isGap c then closed
    else if c = ':' then colon
    else if c = ',' then free
    else if c = ']' ∨ c = '\x7d' then ended else astray
  | colon, c =>
    if c = '"' then opened true
    else if Cursor.isGap c then colon
    else if c = '\x7b' then brace
    else if c = '[' then free else ended
  | brace, c => if c = '"' then opened false else if Cursor.isGap c then brace else ended
  | ended, c => if c = ',' then free else if c = '"' then astray else ended
  | opened v, c | inside v, c => if c = '"' then closed else if c = '\\' then escaped v else inside v
  | escaped v, _ => inside v
  | astray, _ => astray

def IsBehind (s : Lexis) : Prop := s = closed ∨ s = ended

def IsBefore (s : Lexis) : Prop := s = free ∨ s = colon

/-- Where the next item of a list or its end is expected. -/
def InList (first : Bool) (s : Lexis) : Prop := if first then s = free else s.IsBehind

/-- Where the next member of an object or its end is expected. -/
def InObject (first : Bool) (s : Lexis) : Prop := if first then s = free ∨ s = brace else s.IsBehind

/-- A text that is the inside of a member's string value and needs no escapes. -/
def Slot (s : Lexis) (old back : List Char) : Prop :=
  s = opened true ∧ old ≠ [] ∧ (∀ c ∈ old, c ≠ '"' ∧ c ≠ '\\') ∧ ∃ rest, back = '"' :: rest

end Lexis

/-- A text that stands for itself in a string. -/
def Plain (cs : List Char) : Prop := ∀ c ∈ cs, c ≠ '"' ∧ c ≠ '\\' ∧ 0x20 ≤ c.toNat

/-- What may be put for a plain text is plain. -/
def Fits (new : List Char → List Char → Prop) : Prop := ∀ old put, Plain old → new old put → Plain put

open Lexis Grammar Extraction

/-- A text of JSON with other texts in the values of members. -/
abbrev Exchanged (new : List Char → List Char → Prop) : Lexis → List Char → List Char → Prop :=
  Exchange Lexis.next Slot new

variable {new : List Char → List Char → Prop}

theorem Exchanged.exists_cons {s : Lexis} {c : Char} {cs cs' : List Char} (shut : s ≠ opened true)
    (h : Exchanged new s (c :: cs) cs') :
    ∃ rest, cs' = c :: rest ∧ Exchanged new (s.next c) cs rest := by
  generalize text : c :: cs = whole at h
  cases h with
  | nil => cases text
  | keep d h =>
    obtain ⟨rfl, rfl⟩ := List.cons.inj text
    exact ⟨_, rfl, h⟩
  | value slot _ _ => exact absurd slot.1 shut

theorem Exchanged.eq_nil {s : Lexis} {cs' : List Char} (h : Exchanged new s [] cs') : cs' = [] := by
  generalize none : [] = cs at h
  cases h with
  | nil => rfl
  | keep c h => cases none
  | value slot _ _ => exact absurd (List.append_eq_nil_iff.1 none.symm).1 slot.2.1

/-- The machine passes a text up to a rest, and where the text is exchanged, so is the rest, and something
holds of both. -/
def Follows (new : List Char → List Char → Prop) (s : Lexis) (cs rest : List Char) (s' : Lexis)
    (R : List Char → List Char → Prop) : Prop :=
  (∃ w, cs = w ++ rest ∧ w.foldl Lexis.next s = s') ∧
    ∀ cs', Exchanged new s cs cs' → ∃ rest', Exchanged new s' rest rest' ∧ R cs' rest'

namespace Follows

variable {s t u : Lexis} {cs mid rest : List Char} {R R' : List Char → List Char → Prop}

theorem refl (new : List Char → List Char → Prop) (s : Lexis) (cs : List Char) :
    Follows new s cs cs s fun a b => a = b :=
  ⟨⟨[], rfl, rfl⟩, fun cs' h => ⟨cs', h, rfl⟩⟩

theorem trans (h : Follows new s cs mid t R) (h' : Follows new t mid rest u R') :
    Follows new s cs rest u fun a c => ∃ b, R a b ∧ R' b c := by
  obtain ⟨⟨w, rfl, run⟩, exchange⟩ := h
  obtain ⟨⟨v, rfl, run'⟩, exchange'⟩ := h'
  refine ⟨⟨w ++ v, by rw [List.append_assoc], by rw [List.foldl_append, run, run']⟩, ?_⟩
  intro cs' h
  obtain ⟨mid', h, holds⟩ := exchange cs' h
  obtain ⟨rest', h, holds'⟩ := exchange' mid' h
  exact ⟨rest', h, mid', holds, holds'⟩

theorem imp (h : Follows new s cs rest t R) (imp : ∀ a b, R a b → R' a b) :
    Follows new s cs rest t R' := by
  refine ⟨h.1, fun cs' exchanged => ?_⟩
  obtain ⟨rest', exchanged, holds⟩ := h.2 cs' exchanged
  exact ⟨rest', exchanged, imp _ _ holds⟩

/-- A character that is passed outside of the values of members stays. -/
theorem cons {c : Char} (shut : s ≠ opened true) (run : s.next c = t)
    (h : Follows new t cs rest u R) :
    Follows new s (c :: cs) rest u fun a b => ∃ a', a = c :: a' ∧ R a' b := by
  obtain ⟨⟨w, rfl, run'⟩, exchange⟩ := h
  refine ⟨⟨c :: w, rfl, by rw [List.foldl_cons, run, run']⟩, ?_⟩
  intro cs' h
  obtain ⟨behind, rfl, exchanged⟩ := Exchanged.exists_cons shut h
  rw [run] at exchanged
  obtain ⟨rest', exchanged, holds⟩ := exchange behind exchanged
  exact ⟨rest', exchanged, behind, rfl, holds⟩

theorem append {w : List Char} (shut : ∀ c ∈ w, s.next c = s) (closed : s ≠ opened true)
    (h : Follows new s cs rest u R) :
    Follows new s (w ++ cs) rest u fun a b => ∃ a', a = w ++ a' ∧ R a' b := by
  induction w with
  | nil => exact h.imp fun a b holds => ⟨a, rfl, holds⟩
  | cons c w ih =>
    obtain ⟨same, others⟩ := List.forall_mem_cons.1 shut
    refine (cons closed same (ih others)).imp ?_
    rintro _ b ⟨_, rfl, a, rfl, holds⟩
    exact ⟨a, rfl, holds⟩

end Follows

/-! ### Strings -/

theorem next_of_hexFour? {v : Bool} {a b c d : Char} {n : Nat} (digits : hexFour? [a, b, c, d] = some n) :
    ∀ x ∈ [a, b, c, d], (inside v).next x = inside v := by
  have digit : ∀ {x : Char} {k : Nat}, hexValue? x = some k → (inside v).next x = inside v := by
    intro x k value
    have quote : x ≠ '"' := by
      rintro rfl
      exact absurd value (by simp [hexValue?])
    have backslash : x ≠ '\\' := by
      rintro rfl
      exact absurd value (by simp [hexValue?])
    rw [next, if_neg quote, if_neg backslash]
  unfold hexFour? at digits
  obtain ⟨_, first, digits⟩ := Option.bind_eq_some_iff.1 digits
  obtain ⟨_, second, digits⟩ := Option.bind_eq_some_iff.1 digits
  obtain ⟨_, third, digits⟩ := Option.bind_eq_some_iff.1 digits
  obtain ⟨_, fourth, -⟩ := Option.bind_eq_some_iff.1 digits
  simp [digit first, digit second, digit third, digit fourth]

theorem follows_escape {v : Bool} {cs rest : List Char} {c : Char} (h : Escape cs c rest) :
    Follows new (escaped v) cs rest (inside v) fun cs' rest' => Escape cs' c rest' := by
  have one : ∀ (d : Char) (cs : List Char), Follows new (escaped v) (d :: cs) cs (inside v)
      fun a b => a = d :: b := by
    intro d cs
    refine (Follows.cons (by simp) rfl (Follows.refl new (inside v) cs)).imp ?_
    rintro _ b ⟨a, rfl, rfl⟩
    rfl
  cases h with
  | same known => exact (one c rest).imp fun a b whole => whole ▸ .same known
  | @named d _ _ known => exact (one d rest).imp fun a b whole => whole ▸ .named known
  | unit digits plain =>
    have four := Follows.append (next_of_hexFour? (v := v) digits) (by simp)
      (Follows.refl new (inside v) rest)
    refine (Follows.cons (s := escaped v) (by simp) rfl four).imp ?_
    rintro _ b ⟨_, rfl, a, rfl, rfl⟩
    exact .unit digits plain
  | pair digits low high digits' low' high' =>
    have last := Follows.append (next_of_hexFour? (v := v) digits') (by simp)
      (Follows.refl new (inside v) rest)
    have second := Follows.cons (c := 'u') (s := escaped v) (by simp) rfl last
    have slash : (inside v).next '\\' = escaped v := by simp [next]
    have four := Follows.append (next_of_hexFour? (v := v) digits) (by simp)
      (Follows.cons (by simp) slash second)
    refine (Follows.cons (s := escaped v) (by simp) rfl four).imp ?_
    rintro _ b ⟨_, rfl, _, rfl, _, rfl, _, rfl, a, rfl, rfl⟩
    exact .pair digits low high digits' low' high'

theorem follows_chars {v : Bool} {cs s rest : List Char} (h : Chars cs s rest) :
    Follows new (inside v) cs rest closed fun cs' rest' => Chars cs' s rest' := by
  induction h with
  | close rest =>
    refine (Follows.cons (by simp) (by simp [next]) (Follows.refl new closed rest)).imp ?_
    rintro _ b ⟨a, rfl, rfl⟩
    exact .close a
  | plain quote backslash printable chars ih =>
    refine (Follows.cons (by simp) (by simp [next, quote, backslash]) ih).imp ?_
    rintro _ b ⟨a, rfl, holds⟩
    exact .plain quote backslash printable holds
  | escape e chars ih =>
    refine (Follows.cons (by simp) (by simp [next]) ((follows_escape e).trans ih)).imp ?_
    rintro _ b ⟨_, rfl, a, holds, holds'⟩
    exact .escape holds holds'

theorem chars_of_plain {p : List Char} (plain : Plain p) (rest : List Char) :
    Chars (p ++ '"' :: rest) p rest := by
  induction p with
  | nil => exact .close rest
  | cons c p ih =>
    obtain ⟨⟨quote, backslash, printable⟩, others⟩ := List.forall_mem_cons.1 plain
    exact .plain quote backslash printable (ih others)

theorem eq_of_chars {old back s rest : List Char} (slot : ∀ c ∈ old, c ≠ '"' ∧ c ≠ '\\')
    (h : Chars (old ++ '"' :: back) s rest) : s = old ∧ rest = back ∧ Plain old := by
  induction old generalizing s with
  | nil =>
    cases h with
    | close => exact ⟨rfl, rfl, by simp [Plain]⟩
    | plain quote _ _ _ => exact absurd rfl quote
  | cons c old ih =>
    obtain ⟨⟨quote, backslash⟩, others⟩ := List.forall_mem_cons.1 slot
    rw [List.cons_append] at h
    cases h with
    | close => exact absurd rfl quote
    | plain _ _ printable chars =>
      obtain ⟨rfl, rfl, plain⟩ := ih others chars
      exact ⟨rfl, rfl, List.forall_mem_cons.2 ⟨⟨quote, backslash, printable⟩, plain⟩⟩
    | escape _ _ => exact absurd rfl backslash

theorem run_opened {v : Bool} {cs s rest : List Char} (h : Chars cs s rest) :
    ∃ w, cs = w ++ rest ∧ w.foldl Lexis.next (opened v) = closed := by
  have follows : Follows (fun _ _ => True) (inside v) cs rest closed fun cs' rest' => Chars cs' s rest' :=
    follows_chars h
  obtain ⟨w, split, run⟩ := follows.1
  refine ⟨w, split, ?_⟩
  cases w with
  | nil =>
    have shorter := h.shorter
    rw [split] at shorter
    simp at shorter
  | cons c w => exact run

theorem Exchanged.inside_or_slot {v : Bool} {cs cs' : List Char} (some : cs ≠ [])
    (h : Exchanged new (opened v) cs cs') :
    Exchanged new (inside v) cs cs' ∨ ∃ old put back back', cs = old ++ '"' :: back ∧
      cs' = put ++ back' ∧ Slot (opened v) old ('"' :: back) ∧ new old put ∧
      Exchanged new (old.foldl Lexis.next (opened v)) ('"' :: back) back' := by
  cases h with
  | nil => exact absurd rfl some
  | keep c h => exact .inl (.keep c h)
  | value slot allowed h =>
    obtain ⟨rest, rfl⟩ := slot.2.2.2
    exact .inr ⟨_, _, _, _, rfl, rfl, slot, allowed, h⟩

theorem follows_key {cs s rest : List Char} (h : Chars cs s rest) :
    Follows new (opened false) cs rest closed fun cs' rest' => Chars cs' s rest' := by
  refine ⟨run_opened h, fun cs' exchanged => ?_⟩
  rcases exchanged.inside_or_slot (by rintro rfl; cases h) with exchanged | ⟨_, _, _, _, _, _, slot, _⟩
  · exact (follows_chars h).2 cs' exchanged
  · cases slot.1

theorem run_plain {v : Bool} {s : Lexis} (at_ : s = opened v ∨ s = inside v) {w : List Char}
    (plain : ∀ c ∈ w, c ≠ '"' ∧ c ≠ '\\') (some : w ≠ []) : w.foldl Lexis.next s = inside v := by
  induction w generalizing s with
  | nil => exact absurd rfl some
  | cons c w ih =>
    obtain ⟨⟨quote, backslash⟩, others⟩ := List.forall_mem_cons.1 plain
    have step : s.next c = inside v := by
      rcases at_ with rfl | rfl <;> simp [next, quote, backslash]
    rw [List.foldl_cons, step]
    cases w with
    | nil => rfl
    | cons d w => exact ih (.inr rfl) others (List.cons_ne_nil d w)

/-- A string that is a value stays or is exchanged as a whole. -/
theorem follows_opened (fits : Fits new) {v : Bool}
    {cs s rest : List Char} (h : Chars cs s rest) :
    Follows new (opened v) cs rest closed fun cs' rest' =>
      ∃ s', Chars cs' s' rest' ∧ (s' = s ∨ new s s') := by
  refine ⟨run_opened h, fun cs' exchanged => ?_⟩
  rcases exchanged.inside_or_slot (by rintro rfl; cases h) with
    exchanged | ⟨old, put, back, back', rfl, rfl, slot, allowed, exchanged⟩
  · obtain ⟨rest', exchanged, chars⟩ := (follows_chars h).2 cs' exchanged
    exact ⟨rest', exchanged, s, chars, .inl rfl⟩
  · obtain ⟨rfl, rfl, plain⟩ := eq_of_chars slot.2.2.1 h
    rw [run_plain (.inl rfl) slot.2.2.1 slot.2.1] at exchanged
    obtain ⟨rest', rfl, tail⟩ := Exchanged.exists_cons (by simp) exchanged
    refine ⟨rest', ?_, put, chars_of_plain (fits _ _ plain allowed) rest', .inr allowed⟩
    simpa [next] using tail

/-! ### Numbers and words -/

def Lexis.IsOutside : Lexis → Prop
  | opened _ | inside _ | escaped _ => False
  | _ => True

theorem Lexis.isOutside_next {s : Lexis} (outside : s.IsOutside) {c : Char} (plain : c ≠ '"') :
    (s.next c).IsOutside := by
  cases s <;> simp only [IsOutside] at outside <;> simp only [next, plain, if_false] <;>
    (repeat' split) <;> trivial

/-- Outside of strings nothing is exchanged as far as a number goes. -/
theorem agree_of_exchanged {s : Lexis} {cs cs' : List Char} (outside : s.IsOutside)
    (h : Exchanged new s cs cs') : Agree cs cs' := by
  induction h with
  | nil => exact .refl []
  | keep c _ ih =>
    by_cases numeral : isNumeral c = true
    · exact .cons numeral (ih (Lexis.isOutside_next outside (ne_quote_of_isNumeral numeral)))
    · have other : isNumeral c = false := Bool.eq_false_iff.2 numeral
      exact .ends (ends_cons.2 other) (ends_cons.2 other)
  | value slot _ _ _ =>
    rw [slot.1] at outside
    exact outside.elim

theorem next_ended {c : Char} (comma : c ≠ ',') (quote : c ≠ '"') : ended.next c = ended := by
  simp [next, comma, quote]

/-- What a value other than a string, a list or an object begins with. -/
def IsScalarStart (c : Char) : Prop :=
  c ≠ '"' ∧ c ≠ ',' ∧ c ≠ '[' ∧ c ≠ '\x7b' ∧ Cursor.isGap c = false

instance (c : Char) : Decidable (IsScalarStart c) :=
  inferInstanceAs (Decidable (c ≠ '"' ∧ c ≠ ',' ∧ c ≠ '[' ∧ c ≠ '\x7b' ∧ Cursor.isGap c = false))

theorem next_before {s : Lexis} (before : s.IsBefore) {c : Char} (scalar : IsScalarStart c) :
    s.next c = ended := by
  obtain ⟨quote, comma, bracket, brace, gap⟩ := scalar
  rcases before with rfl | rfl <;> simp [next, quote, comma, bracket, brace, gap]

theorem Lexis.IsBefore.shut {s : Lexis} (before : s.IsBefore) : s ≠ opened true := by
  rcases before with rfl | rfl <;> simp

theorem isScalarStart_of_isDigit {c : Char} (digit : c.isDigit = true) : IsScalarStart c := by
  refine ⟨?_, ?_, ?_, ?_, not_gap_of_isDigit digit⟩ <;> rintro rfl <;> exact absurd digit (by decide)

theorem follows_word {s : Lexis} (before : s.IsBefore) {c : Char} (scalar : IsScalarStart c)
    {w : List Char} (letters : ∀ x ∈ w, x ≠ ',' ∧ x ≠ '"') (rest : List Char) :
    Follows new s (c :: (w ++ rest)) rest ended fun a b => a = c :: (w ++ b) := by
  have tail := Follows.append (fun x among => next_ended (letters x among).1 (letters x among).2)
    (by simp) (Follows.refl new ended rest)
  refine (Follows.cons before.shut (next_before before scalar) tail).imp ?_
  rintro _ b ⟨_, rfl, a, rfl, rfl⟩
  rfl

theorem Follows.agree {s t : Lexis} {cs rest : List Char} {R : List Char → List Char → Prop}
    (h : Follows new s cs rest t R) (outside : t.IsOutside) :
    Follows new s cs rest t fun a b => R a b ∧ Agree rest b := by
  refine ⟨h.1, fun cs' exchanged => ?_⟩
  obtain ⟨rest', exchanged, holds⟩ := h.2 cs' exchanged
  exact ⟨rest', exchanged, holds, agree_of_exchanged outside exchanged⟩

theorem letters_of_numerals {w : List Char} (numerals : ∀ c ∈ w, isNumeral c = true) :
    ∀ c ∈ w, c ≠ ',' ∧ c ≠ '"' := by
  intro c among
  have numeral := numerals c among
  constructor <;> rintro rfl <;> exact absurd numeral (by decide)

/-! ### Values -/

theorem next_gap {s : Lexis} {c : Char} (outside : s.IsOutside) (known : s ≠ astray)
    (blank : Cursor.isGap c = true) : s.next c = s := by
  have quote : c ≠ '"' := by
    rintro rfl
    exact absurd blank (by decide)
  have comma : c ≠ ',' := by
    rintro rfl
    exact absurd blank (by decide)
  cases s <;> simp_all [next, IsOutside]

theorem Lexis.IsBefore.isOutside {s : Lexis} (before : s.IsBefore) : s.IsOutside ∧ s ≠ astray := by
  rcases before with rfl | rfl <;> simp [IsOutside]

theorem Lexis.IsBehind.isOutside {s : Lexis} (behind : s.IsBehind) : s.IsOutside ∧ s ≠ astray := by
  rcases behind with rfl | rfl <;> simp [IsOutside]

theorem Lexis.InList.isOutside {first : Bool} {s : Lexis} (stands : s.InList first) :
    s.IsOutside ∧ s ≠ astray := by
  cases first
  · exact IsBehind.isOutside stands
  · exact IsBefore.isOutside (.inl stands)

theorem Lexis.InObject.isOutside {first : Bool} {s : Lexis} (stands : s.InObject first) :
    s.IsOutside ∧ s ≠ astray := by
  cases first
  · exact IsBehind.isOutside stands
  · rcases stands with rfl | rfl <;> simp [IsOutside]

theorem Lexis.IsOutside.shut {s : Lexis} (outside : s.IsOutside) : s ≠ opened true := by
  rintro rfl
  exact outside

theorem follows_mark (new : List Char → List Char → Prop) {s t : Lexis} {m : Char} (outside : s.IsOutside) (known : s ≠ astray)
    (run : s.next m = t) {cs rest : List Char} (h : Mark m cs rest) :
    Follows new s cs rest t fun cs' rest' => Mark m cs' rest' := by
  have shut := outside.shut
  induction h with
  | here rest =>
    refine (Follows.cons shut run (Follows.refl new t rest)).imp ?_
    rintro _ b ⟨a, rfl, rfl⟩
    exact .here a
  | gap blank _ ih =>
    refine (Follows.cons shut (next_gap outside known blank) ih).imp ?_
    rintro _ b ⟨a, rfl, mark⟩
    exact .gap blank mark

/-- A value without strings stays as it is, since what comes behind it goes on in the same way. -/
theorem follows_scalar {s : Lexis} (before : s.IsBefore) {c : Char} (scalar : IsScalarStart c)
    {w : List Char} (letters : ∀ x ∈ w, x ≠ ',' ∧ x ≠ '"') {d : Nat} {j : Json} {rest : List Char}
    (reads : ∀ b, Agree rest b → Value d (c :: (w ++ b)) j b) :
    ∃ t : Lexis, t.IsBehind ∧ Follows new s (c :: (w ++ rest)) rest t fun cs' rest' =>
      ∃ j', Value d cs' j' rest' ∧ Reworded new j j' := by
  refine ⟨ended, .inr rfl, ((follows_word before scalar letters rest).agree trivial).imp ?_⟩
  rintro _ b ⟨rfl, agree⟩
  exact ⟨j, reads b agree, .same _⟩

mutual

/-- A value stays a value, with other strings in it. -/
theorem follows_value (fits : Fits new) {d : Nat} {cs : List Char} {j : Json} {rest : List Char} :
    Value d cs j rest → ∀ s : Lexis, s.IsBefore → ∃ t : Lexis, t.IsBehind ∧
      Follows new s cs rest t fun cs' rest' => ∃ j', Value d cs' j' rest' ∧ Reworded new j j'
  | .gap blank h, s, before => by
    obtain ⟨t, behind, follows⟩ := follows_value fits h s before
    refine ⟨t, behind, (Follows.cons before.shut
      (next_gap before.isOutside.1 before.isOutside.2 blank) follows).imp ?_⟩
    rintro _ b ⟨a, rfl, j', value, reworded⟩
    exact ⟨j', .gap blank value, reworded⟩
  | .null, _, before =>
    follows_scalar before (w := ['u', 'l', 'l']) (by decide) (by simp) fun _ _ => .null
  | .yes, _, before =>
    follows_scalar before (w := ['r', 'u', 'e']) (by decide) (by simp) fun _ _ => .yes
  | .no, _, before =>
    follows_scalar before (w := ['a', 'l', 's', 'e']) (by decide) (by simp) fun _ _ => .no
  | .negative read, s, before => by
    obtain ⟨w, split, numerals⟩ := exists_numerals read
    dsimp only at split
    subst split
    refine follows_scalar before (by decide) (letters_of_numerals numerals) fun b agree => ?_
    obtain ⟨after', read', rfl⟩ := readNumber_of_agree read rfl numerals agree
    exact .negative read'
  | .number digit read, s, before => by
    obtain ⟨w, split, numerals⟩ := exists_numerals read
    have shorter := readNumber_shorter read
    cases w with
    | nil =>
      rw [split] at shorter
      simp at shorter
    | cons c' w =>
      obtain ⟨rfl, rfl⟩ := List.cons.inj split
      obtain ⟨numeral, others⟩ := List.forall_mem_cons.1 numerals
      refine follows_scalar before (isScalarStart_of_isDigit digit) (letters_of_numerals others)
        fun b agree => ?_
      obtain ⟨after', read', rfl⟩ := readNumber_of_agree read split numerals agree
      exact .number digit read'
  | .string (s := t) chars, s, before => by
    have opens : s.next '"' = opened (s = colon) := by
      rcases before with rfl | rfl <;> rfl
    refine ⟨closed, .inl rfl, (Follows.cons before.shut opens (follows_opened fits chars)).imp ?_⟩
    rintro _ b ⟨a, rfl, t', chars', kept⟩
    refine ⟨.str (String.ofList t'), .string chars', ?_⟩
    rcases kept with rfl | allowed
    · exact .same _
    · refine .text ?_
      rwa [String.toList_ofList, String.toList_ofList]
  | .list items, s, before => by
    have opens : s.next '[' = free := by
      rcases before with rfl | rfl <;> rfl
    refine ⟨ended, .inr rfl, (Follows.cons before.shut opens (follows_items fits items free rfl)).imp ?_⟩
    rintro _ b ⟨a, rfl, xs', items', reworded⟩
    exact ⟨.arr xs', .list items', .list reworded⟩
  | .object members, s, before => by
    have opens : s.next '\x7b' = free ∨ s.next '\x7b' = brace := by
      rcases before with rfl | rfl
      · exact .inl rfl
      · exact .inr rfl
    refine ⟨ended, .inr rfl,
      (Follows.cons before.shut rfl (follows_members fits members _ opens)).imp ?_⟩
    rintro _ b ⟨a, rfl, ms', members', reworded⟩
    exact ⟨.sorted ms', .object members', reworded.sorted⟩

theorem follows_items (fits : Fits new) {d : Nat} {first : Bool} {cs : List Char} {xs : List Json} {rest : List Char} :
    Items d first cs xs rest → ∀ s : Lexis, s.InList first →
      Follows new s cs rest ended fun cs' rest' =>
        ∃ xs', Items d first cs' xs' rest' ∧ RewordedItems new xs xs'
  | .gap blank h, s, stands => by
    obtain ⟨outside, known⟩ := stands.isOutside
    refine (Follows.cons outside.shut (next_gap outside known blank)
      (follows_items fits h s stands)).imp ?_
    rintro _ b ⟨a, rfl, xs', items, reworded⟩
    exact ⟨xs', .gap blank items, reworded⟩
  | @Items.close _ first _, s, stands => by
    have closes : s.next ']' = ended := by
      cases first
      · rcases stands with rfl | rfl <;> rfl
      · obtain rfl : s = free := stands
        rfl
    refine (Follows.cons stands.isOutside.1.shut closes (Follows.refl new ended rest)).imp ?_
    rintro _ b ⟨a, rfl, rfl⟩
    exact ⟨[], .close, .nil⟩
  | .head value items, s, stands => by
    obtain ⟨t, behind, follows⟩ := follows_value fits value s (.inl stands)
    refine (follows.trans (follows_items fits items t behind)).imp ?_
    rintro a b ⟨mid, ⟨x', value', reworded⟩, xs', items', others⟩
    exact ⟨x' :: xs', .head value' items', .cons reworded others⟩
  | .next value items, s, stands => by
    have comma : s.next ',' = free := by
      rcases stands with rfl | rfl <;> rfl
    obtain ⟨t, behind, follows⟩ := follows_value fits value free (.inl rfl)
    refine (Follows.cons stands.isOutside.1.shut comma
      (follows.trans (follows_items fits items t behind))).imp ?_
    rintro _ b ⟨a, rfl, mid, ⟨x', value', reworded⟩, xs', items', others⟩
    exact ⟨x' :: xs', .next value' items', .cons reworded others⟩

theorem follows_members (fits : Fits new) {d : Nat} {first : Bool} {cs : List Char} {ms : List (String × Json)}
    {rest : List Char} : Members d first cs ms rest → ∀ s : Lexis, s.InObject first →
      Follows new s cs rest ended fun cs' rest' =>
        ∃ ms', Members d first cs' ms' rest' ∧ RewordedMembers new ms ms'
  | .gap blank h, s, stands => by
    obtain ⟨outside, known⟩ := stands.isOutside
    refine (Follows.cons outside.shut (next_gap outside known blank)
      (follows_members fits h s stands)).imp ?_
    rintro _ b ⟨a, rfl, ms', members, reworded⟩
    exact ⟨ms', .gap blank members, reworded⟩
  | @Members.close _ first _, s, stands => by
    have closes : s.next '\x7d' = ended := by
      cases first
      · rcases stands with rfl | rfl <;> rfl
      · rcases stands with rfl | rfl <;> rfl
    refine (Follows.cons stands.isOutside.1.shut closes (Follows.refl new ended rest)).imp ?_
    rintro _ b ⟨a, rfl, rfl⟩
    exact ⟨[], .close, .nil⟩
  | .head (m := m) member members, s, stands => by
    have opens : s.next '"' = opened false := by
      rcases stands with rfl | rfl <;> rfl
    obtain ⟨t, behind, follows⟩ := follows_member fits member
    refine (Follows.cons stands.isOutside.1.shut opens
      (follows.trans (follows_members fits members t behind))).imp ?_
    rintro _ b ⟨a, rfl, mid, ⟨v', member', reworded⟩, ms', members', others⟩
    exact ⟨(m.1, v') :: ms', .head member' members', .cons reworded others⟩
  | .next (m := m) quote member members, s, stands => by
    have comma : s.next ',' = free := by
      rcases stands with rfl | rfl <;> rfl
    have mark := follows_mark new (s := free) trivial (by decide) rfl quote
    obtain ⟨t, behind, follows⟩ := follows_member fits member
    refine (Follows.cons stands.isOutside.1.shut comma
      (mark.trans (follows.trans (follows_members fits members t behind)))).imp ?_
    rintro _ b ⟨_, rfl, a, quote', mid, ⟨v', member', reworded⟩, ms', members', others⟩
    exact ⟨(m.1, v') :: ms', .next quote' member' members', .cons reworded others⟩

theorem follows_member (fits : Fits new) {d : Nat} {cs : List Char} {m : String × Json} {rest : List Char} :
    Member d cs m rest → ∃ t : Lexis, t.IsBehind ∧ Follows new (opened false) cs rest t fun cs' rest' =>
      ∃ v', Member d cs' (m.1, v') rest' ∧ Reworded new m.2 v'
  | .mk key separator value => by
    have mark := follows_mark new (s := closed) trivial (by decide) rfl separator
    obtain ⟨t, behind, follows⟩ := follows_value fits value colon (.inr rfl)
    refine ⟨t, behind, ((follows_key key).trans (mark.trans follows)).imp ?_⟩
    rintro a b ⟨_, key', _, separator', v', value', reworded⟩
    exact ⟨v', .mk key' separator' value', reworded⟩

end

theorem run_text {cs : List Char} {j : Json} (h : Grammar.Text cs j) :
    cs.foldl Lexis.next free ≠ astray := by
  obtain ⟨rest, value, blank⟩ := h
  have fits : Fits fun old put => put = old := fun _ _ plain same => same ▸ plain
  obtain ⟨t, behind, ⟨w, rfl, run⟩, -⟩ := follows_value fits value free (.inl rfl)
  have stays : rest.foldl Lexis.next t = t := by
    clear value
    induction rest with
    | nil => rfl
    | cons c rest ih =>
      obtain ⟨gap, others⟩ := List.forall_mem_cons.1 blank
      rw [List.foldl_cons, next_gap behind.isOutside.1 behind.isOutside.2 gap, ih others]
  rw [List.foldl_append, run, stays]
  exact behind.isOutside.2

/-- A text of JSON with other plain texts in the values of members is JSON again, with other strings. -/
theorem exists_text (fits : Fits new) {cs cs' : List Char} {j : Json} (h : Grammar.Text cs j)
    (exchanged : Exchanged new free cs cs') : ∃ j', Grammar.Text cs' j' ∧ Reworded new j j' := by
  obtain ⟨rest, value, blank⟩ := h
  obtain ⟨t, behind, -, exchange⟩ := follows_value fits value free (.inl rfl)
  obtain ⟨rest', exchanged, j', value', reworded⟩ := exchange cs' exchanged
  have gaps := Follows.append (fun c among => next_gap behind.isOutside.1 behind.isOutside.2 (blank c among))
    behind.isOutside.1.shut (Follows.refl new t [])
  rw [List.append_nil] at gaps
  obtain ⟨_, ending, _, rfl, rfl⟩ := gaps.2 rest' exchanged
  obtain rfl := ending.eq_nil
  refine ⟨j', ⟨_, value', ?_⟩, reworded⟩
  rwa [List.append_nil]

end Stencil.Json
