import Mathlib.Data.List.TakeWhile
import Stencil.Json.Reader

/-!
# Numbers end where they end

The reader of numbers looks at nothing behind the characters that numbers are written in, and nothing it says
depends on where in the text it is. So texts that agree as far as a number goes give the same number, and the
same is passed of them.
-/

namespace Stencil.Json

/-- Characters that numbers are written in. -/
def isNumeral (c : Char) : Bool :=
  c.isDigit || c == '.' || c == 'e' || c == 'E' || c == '+' || c == '-'

theorem isNumeral_of_isDigit {c : Char} (digit : c.isDigit = true) : isNumeral c = true := by
  simp [isNumeral, digit]

theorem ne_quote_of_isNumeral {c : Char} (numeral : isNumeral c = true) : c ≠ '"' := by
  rintro rfl
  exact absurd numeral (by decide)

/-- A text that no number goes on with. -/
def Ends (cs : List Char) : Prop := ∀ c rest, cs = c :: rest → isNumeral c = false

theorem ends_nil : Ends [] := fun _ _ none => by cases none

theorem ends_cons {c : Char} {rest : List Char} : Ends (c :: rest) ↔ isNumeral c = false := by
  constructor
  · exact fun ends => ends c rest rfl
  · rintro other _ _ ⟨⟩
    exact other

theorem Ends.not_isDigit {c : Char} {rest : List Char} (h : Ends (c :: rest)) : ¬c.isDigit = true := fun digit => by
  rw [ends_cons, isNumeral_of_isDigit digit] at h
  cases h

/-- Texts that are the same as far as a number goes. -/
inductive Agree : List Char → List Char → Prop where
  | ends {x y : List Char} : Ends x → Ends y → Agree x y
  | cons {c : Char} {x y : List Char} : isNumeral c = true → Agree x y → Agree (c :: x) (c :: y)

theorem Agree.refl (x : List Char) : Agree x x := by
  induction x with
  | nil => exact .ends ends_nil ends_nil
  | cons c x ih =>
    by_cases numeral : isNumeral c = true
    · exact .cons numeral ih
    · have ends : Ends (c :: x) := ends_cons.2 (Bool.eq_false_iff.2 numeral)
      exact .ends ends ends

theorem Agree.symm {x y : List Char} (h : Agree x y) : Agree y x := by
  induction h with
  | ends first second => exact .ends second first
  | cons numeral _ ih => exact .cons numeral ih

theorem Agree.append {w x y : List Char} (numerals : ∀ c ∈ w, isNumeral c = true) (h : Agree x y) :
    Agree (w ++ x) (w ++ y) := by
  induction w with
  | nil => exact h
  | cons c w ih =>
    obtain ⟨numeral, others⟩ := List.forall_mem_cons.1 numerals
    exact .cons numeral (ih others)

namespace Cursor

theorem rest_pass (cur : Cursor) (c : Char) (rest : List Char) : (cur.pass c rest).rest = rest := by
  unfold pass
  split <;> rfl

theorem rest_step {cur : Cursor} {c : Char} {rest : List Char} (h : cur.rest = c :: rest) :
    cur.step.rest = rest := by
  rw [step, h]
  exact rest_pass cur c rest

theorem failAhead_ne_ok {α : Type} {cur : Cursor} {flaw : Flaw} {x : α} :
    cur.failAhead flaw ≠ .ok x := by
  unfold failAhead
  intro h
  split at h
  · cases h
  · split at h <;> cases h

theorem rest_skip (n : Nat) (cur : Cursor) : (cur.skip n).rest = cur.rest.drop n := by
  induction n generalizing cur with
  | zero => rfl
  | succ n ih =>
    rw [skip, ih]
    cases h : cur.rest with
    | nil => simp [step, h]
    | cons c rest => rw [rest_step h, List.drop_succ_cons]

theorem rest_skipWhile (p : Char → Bool) (cur : Cursor) :
    (cur.skipWhile p).rest = cur.rest.dropWhile p := by
  have cut := congrArg (List.drop (cur.rest.takeWhile p).length)
    (List.takeWhile_append_dropWhile (p := p) (l := cur.rest))
  rw [List.drop_left] at cut
  exact (rest_skip _ cur).trans cut.symm

end Cursor

/-- Two cursors pass the same characters of a number, and agree behind them. -/
def Along (cur cur' after after' : Cursor) : Prop :=
  ∃ w, cur.rest = w ++ after.rest ∧ cur'.rest = w ++ after'.rest ∧ (∀ c ∈ w, isNumeral c = true) ∧
    Agree after.rest after'.rest

namespace Along

variable {cur cur' mid mid' after after' : Cursor}

theorem refl (agree : Agree cur.rest cur'.rest) : Along cur cur' cur cur' :=
  ⟨[], rfl, rfl, by simp, agree⟩

theorem agree (h : Along cur cur' after after') : Agree after.rest after'.rest := by
  obtain ⟨w, -, -, -, agree⟩ := h
  exact agree

theorem trans (h : Along cur cur' mid mid') (h' : Along mid mid' after after') :
    Along cur cur' after after' := by
  obtain ⟨w, split, split', numerals, -⟩ := h
  obtain ⟨v, next, next', numerals', agree⟩ := h'
  refine ⟨w ++ v, ?_, ?_, ?_, agree⟩
  · rw [split, next, List.append_assoc]
  · rw [split', next', List.append_assoc]
  · exact List.forall_mem_append.2 ⟨numerals, numerals'⟩

theorem length (h : Along cur cur' after after') :
    cur.rest.length - after.rest.length = cur'.rest.length - after'.rest.length := by
  obtain ⟨w, split, split', -, -⟩ := h
  rw [split, split', List.length_append, List.length_append, Nat.add_sub_cancel, Nat.add_sub_cancel]

theorem length_eq_iff (h : Along cur cur' after after') :
    after.rest.length = cur.rest.length ↔ after'.rest.length = cur'.rest.length := by
  obtain ⟨w, split, split', -, -⟩ := h
  rw [split, split', List.length_append, List.length_append]
  omega

/-- Both cursors look at the same character, and agree behind it. -/
theorem head {c : Char} {rest : List Char} (agree : Agree cur.rest cur'.rest)
    (h : cur.rest = c :: rest) (numeral : isNumeral c = true) :
    ∃ rest', cur'.rest = c :: rest' ∧ Along cur cur' cur.step cur'.step := by
  rw [h] at agree
  generalize text : cur'.rest = y at agree
  cases agree with
  | ends ends _ =>
    rw [ends_cons.1 ends] at numeral
    cases numeral
  | cons _ agree =>
    refine ⟨_, rfl, [c], ?_, ?_, by simpa using numeral, ?_⟩
    · rw [h, Cursor.rest_step h, List.singleton_append]
    · rw [text, Cursor.rest_step text, List.singleton_append]
    · rwa [Cursor.rest_step h, Cursor.rest_step text]

theorem head_ne (agree : Agree cur.rest cur'.rest) {c : Char} (numeral : isNumeral c = true)
    (none : ∀ rest, cur.rest ≠ c :: rest) (rest : List Char) : cur'.rest ≠ c :: rest := by
  intro text'
  obtain ⟨rest', text, -⟩ := head agree.symm text' numeral
  exact none rest' text

theorem skip_digits (agree : Agree cur.rest cur'.rest) :
    ∃ ds, cur.rest.takeWhile Char.isDigit = ds ∧ cur'.rest.takeWhile Char.isDigit = ds ∧
      Along cur cur' (cur.skip ds.length) (cur'.skip ds.length) := by
  have split : ∀ {x y : List Char}, Agree x y →
      x.takeWhile Char.isDigit = y.takeWhile Char.isDigit ∧
        Agree (x.dropWhile Char.isDigit) (y.dropWhile Char.isDigit) := by
    have none : ∀ {x : List Char}, Ends x →
        x.takeWhile Char.isDigit = [] ∧ x.dropWhile Char.isDigit = x := by
      intro x ends
      cases x with
      | nil => exact ⟨rfl, rfl⟩
      | cons c x =>
        exact ⟨List.takeWhile_cons_of_neg ends.not_isDigit, List.dropWhile_cons_of_neg ends.not_isDigit⟩
    intro x y agree
    induction agree with
    | ends first second =>
      rw [(none first).1, (none second).1, (none first).2, (none second).2]
      exact ⟨rfl, .ends first second⟩
    | @cons c x y numeral agree ih =>
      by_cases digit : c.isDigit = true
      · simp only [List.takeWhile_cons, List.dropWhile_cons, digit, if_true]
        exact ⟨by rw [ih.1], ih.2⟩
      · simp only [List.takeWhile_cons, List.dropWhile_cons, digit]
        exact ⟨rfl, .cons numeral agree⟩
  obtain ⟨same, behind⟩ := split agree
  have rest := Cursor.rest_skipWhile Char.isDigit cur
  have rest' := Cursor.rest_skipWhile Char.isDigit cur'
  unfold Cursor.skipWhile at rest rest'
  dsimp only at rest rest'
  rw [← same] at rest'
  refine ⟨_, rfl, same.symm, cur.rest.takeWhile Char.isDigit, ?_, ?_, ?_, ?_⟩
  · rw [rest, List.takeWhile_append_dropWhile]
  · rw [rest', same, List.takeWhile_append_dropWhile]
  · exact fun c among => isNumeral_of_isDigit (List.mem_takeWhile_imp among)
  · rwa [rest, rest']

end Along

theorem takeDigits_of_ends {cur : Cursor} (ends : Ends cur.rest) (fuel n k : Nat) :
    takeDigits fuel n k cur = (n, k, cur) := by
  cases fuel with
  | zero => rfl
  | succ fuel =>
    rw [takeDigits]
    split
    · next c rest text => rw [if_neg fun fits => (text ▸ ends).not_isDigit fits.1]
    · rfl

theorem takeDigits_along {x y : List Char} (agree : Agree x y) (n k : Nat) (cur cur' : Cursor)
    (text : cur.rest = x) (text' : cur'.rest = y) :
    ∃ m j after after', takeDigits x.length n k cur = (m, j, after) ∧
      takeDigits y.length n k cur' = (m, j, after') ∧ Along cur cur' after after' := by
  induction agree generalizing n k cur cur' with
  | ends first second =>
    refine ⟨n, k, cur, cur', takeDigits_of_ends (text ▸ first) .., takeDigits_of_ends (text' ▸ second) .., ?_⟩
    exact .refl (by rw [text, text']; exact .ends first second)
  | @cons c x y numeral agree ih =>
    have both : Agree cur.rest cur'.rest := by
      rw [text, text']
      exact .cons numeral agree
    simp only [List.length_cons, takeDigits, text, text']
    split
    · next fits =>
      obtain ⟨rest', text'', step⟩ := Along.head both text (isNumeral_of_isDigit fits.1)
      obtain ⟨m, j, after, after', taken, taken', along⟩ := ih (n * 10 + (c.toNat - 48)) (k + 1)
        cur.step cur'.step (Cursor.rest_step text) (Cursor.rest_step text')
      exact ⟨m, j, after, after', taken, taken', step.trans along⟩
    · exact ⟨n, k, cur, cur', rfl, rfl, .refl both⟩

theorem finish_along {negative : Bool} {n : Nat} {e : Int} {cur cur' after : Cursor} {x : Number}
    (agree : Agree cur.rest cur'.rest) (h : finish negative n e cur = .ok (x, after)) :
    ∃ after', finish negative n e cur' = .ok (x, after') ∧ Along cur cur' after after' := by
  unfold finish at h ⊢
  split at h
  · next y size =>
    obtain ⟨rfl, rfl⟩ := Prod.mk.inj (Except.ok.inj h)
    exact ⟨cur', rfl, .refl agree⟩
  · cases h

/-- The digits of an exponent whose sign is read. -/
def readPower (negative : Bool) (n : Nat) (e : Int) (down : Bool) (cur : Cursor) :
    Except Error (Number × Cursor) :=
  match cur.rest with
  | [] => cur.fail .endInValue
  | c :: _ =>
    if !c.isDigit then cur.failAhead .badNumber
    else
      let ds := cur.rest.takeWhile Char.isDigit
      let x : Nat := ds.foldl (fun a d => a * 10 + (d.toNat - 48)) 0
      if Nat.pow 2 31 ≤ x then
        if n ≠ 0 ∧ !down then (cur.skip (readExponent.overflowAt 0 0 ds)).fail .numberOutOfRange
        else .ok (.float (if negative then -0.0 else 0.0), cur.skip ds.length)
      else finish negative n (if down then e - (x : Int) else e + (x : Int)) (cur.skip ds.length)

section

variable {negative : Bool} {n : Nat} {e : Int} {cur cur' after : Cursor} {x : Number}

theorem readExponent_plus {rest : List Char} (h : cur.rest = '+' :: rest) :
    readExponent negative n e cur = readPower negative n e false cur.step := by
  simp only [readExponent, h]
  rfl

theorem readExponent_minus {rest : List Char} (h : cur.rest = '-' :: rest) :
    readExponent negative n e cur = readPower negative n e true cur.step := by
  simp only [readExponent, h]
  rfl

theorem readExponent_unsigned (plus : ∀ rest, cur.rest ≠ '+' :: rest)
    (minus : ∀ rest, cur.rest ≠ '-' :: rest) :
    readExponent negative n e cur = readPower negative n e false cur := by
  unfold readExponent
  split
  next sign =>
  split at sign
  · next text => exact absurd text (plus _)
  · next text => exact absurd text (minus _)
  · obtain ⟨rfl, rfl⟩ := Prod.mk.inj sign
    rfl

theorem readPower_along {down : Bool} (agree : Agree cur.rest cur'.rest)
    (h : readPower negative n e down cur = .ok (x, after)) :
    ∃ after', readPower negative n e down cur' = .ok (x, after') ∧ Along cur cur' after after' := by
  obtain ⟨ds, digits, digits', dropped⟩ := Along.skip_digits agree
  unfold readPower at h ⊢
  rw [digits] at h
  rw [digits']
  split at h
  · cases h
  · next c rest text =>
    split at h
    · exact absurd h Cursor.failAhead_ne_ok
    · next digit =>
      have isDigit : c.isDigit = true := by simpa using digit
      obtain ⟨rest', text', -⟩ := Along.head agree text (isNumeral_of_isDigit isDigit)
      rw [text']
      dsimp only at h ⊢
      rw [if_neg digit]
      split at h
      · next large =>
        rw [if_pos large]
        split at h
        · cases h
        · next zero =>
          rw [if_neg zero]
          obtain ⟨rfl, rfl⟩ := Prod.mk.inj (Except.ok.inj h)
          exact ⟨_, rfl, dropped⟩
      · next small =>
        rw [if_neg small]
        obtain ⟨after', finished, along⟩ := finish_along dropped.agree h
        exact ⟨after', finished, dropped.trans along⟩

end

theorem readExponent_along {negative : Bool} {n : Nat} {e : Int} {cur cur' after : Cursor} {x : Number}
    (agree : Agree cur.rest cur'.rest) (h : readExponent negative n e cur = .ok (x, after)) :
    ∃ after', readExponent negative n e cur' = .ok (x, after') ∧ Along cur cur' after after' := by
  by_cases plus : ∃ rest, cur.rest = '+' :: rest
  · obtain ⟨rest, text⟩ := plus
    obtain ⟨rest', text', step⟩ := Along.head agree text (by decide)
    rw [readExponent_plus text] at h
    rw [readExponent_plus text']
    obtain ⟨after', read, along⟩ := readPower_along step.agree h
    exact ⟨after', read, step.trans along⟩
  by_cases minus : ∃ rest, cur.rest = '-' :: rest
  · obtain ⟨rest, text⟩ := minus
    obtain ⟨rest', text', step⟩ := Along.head agree text (by decide)
    rw [readExponent_minus text] at h
    rw [readExponent_minus text']
    obtain ⟨after', read, along⟩ := readPower_along step.agree h
    exact ⟨after', read, step.trans along⟩
  · rw [readExponent_unsigned (not_exists.1 plus) (not_exists.1 minus)] at h
    rw [readExponent_unsigned (Along.head_ne agree (by decide) (not_exists.1 plus))
      (Along.head_ne agree (by decide) (not_exists.1 minus))]
    exact readPower_along agree h

theorem readFraction_along {negative : Bool} {n : Nat} {e : Int} {cur cur' after : Cursor} {x : Number}
    (agree : Agree cur.rest cur'.rest) (h : readFraction negative n e cur = .ok (x, after)) :
    ∃ after', readFraction negative n e cur' = .ok (x, after') ∧ Along cur cur' after after' := by
  obtain ⟨m, k, mid, mid', taken, taken', along⟩ :=
    takeDigits_along agree n 0 cur cur' rfl rfl
  obtain ⟨ds, digits, digits', dropped⟩ := Along.skip_digits along.agree
  have passed := along.trans dropped
  unfold readFraction at h ⊢
  rw [taken] at h
  rw [taken']
  unfold Cursor.skipWhile at h ⊢
  dsimp only at h ⊢
  rw [digits] at h
  rw [digits']
  split at h
  · split at h
    · cases h
    · exact absurd h Cursor.failAhead_ne_ok
  · next some =>
    rw [if_neg (by rwa [← passed.length_eq_iff])]
    split at h
    · next text =>
      obtain ⟨rest', text', step⟩ := Along.head passed.agree text (by decide)
      obtain ⟨after', read, behind⟩ := readExponent_along step.agree h
      exact ⟨after', by rw [text']; exact read, (passed.trans step).trans behind⟩
    · next text =>
      obtain ⟨rest', text', step⟩ := Along.head passed.agree text (by decide)
      obtain ⟨after', read, behind⟩ := readExponent_along step.agree h
      exact ⟨after', by rw [text']; exact read, (passed.trans step).trans behind⟩
    · next small large =>
      obtain ⟨after', read, behind⟩ := finish_along passed.agree h
      refine ⟨after', ?_, passed.trans behind⟩
      split
      · next text' => exact absurd text' (Along.head_ne passed.agree (by decide) small _)
      · next text' => exact absurd text' (Along.head_ne passed.agree (by decide) large _)
      · exact read

theorem continued_along {negative : Bool} {n k : Nat} {cur cur' after : Cursor} {x : Number}
    (agree : Agree cur.rest cur'.rest) (h : readNumber.continued negative n k cur = .ok (x, after)) :
    ∃ after', readNumber.continued negative n k cur' = .ok (x, after') ∧
      Along cur cur' after after' := by
  unfold readNumber.continued at h ⊢
  split at h
  · next text =>
    obtain ⟨rest', text', step⟩ := Along.head agree text (by decide)
    obtain ⟨after', read, behind⟩ := readFraction_along step.agree h
    exact ⟨after', by rw [text']; exact read, step.trans behind⟩
  · next text =>
    obtain ⟨rest', text', step⟩ := Along.head agree text (by decide)
    obtain ⟨after', read, behind⟩ := readExponent_along step.agree h
    exact ⟨after', by rw [text']; exact read, step.trans behind⟩
  · next text =>
    obtain ⟨rest', text', step⟩ := Along.head agree text (by decide)
    obtain ⟨after', read, behind⟩ := readExponent_along step.agree h
    exact ⟨after', by rw [text']; exact read, step.trans behind⟩
  · next point small large =>
    split
    · next text' => exact absurd text' (Along.head_ne agree (by decide) point _)
    · next text' => exact absurd text' (Along.head_ne agree (by decide) small _)
    · next text' => exact absurd text' (Along.head_ne agree (by decide) large _)
    · split at h
      · next some =>
        rw [if_pos some]
        exact finish_along agree h
      · next none =>
        rw [if_neg none]
        split at h
        · next positive =>
          obtain ⟨rfl, rfl⟩ := Prod.mk.inj (Except.ok.inj h)
          exact ⟨cur', by rw [if_pos positive], .refl agree⟩
        · next negative =>
          rw [if_neg negative]
          split at h
          · next double =>
            obtain ⟨rfl, rfl⟩ := Prod.mk.inj (Except.ok.inj h)
            exact ⟨cur', by rw [if_pos double], .refl agree⟩
          · next integer =>
            obtain ⟨rfl, rfl⟩ := Prod.mk.inj (Except.ok.inj h)
            exact ⟨cur', by rw [if_neg integer], .refl agree⟩

theorem readNumber_zero {negative : Bool} {cur : Cursor} {rest : List Char} (text : cur.rest = '0' :: rest)
    (single : ∀ c more, rest = c :: more → ¬c.isDigit = true) :
    readNumber negative cur = readNumber.continued negative 0 0 cur.step := by
  cases rest with
  | nil =>
    have behind := Cursor.rest_step text
    have taken : takeDigits cur.rest.length 0 0 cur = (0, 1, cur.step) := by
      rw [text, List.length_singleton, takeDigits, text]
      rfl
    have dropped : cur.step.skipWhile Char.isDigit = cur.step := by
      unfold Cursor.skipWhile
      rw [behind]
      rfl
    simp only [readNumber, text]
    rw [← text, taken]
    dsimp only
    rw [dropped, Nat.sub_self]
    rfl
  | cons c more => simp only [readNumber, text, if_neg (single c more rfl)]

theorem readNumber_digits {negative : Bool} {cur : Cursor} {c : Char} {rest : List Char} (text : cur.rest = c :: rest)
    (digit : c.isDigit = true) (leading : c ≠ '0') :
    readNumber negative cur =
      readNumber.continued negative (takeDigits cur.rest.length 0 0 cur).1
        ((takeDigits cur.rest.length 0 0 cur).2.2.rest.length -
          ((takeDigits cur.rest.length 0 0 cur).2.2.skipWhile Char.isDigit).rest.length)
        ((takeDigits cur.rest.length 0 0 cur).2.2.skipWhile Char.isDigit) := by
  unfold readNumber
  split
  · next none =>
    rw [text] at none
    cases none
  · next text' => exact absurd (List.cons.inj (text.symm.trans text')).1 leading
  · next d rest' _ text' =>
    obtain ⟨rfl, rfl⟩ := List.cons.inj (text.symm.trans text')
    rw [if_pos digit]

theorem exists_digit_of_readNumber {negative : Bool} {cur after : Cursor} {x : Number}
    (h : readNumber negative cur = .ok (x, after)) : ∃ c rest, cur.rest = c :: rest ∧ c.isDigit = true ∧
      (c = '0' → ∀ d more, rest = d :: more → ¬d.isDigit = true) := by
  unfold readNumber at h
  split at h
  · cases h
  · next c rest text =>
    split at h
    · exact absurd h Cursor.failAhead_ne_ok
    · next single =>
      refine ⟨'0', c :: rest, text, by decide, ?_⟩
      rintro - d more ⟨⟩
      exact single
  · next c rest single text =>
    split at h
    · next digit =>
      refine ⟨c, rest, text, digit, ?_⟩
      rintro rfl d more rfl
      exact (single d more rfl rfl).elim
    · exact absurd h Cursor.failAhead_ne_ok

/-- A number is the same number where the text is the same as far as it goes, and the same is left behind it. -/
theorem readNumber_along {negative : Bool} {cur cur' after : Cursor} {x : Number}
    (agree : Agree cur.rest cur'.rest) (h : readNumber negative cur = .ok (x, after)) :
    ∃ after', readNumber negative cur' = .ok (x, after') ∧ Along cur cur' after after' := by
  obtain ⟨c, rest, text, digit, single⟩ := exists_digit_of_readNumber h
  obtain ⟨rest', text', step⟩ := Along.head agree text (isNumeral_of_isDigit digit)
  by_cases zero : c = '0'
  · subst zero
    have single' : ∀ d more, rest' = d :: more → ¬d.isDigit = true := by
      rintro d more rfl digit'
      have behind := step.agree.symm
      rw [Cursor.rest_step text, Cursor.rest_step text'] at behind
      cases behind with
      | ends ends _ => exact ends.not_isDigit digit'
      | cons _ _ => exact single rfl d _ rfl digit'
    rw [readNumber_zero text (single rfl)] at h
    rw [readNumber_zero text' single']
    obtain ⟨after', read, along⟩ := continued_along step.agree h
    exact ⟨after', read, step.trans along⟩
  · obtain ⟨m, k, mid, mid', taken, taken', along⟩ := takeDigits_along agree 0 0 cur cur' rfl rfl
    obtain ⟨ds, digits, digits', dropped⟩ := Along.skip_digits along.agree
    rw [readNumber_digits text digit zero, taken] at h
    rw [readNumber_digits text' digit zero, taken']
    unfold Cursor.skipWhile at h ⊢
    dsimp only at h ⊢
    rw [digits, dropped.length] at h
    rw [digits']
    obtain ⟨after', read, behind⟩ := continued_along dropped.agree h
    exact ⟨after', read, (along.trans dropped).trans behind⟩

theorem exists_numerals {negative : Bool} {cur after : Cursor} {n : Number}
    (read : readNumber negative cur = .ok (n, after)) :
    ∃ w, cur.rest = w ++ after.rest ∧ ∀ c ∈ w, isNumeral c = true := by
  obtain ⟨_, _, w, split, -, numerals, -⟩ := readNumber_along (.refl cur.rest) read
  exact ⟨w, split, numerals⟩

theorem readNumber_of_agree {negative : Bool} {cur after : Cursor} {n : Number} {w b : List Char}
    (read : readNumber negative cur = .ok (n, after)) (split : cur.rest = w ++ after.rest)
    (numerals : ∀ c ∈ w, isNumeral c = true) (agree : Agree after.rest b) :
    ∃ after', readNumber negative ⟨w ++ b, 1, 0⟩ = .ok (n, after') ∧ after'.rest = b := by
  have whole : Agree cur.rest (⟨w ++ b, 1, 0⟩ : Cursor).rest := split ▸ agree.append numerals
  obtain ⟨after', read', v, front, back, -, -⟩ := readNumber_along whole read
  obtain rfl := List.append_cancel_right (split.symm.trans front)
  exact ⟨after', read', (List.append_cancel_left back).symm⟩

theorem readNumber_shorter {negative : Bool} {cur after : Cursor} {x : Number}
    (h : readNumber negative cur = .ok (x, after)) : after.rest.length < cur.rest.length := by
  have shorter : ∀ {mid after : Cursor} {n k : Nat},
      readNumber.continued negative n k mid = .ok (x, after) → after.rest.length ≤ mid.rest.length := by
    intro mid after n k read
    obtain ⟨_, again, w, split, -⟩ := continued_along (.refl mid.rest) read
    rw [split, List.length_append]
    omega
  unfold readNumber at h
  split at h
  · cases h
  · next c rest text =>
    split at h
    · exact absurd h Cursor.failAhead_ne_ok
    · have behind := shorter h
      rw [Cursor.rest_step text] at behind
      rw [text, List.length_cons]
      omega
  · next c rest single text =>
    split at h
    · next digit =>
      have first : takeDigits cur.rest.length 0 0 cur =
          takeDigits rest.length (c.toNat - 48) 1 cur.step := by
        have fits : c.toNat - 48 ≤ maxWord := by
          have bound : c.toNat ≤ 57 := by
            simp only [Char.isDigit, Bool.and_eq_true, decide_eq_true_eq, UInt32.le_iff_toNat_le,
              Char.toNat_val] at digit
            exact digit.2
          have large : 9 ≤ maxWord := by decide
          omega
        rw [text, List.length_cons, takeDigits, text]
        simp only [digit, Nat.zero_mul, Nat.zero_add, fits, and_self, if_true]
      obtain ⟨m, k, mid, mid', taken, -, w, split, -⟩ :=
        takeDigits_along (.refl rest) (c.toNat - 48) 1 cur.step cur.step (Cursor.rest_step text)
          (Cursor.rest_step text)
      rw [first, taken] at h
      dsimp only at h
      have behind := shorter h
      have dropped := (List.dropWhile_sublist Char.isDigit (l := mid.rest)).length_le
      rw [Cursor.rest_skipWhile] at behind
      rw [Cursor.rest_step text] at split
      rw [text, List.length_cons, split, List.length_append]
      omega
    · exact absurd h Cursor.failAhead_ne_ok

end Stencil.Json
