import Stencil.Json.Writer
import Stencil.Proofs.Decimal.Digits
import Stencil.Proofs.Identifier
import Stencil.Proofs.Json.Acceptance

/-!
# Written values are read

The text of a value is of the grammar, so it is read, whatever it holds: strings of any characters, and numbers
that their own texts give back (`parse_write`), as those of naturals of 64 bits do (`kept_nat`). What is read is
the value with the members of its objects in order (`settled`).
-/

namespace Stencil.Json

open Grammar

/-! ### Strings -/

theorem hexFour?_of_control {n : Nat} (small : n < 0x20) :
    hexFour? ['0', '0', hexDigit (n / 16), hexDigit (n % 16)] = some n := by
  have zero : hexValue? '0' = some 0 := by decide
  have high : hexValue? (hexDigit (n / 16)) = some (n / 16) := hexValue?_hexDigit (by omega)
  have low : hexValue? (hexDigit (n % 16)) = some (n % 16) := hexValue?_hexDigit (by omega)
  simp only [hexFour?, zero, high, low, Option.bind_eq_bind, Option.bind_some, Option.pure_def, Option.some.injEq]
  omega

theorem chars_writeChar (c : Char) {cs s rest : List Char} (h : Chars cs s rest) :
    Chars (writeChar c ++ cs) (c :: s) rest := by
  unfold writeChar
  split
  · exact .escape (.same (by decide)) h
  · exact .escape (.same (by decide)) h
  · exact .escape (.named (by decide)) h
  · exact .escape (.named (by decide)) h
  · exact .escape (.named (by decide)) h
  · exact .escape (.named (by decide)) h
  · exact .escape (.named (by decide)) h
  · next quote backslash _ _ _ _ _ =>
    split
    · next control =>
      have escape : Escape ('u' :: '0' :: '0' :: hexDigit (c.toNat / 16) :: hexDigit (c.toNat % 16) :: cs)
          (Char.ofNat c.toNat) cs := .unit (hexFour?_of_control control) (by omega)
      rw [Char.ofNat_toNat] at escape
      exact .escape escape h
    · next printable => exact .plain quote backslash (by omega) h

theorem chars_write (s rest : List Char) : Chars (s.flatMap writeChar ++ '"' :: rest) s rest := by
  induction s with
  | nil => exact .close rest
  | cons c s ih =>
    rw [List.flatMap_cons, List.append_assoc]
    exact chars_writeChar c ih

/-! ### Naturals -/

theorem takeDigits_all {ds : List Char} (digits : ∀ c ∈ ds, c.isDigit = true) {fuel n : Nat} (k : Nat)
    {cur : Cursor} (text : cur.rest = ds) (enough : ds.length ≤ fuel)
    (fits : ds.foldl (fun n c => n * 10 + (c.toNat - 48)) n ≤ maxWord) :
    ∃ after, takeDigits fuel n k cur = (ds.foldl (fun n c => n * 10 + (c.toNat - 48)) n, k + ds.length, after) ∧
      after.rest = [] := by
  induction ds generalizing fuel n k cur with
  | nil => exact ⟨cur, takeDigits_of_ends (text ▸ ends_nil) .., text⟩
  | cons c ds ih =>
    obtain ⟨digit, others⟩ := List.forall_mem_cons.1 digits
    cases fuel with
    | zero => cases enough
    | succ fuel =>
      have taken : c.isDigit = true ∧ n * 10 + (c.toNat - 48) ≤ maxWord :=
        ⟨digit, (Decimal.le_foldl_digits ds _).trans fits⟩
      obtain ⟨after, read, behind⟩ :=
        ih others (k + 1) (Cursor.rest_step text) (Nat.le_of_succ_le_succ enough) fits
      refine ⟨after, ?_, behind⟩
      rw [takeDigits, text]
      simp only [if_pos taken, List.length_cons, List.foldl_cons]
      rw [← Nat.add_assoc, Nat.add_right_comm]
      exact read

theorem readNumber_digitsOf {n : Nat} (small : n < 2 ^ 64) :
    ∃ after, readNumber false ⟨Decimal.digitsOf n, 1, 0⟩ = .ok (.int n, after) ∧ after.rest = [] := by
  let cur : Cursor := ⟨Decimal.digitsOf n, 1, 0⟩
  have whole : ∀ {after : Cursor}, after.rest = [] →
      readNumber.continued false n 0 after = .ok (.int n, after) := by
    intro after behind
    unfold readNumber.continued
    rw [behind]
    rfl
  rcases Nat.eq_zero_or_pos n with rfl | positive
  · have text : cur.rest = '0' :: [] := rfl
    refine ⟨cur.step, ?_, Cursor.rest_step text⟩
    rw [readNumber_zero text fun _ _ none => by cases none]
    exact whole (Cursor.rest_step text)
  · obtain ⟨c, ds, text, other⟩ := Decimal.exists_digitsOf positive
    have all : cur.rest = Decimal.digitsOf n := rfl
    have start : cur.rest = c :: ds := text
    have digits : ∀ c ∈ Decimal.digitsOf n, c.isDigit = true := fun c => Decimal.isDigit_of_mem_digitsOf
    have fits : (Decimal.digitsOf n).foldl (fun n c => n * 10 + (c.toNat - 48)) 0 ≤ maxWord := by
      rw [Decimal.foldl_digitsOf]
      exact Nat.le_sub_one_of_lt small
    obtain ⟨after, taken, behind⟩ := takeDigits_all digits 0 all (Nat.le_refl _) fits
    have dropped : after.skipWhile Char.isDigit = after := by
      unfold Cursor.skipWhile
      rw [behind]
      rfl
    refine ⟨after, ?_, behind⟩
    rw [readNumber_digits start (digits c (text ▸ List.mem_cons_self)) other, taken,
      Decimal.foldl_digitsOf]
    dsimp only
    rw [dropped, Nat.sub_self]
    exact whole behind

theorem toList_toString (n : Nat) : (toString (n : Int)).toList = Decimal.digitsOf n := by
  show (String.ofList (Nat.toDigits 10 n)).toList = Decimal.digitsOf n
  rw [String.toList_ofList, Decimal.digitsOf]

/-- A number that its text gives back. -/
def Number.Kept (n : Number) : Prop := parse n.write = .ok (.num n)

instance (n : Number) : Decidable n.Kept :=
  match read : parse n.write with
  | .ok (.num m) =>
    decidable_of_iff (m = n) (by
      rw [Number.Kept, read, Except.ok.injEq, Json.num.injEq])
  | .ok .null | .ok (.bool _) | .ok (.str _) | .ok (.arr _) | .ok (.obj _) | .error _ =>
    .isFalse (by
      rw [Number.Kept, read]
      exact nofun)

theorem kept_nat {n : Nat} (small : n < 2 ^ 64) : (Number.int n).Kept := by
  obtain ⟨after, read, whole⟩ := readNumber_digitsOf small
  refine parse_eq_ok_iff.2 ⟨after.rest, ?_, whole ▸ fun _ none => by cases none⟩
  rw [Number.write, toList_toString]
  cases text : Decimal.digitsOf n with
  | nil => exact absurd text (Decimal.digitsOf_ne_nil n)
  | cons c ds =>
    rw [text] at read
    exact .number (Decimal.isDigit_of_mem_digitsOf (text ▸ List.mem_cons_self)) read

/-! ### Numbers -/

theorem not_isGap_of_isDigit {c : Char} (digit : c.isDigit = true) : Cursor.isGap c = false := by
  rw [← Bool.not_eq_true]
  intro gap
  simp only [Cursor.isGap, Bool.or_eq_true, beq_iff_eq] at gap
  rcases gap with ((rfl | rfl) | rfl) | rfl <;> cases digit

/-- A text without blanks. -/
def Dense (cs : List Char) : Prop := ∀ c ∈ cs, Cursor.isGap c = false

instance : DecidablePred Dense := List.decidableBAll fun c => Cursor.isGap c = false

theorem dense_append {cs cs' : List Char} : Dense (cs ++ cs') ↔ Dense cs ∧ Dense cs' := List.forall_mem_append

theorem dense_cons {c : Char} {cs : List Char} : Dense (c :: cs) ↔ Cursor.isGap c = false ∧ Dense cs :=
  List.forall_mem_cons

theorem dense_digitsOf (n : Nat) : Dense (Decimal.digitsOf n) := fun _ among =>
  not_isGap_of_isDigit (Decimal.isDigit_of_mem_digitsOf among)

theorem dense_zeros (k : Nat) : Dense (List.replicate k '0') := fun c among => by
  rw [List.eq_of_mem_replicate among]
  rfl

theorem dense_placed {ds : List Char} (dense : Dense ds) (point : Int) (pointZero : Bool) :
    Dense (Decimal.placed ds point pointZero) := by
  unfold Decimal.placed
  dsimp only
  split
  · exact dense_append.2 ⟨dense_cons.2 ⟨rfl, dense_cons.2 ⟨rfl, dense_zeros _⟩⟩, dense⟩
  · split
    · refine dense_append.2 ⟨dense_append.2 ⟨dense, dense_zeros _⟩, ?_⟩
      cases pointZero <;> decide
    · have front : Dense (ds.take point.toNat) := fun c among => dense c (List.mem_of_mem_take among)
      have back : Dense (ds.drop point.toNat) := fun c among => dense c (List.mem_of_mem_drop among)
      exact dense_append.2 ⟨front, dense_cons.2 ⟨rfl, back⟩⟩

theorem dense_scientific {ds : List Char} (dense : Dense ds) (exponent : Int) (plus : Bool) :
    Dense (Decimal.scientific ds exponent plus) := by
  have sign : Dense (if exponent < 0 then ['-'] else if plus then ['+'] else []) := by
    split
    · decide
    · split <;> decide
  refine dense_append.2 ⟨dense_append.2 ⟨?_, dense_cons.2 ⟨rfl, sign⟩⟩, dense_digitsOf _⟩
  split
  · exact dense
  · exact dense
  · obtain ⟨first, others⟩ := dense_cons.1 dense
    exact dense_cons.2 ⟨first, dense_cons.2 ⟨rfl, others⟩⟩

theorem dense_write (n : Number) : Dense n.write := by
  have signed : ∀ {negative : Bool} {cs : List Char}, Dense cs → Dense (if negative then '-' :: cs else cs) := by
    intro negative cs dense
    cases negative
    · exact dense
    · exact dense_cons.2 ⟨rfl, dense⟩
  cases n with
  | int i =>
    cases i with
    | ofNat n =>
      rw [Number.write, Int.ofNat_eq_natCast, toList_toString]
      exact dense_digitsOf n
    | negSucc n =>
      have text : (toString (Int.negSucc n)).toList = '-' :: Decimal.digitsOf (n + 1) := by
        show ("-" ++ String.ofList (Nat.toDigits 10 (n + 1))).toList = _
        have minus : "-".toList = ['-'] := rfl
        rw [String.toList_append, minus, String.toList_ofList]
        rfl
      rw [Number.write, text]
      exact dense_cons.2 ⟨rfl, dense_digitsOf _⟩
  | float x =>
    unfold Number.write Decimal.Style.write Decimal.Style.positive
    dsimp only [Number.style]
    split
    · decide
    · decide
    · split
      · decide
      · exact signed (by decide)
      · exact signed (by decide)
      · refine signed ?_
        split
        · exact dense_placed (dense_digitsOf _) _ _
        · exact dense_scientific (dense_digitsOf _) _ _

theorem rest_of_dense {negative : Bool} {cs : List Char} {n : Number} {after : Cursor} (dense : Dense cs)
    (read : readNumber negative ⟨cs, 1, 0⟩ = .ok (n, after)) (blank : ∀ c ∈ after.rest, Cursor.isGap c = true) :
    after.rest = [] := by
  obtain ⟨w, split, -⟩ := exists_numerals read
  refine List.eq_nil_iff_forall_not_mem.2 fun c among => ?_
  have solid : Cursor.isGap c = false := dense c ((show cs = _ from split) ▸ List.mem_append_right w among)
  rw [blank c among] at solid
  cases solid

/-- A number that is a whole text is read in the same way in front of what ends numbers. -/
theorem readNumber_before {negative : Bool} {cs rest : List Char} {n : Number} {after : Cursor}
    (read : readNumber negative ⟨cs, 1, 0⟩ = .ok (n, after)) (whole : after.rest = []) (ends : Ends rest) :
    ∃ after', readNumber negative ⟨cs ++ rest, 1, 0⟩ = .ok (n, after') ∧ after'.rest = rest := by
  obtain ⟨w, split, numerals⟩ := exists_numerals read
  have all : cs = w := by rwa [whole, List.append_nil] at split
  rw [all]
  exact readNumber_of_agree read split numerals (.ends (whole ▸ ends_nil) ends)

/-- A number that is read from its text alone is read from it in front of what ends numbers. -/
theorem Number.Kept.value {d : Nat} {n : Number} {rest : List Char} (kept : n.Kept) (ends : Ends rest) :
    Value d (n.write ++ rest) (.num n) rest := by
  have dense := dense_write n
  obtain ⟨behind, value, blank⟩ := parse_eq_ok_iff.1 kept
  generalize n.write = cs at dense value ⊢
  cases value with
  | gap gap _ =>
    rw [(dense_cons.1 dense).1] at gap
    cases gap
  | negative read =>
    have whole := rest_of_dense (dense_cons.1 dense).2 read blank
    obtain ⟨after', read', rfl⟩ := readNumber_before read whole ends
    exact .negative read'
  | number digit read =>
    have whole := rest_of_dense dense read blank
    obtain ⟨after', read', rfl⟩ := readNumber_before read whole ends
    exact .number digit read'

/-! ### Values -/

mutual

def settled : Json → Json
  | arr items => arr (settledItems items)
  | obj members => sorted (settledMembers members)
  | null => null
  | bool b => bool b
  | num n => num n
  | str s => str s

def settledItems : List Json → List Json
  | [] => []
  | x :: xs => settled x :: settledItems xs

def settledMembers : List (String × Json) → List (String × Json)
  | [] => []
  | (k, v) :: rest => (k, settled v) :: settledMembers rest

end

/-- A value whose text is read as the value: nested as deep as `d` at most, with numbers that their texts give
back. -/
inductive Legible : (d : Nat) → Json → Prop where
  | null {d : Nat} : Legible d .null
  | bool {d : Nat} (b : Bool) : Legible d (.bool b)
  | num {d : Nat} {n : Number} : n.Kept → Legible d (.num n)
  | str {d : Nat} (s : String) : Legible d (.str s)
  | list {d : Nat} {xs : List Json} : (∀ x ∈ xs, Legible d x) → Legible (d + 1) (.arr xs)
  | object {d : Nat} {ms : List (String × Json)} : (∀ m ∈ ms, Legible d m.2) → Legible (d + 1) (.obj ms)

theorem commas_cons (x : List Char) (xs : List (List Char)) : commas [] (x :: xs) = x ++ xs.flatMap (',' :: ·) := by
  induction xs generalizing x with
  | nil => exact (List.append_nil x).symm
  | cons y ys ih =>
    rw [commas, ih y, List.flatMap_cons]
    · simp only [List.cons_append, List.append_assoc, List.nil_append]
    · exact nofun

theorem ends_commas {m : Char} (mark : isNumeral m = false) (xs : List (List Char)) (rest : List Char) :
    Ends (xs.flatMap (',' :: ·) ++ m :: rest) := by
  cases xs with
  | nil => exact ends_cons.2 mark
  | cons x xs => exact ends_cons.2 rfl

section

variable {d : Nat}

theorem items_of_values {xs : List Json}
    (values : ∀ x ∈ xs, ∀ {rest}, Ends rest → Value d (x.write ++ rest) x.settled rest) (rest : List Char) :
    Items d false ((writeItems xs).flatMap (',' :: ·) ++ ']' :: rest) (settledItems xs) rest := by
  induction xs with
  | nil => exact .close
  | cons x xs ih =>
    obtain ⟨first, others⟩ := List.forall_mem_cons.1 values
    rw [writeItems, settledItems, List.flatMap_cons, List.cons_append, List.cons_append, List.append_assoc]
    exact .next (first (ends_commas rfl _ rest)) (ih others)

theorem member_of_value (k : String) {v : Json} {rest : List Char}
    (value : Value d (v.write ++ rest) v.settled rest) :
    Member d (k.toList.flatMap writeChar ++ '"' :: ':' :: (v.write ++ rest)) (k, v.settled) rest := by
  have member := Member.mk (chars_write k.toList _) (.here _) value
  rwa [String.ofList_toList] at member

theorem members_of_values {ms : List (String × Json)}
    (values : ∀ m ∈ ms, ∀ {rest}, Ends rest → Value d (m.2.write ++ rest) m.2.settled rest) (rest : List Char) :
    Members d false ((writeMembers ms).flatMap (',' :: ·) ++ '\x7d' :: rest) (settledMembers ms) rest := by
  induction ms with
  | nil => exact .close
  | cons m ms ih =>
    obtain ⟨k, v⟩ := m
    obtain ⟨first, others⟩ := List.forall_mem_cons.1 values
    rw [writeMembers, settledMembers, List.flatMap_cons, writeString]
    simp only [List.cons_append, List.append_assoc, List.nil_append]
    exact .next (.here _) (member_of_value k (first (ends_commas rfl _ rest))) (ih others)

end

/-- A legible value is read from its text, in front of what ends numbers. -/
theorem Legible.value {d : Nat} {j : Json} (legible : Legible d j) {rest : List Char} (ends : Ends rest) :
    Value d (j.write ++ rest) j.settled rest := by
  induction legible generalizing rest with
  | null => exact .null
  | bool b =>
    cases b
    · exact .no
    · exact .yes
  | num kept => exact kept.value ends
  | @str d s =>
    have value := Value.string (d := d) (chars_write s.toList rest)
    rw [String.ofList_toList] at value
    rw [write, writeString, List.append_assoc]
    exact value
  | @list d xs _ ih =>
    cases xs with
    | nil => exact .list .close
    | cons x xs =>
      obtain ⟨first, others⟩ := List.forall_mem_cons.1 @ih
      rw [write, writeItems, commas_cons, settled, settledItems]
      simp only [List.cons_append, List.append_assoc, List.nil_append]
      exact .list (.head (first (ends_commas rfl _ rest)) (items_of_values others rest))
  | @object d ms _ ih =>
    cases ms with
    | nil => exact .object .close
    | cons m ms =>
      obtain ⟨k, v⟩ := m
      obtain ⟨first, others⟩ := List.forall_mem_cons.1 @ih
      rw [write, writeMembers, commas_cons, settled, settledMembers, writeString]
      simp only [List.cons_append, List.append_assoc, List.nil_append]
      exact .object (.head (member_of_value k (first (ends_commas rfl _ rest))) (members_of_values others rest))

end Stencil.Json
