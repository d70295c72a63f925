import Stencil.Proofs.Json.Grammar

/-!
# The reader accepts the grammar

What the reader takes is of the grammar, and what is of the grammar it takes, at any place and with any
fuel that grows with the text (`parse_eq_ok_iff`).
-/

namespace Stencil.Json

open Grammar

theorem exists_of_bind {α β : Type} {x : Except Error α} {f : α → Except Error β} {b : β}
    (h : x >>= f = .ok b) : ∃ a, x = .ok a ∧ f a = .ok b := by
  cases x with
  | error e => cases h
  | ok a => exact ⟨a, rfl, h⟩

/-! ### Blanks -/

namespace Cursor

theorem rest_skipGap (cur : Cursor) : cur.skipGap.rest = cur.rest.dropWhile isGap :=
  rest_skipWhile isGap cur

/-- What holds behind blanks and goes over to a text with a blank before it holds of the whole text. -/
theorem of_skipGap {P : List Char → Prop} (cur : Cursor)
    (gap : ∀ c cs, isGap c = true → P cs → P (c :: cs)) (h : P cur.skipGap.rest) : P cur.rest := by
  rw [rest_skipGap] at h
  generalize cur.rest = cs at h ⊢
  induction cs with
  | nil => exact h
  | cons c cs ih =>
    rw [List.dropWhile_cons] at h
    split at h
    · next blank => exact gap c cs blank (ih h)
    · exact h

theorem skipGap_of_gap {cur : Cursor} {c : Char} {cs : List Char} (text : cur.rest = c :: cs)
    (blank : isGap c = true) : cur.skipGap = cur.step.skipGap := by
  unfold skipGap skipWhile
  dsimp only
  rw [text, List.takeWhile_cons_of_pos blank, List.length_cons, skip, rest_step text]

theorem skipGap_of_not_gap {cur : Cursor} {c : Char} {cs : List Char} (text : cur.rest = c :: cs)
    (mark : isGap c = false) : cur.skipGap = cur := by
  unfold skipGap skipWhile
  dsimp only
  rw [text, List.takeWhile_cons_of_neg (by simp [mark]), List.length_nil, skip]

theorem skipGap_skipGap (cur : Cursor) : cur.skipGap.skipGap = cur.skipGap := by
  cases text : cur.skipGap.rest with
  | nil =>
    show cur.skipGap.skipWhile isGap = cur.skipGap
    unfold skipWhile
    dsimp only
    rw [text, List.takeWhile_nil, List.length_nil, skip]
  | cons c cs =>
    refine skipGap_of_not_gap text ?_
    have kept := List.head?_dropWhile_not isGap cur.rest
    rw [← rest_skipGap, text] at kept
    simpa using kept

end Cursor

/-! ### Strings -/

theorem exists_of_readHex {cur after : Cursor} {n : Nat} (h : readHex cur = .ok (n, after)) :
    ∃ a b c d, hexFour? [a, b, c, d] = some n ∧ cur.rest = a :: b :: c :: d :: after.rest := by
  unfold readHex at h
  split at h
  · cases h
  · split at h
    · next digits =>
      obtain ⟨rfl, rfl⟩ := Prod.mk.inj (Except.ok.inj h)
      have shape := digits
      unfold hexFour? at shape
      split at shape
      · next a b c d four =>
        refine ⟨a, b, c, d, by rw [← four]; exact digits, ?_⟩
        rw [Cursor.rest_skip]
        conv => lhs; rw [← List.take_append_drop 4 cur.rest, four]
        rfl
      · cases shape
    · cases h

theorem readHex_of {cur : Cursor} {a b c d : Char} {rest : List Char} {n : Nat}
    (text : cur.rest = a :: b :: c :: d :: rest) (digits : hexFour? [a, b, c, d] = some n) :
    ∃ after, readHex cur = .ok (n, after) ∧ after.rest = rest := by
  refine ⟨cur.skip 4, ?_, by rw [Cursor.rest_skip, text]; rfl⟩
  have four : cur.rest.take 4 = [a, b, c, d] := by rw [text]; rfl
  have whole : ¬ Text.byteSize [a, b, c, d] < 4 := by
    have := a.utf8Size_pos
    have := b.utf8Size_pos
    have := c.utf8Size_pos
    have := d.utf8Size_pos
    simp only [Text.byteSize_cons, Text.byteSize_nil]
    omega
  rw [readHex, four, if_neg whole, digits]

theorem escape_of_readUnicode {cur after : Cursor} {c : Char} (h : readUnicode cur = .ok (c, after)) :
    Escape ('u' :: cur.rest) c after.rest := by
  unfold readUnicode at h
  cases read : readHex cur with
  | error e =>
    rw [read] at h
    cases h
  | ok r =>
    obtain ⟨n, mid⟩ := r
    obtain ⟨a, b, c', d, digits, text⟩ := exists_of_readHex read
    rw [read] at h
    replace h : (if 0xdc00 ≤ n ∧ n ≤ 0xdfff then mid.fail .loneSurrogate
      else if n < 0xd800 ∨ 0xdbff < n then .ok (Char.ofNat n, mid) else _) = _ := h
    split at h
    · cases h
    · next lone =>
      split at h
      · next plain =>
        obtain ⟨rfl, rfl⟩ := Prod.mk.inj (Except.ok.inj h)
        rw [text]
        exact .unit digits (by omega)
      · next high =>
        split at h
        · cases h
        · next rest mark =>
          dsimp only at h
          split at h
          · cases h
          · next rest' letter =>
            cases read' : readHex mid.step.step with
            | error e =>
              rw [read'] at h
              cases h
            | ok r =>
              obtain ⟨m, behind⟩ := r
              obtain ⟨e, f, g, k, digits', text'⟩ := exists_of_readHex read'
              rw [read'] at h
              replace h : (if m < 0xdc00 ∨ 0xdfff < m then behind.fail .loneSurrogate
                else .ok (_, behind)) = _ := h
              split at h
              · cases h
              · next low =>
                obtain ⟨rfl, rfl⟩ := Prod.mk.inj (Except.ok.inj h)
                have tail : rest' = e :: f :: g :: k :: behind.rest := by
                  rw [← text', Cursor.rest_step letter]
                have front : rest = 'u' :: rest' := by
                  rw [← letter, Cursor.rest_step mark]
                rw [text, mark, front, tail]
                exact .pair digits (by omega) (by omega) digits' (by omega) (by omega)
          · exact absurd h Cursor.failAhead_ne_ok
        · exact absurd h Cursor.failAhead_ne_ok

theorem escape_of_readEscape {cur after : Cursor} {c : Char} (h : readEscape cur = .ok (c, after)) :
    Escape cur.rest c after.rest := by
  unfold readEscape at h
  split at h
  · cases h
  · next d rest text =>
    have behind := Cursor.rest_step text
    rw [text]
    dsimp only at h
    split at h
    case h_10 => exact absurd h Cursor.failAhead_ne_ok
    case h_9 => exact behind ▸ escape_of_readUnicode h
    all_goals
      obtain ⟨rfl, rfl⟩ := Prod.mk.inj (Except.ok.inj h)
      rw [behind]
    · exact .same (by decide)
    · exact .same (by decide)
    · exact .same (by decide)
    · exact .named (by decide)
    · exact .named (by decide)
    · exact .named (by decide)
    · exact .named (by decide)
    · exact .named (by decide)

theorem readEscape_of {cur : Cursor} {cs rest : List Char} {c : Char} (h : Escape cs c rest)
    (text : cur.rest = cs) : ∃ after, readEscape cur = .ok (c, after) ∧ after.rest = rest := by
  cases h with
  | @same d rest known =>
    refine ⟨cur.step, ?_, Cursor.rest_step text⟩
    simp only [List.mem_cons, List.not_mem_nil, or_false] at known
    rcases known with rfl | rfl | rfl <;> simp only [readEscape, text]
  | @named d _ rest known =>
    refine ⟨cur.step, ?_, Cursor.rest_step text⟩
    simp only [List.mem_cons, List.not_mem_nil, or_false, Prod.mk.injEq] at known
    rcases known with ⟨rfl, rfl⟩ | ⟨rfl, rfl⟩ | ⟨rfl, rfl⟩ | ⟨rfl, rfl⟩ | ⟨rfl, rfl⟩ <;>
      simp only [readEscape, text]
  | @unit a b c d n rest digits plain =>
    obtain ⟨after, read, behind⟩ := readHex_of (Cursor.rest_step text) digits
    refine ⟨after, ?_, behind⟩
    simp only [readEscape, text]
    show readUnicode cur.step = _
    unfold readUnicode
    rw [read]
    show (if _ then _ else if _ then _ else _) = _
    rw [if_neg (by omega), if_pos (by omega)]
    rfl
  | @pair a b c d e f g h n m rest digits low high digits' low' high' =>
    obtain ⟨mid, read, behind⟩ := readHex_of (Cursor.rest_step text) digits
    have mark := Cursor.rest_step behind
    have letter := Cursor.rest_step mark
    obtain ⟨after, read', behind'⟩ := readHex_of letter digits'
    refine ⟨after, ?_, behind'⟩
    simp only [readEscape, text]
    show readUnicode cur.step = _
    unfold readUnicode
    rw [read]
    show (if _ then _ else if _ then _ else _) = _
    rw [if_neg (by omega), if_neg (by omega)]
    simp only [behind, mark]
    rw [read']
    show (if _ then _ else _) = _
    rw [if_neg (by omega)]
    rfl

theorem chars_of_readString {fuel : Nat} {acc : List Char} {cur after : Cursor} {s : String}
    (h : readString fuel acc cur = .ok (s, after)) :
    ∃ t, s = String.ofList (acc.reverse ++ t) ∧ Chars cur.rest t after.rest := by
  induction fuel generalizing acc cur with
  | zero => cases h
  | succ fuel ih =>
    rw [readString] at h
    split at h
    · cases h
    · next rest text =>
      obtain ⟨rfl, rfl⟩ := Prod.mk.inj (Except.ok.inj h)
      refine ⟨[], by simp, ?_⟩
      rw [text, Cursor.rest_step text]
      exact .close rest
    · next rest text =>
      cases escaped : readEscape cur.step with
      | error e =>
        rw [escaped] at h
        cases h
      | ok r =>
        rw [escaped] at h
        obtain ⟨t, rfl, chars⟩ := ih h
        have escape := escape_of_readEscape escaped
        rw [Cursor.rest_step text] at escape
        refine ⟨r.1 :: t, by simp, ?_⟩
        rw [text]
        exact .escape escape chars
    · next c rest quote backslash text =>
      split at h
      · exact absurd h Cursor.failAhead_ne_ok
      · next printable =>
        obtain ⟨t, rfl, chars⟩ := ih h
        rw [Cursor.rest_step text] at chars
        refine ⟨c :: t, by simp, ?_⟩
        rw [text]
        exact .plain quote backslash (by omega) chars

theorem readString_of {cs s rest : List Char} (h : Chars cs s rest) {fuel : Nat} (acc : List Char)
    {cur : Cursor} (text : cur.rest = cs) (enough : cs.length ≤ fuel) :
    ∃ after, readString fuel acc cur = .ok (String.ofList (acc.reverse ++ s), after) ∧
      after.rest = rest := by
  induction h generalizing fuel acc cur with
  | close rest =>
    cases fuel with
    | zero => simp at enough
    | succ fuel =>
      refine ⟨cur.step, ?_, Cursor.rest_step text⟩
      simp only [readString, text, List.append_nil]
  | @plain c cs s rest quote backslash printable _ ih =>
    cases fuel with
    | zero => simp at enough
    | succ fuel =>
      rw [List.length_cons] at enough
      have ready : cs.length ≤ fuel := by omega
      obtain ⟨after, read, behind⟩ := ih (c :: acc) (Cursor.rest_step text) ready
      refine ⟨after, ?_, behind⟩
      rw [readString, text]
      split
      · next none => cases none
      · next same => exact absurd (List.cons.inj same).1 quote
      · next same => exact absurd (List.cons.inj same).1 backslash
      · next d rest' _ _ same =>
        obtain ⟨rfl, rfl⟩ := List.cons.inj same
        rw [if_neg (by omega), read]
        simp
  | @escape c cs mid s rest escape chars ih =>
    cases fuel with
    | zero => simp at enough
    | succ fuel =>
      obtain ⟨cur', escaped, behind'⟩ := readEscape_of escape (Cursor.rest_step text)
      have shorter : mid.length ≤ fuel := by
        cases escape <;> simp only [List.length_cons] at enough <;> omega
      obtain ⟨after, read, behind⟩ := ih (c :: acc) behind' shorter
      refine ⟨after, ?_, behind⟩
      simp only [readString, text]
      rw [escaped]
      show readString fuel (c :: acc) cur' = _
      rw [read]
      simp

/-! ### Values -/

theorem rest_of_readWord {value j : Json} {ws : List Char} {cur after : Cursor}
    (h : readWord value ws cur = .ok (j, after)) : j = value ∧ cur.rest = ws ++ after.rest := by
  induction ws generalizing cur with
  | nil =>
    obtain ⟨rfl, rfl⟩ := Prod.mk.inj (Except.ok.inj h)
    exact ⟨rfl, rfl⟩
  | cons w ws ih =>
    rw [readWord] at h
    split at h
    · cases h
    · next c rest text =>
      split at h
      · next same =>
        obtain ⟨rfl, behind⟩ := ih h
        rw [Cursor.rest_step text] at behind
        exact ⟨rfl, by rw [text, same, behind, List.cons_append]⟩
      · exact absurd h Cursor.failAhead_ne_ok

theorem rest_of_readWord_step {value j : Json} {c : Char} {ws rest : List Char} {cur after : Cursor}
    (text : cur.rest = c :: rest) (h : readWord value ws cur.step = .ok (j, after)) :
    j = value ∧ cur.rest = c :: (ws ++ after.rest) := by
  obtain ⟨same, word⟩ := rest_of_readWord h
  rw [Cursor.rest_step text] at word
  exact ⟨same, text.trans (congrArg (c :: ·) word)⟩

theorem readWord_of (value : Json) (ws rest : List Char) {cur : Cursor}
    (text : cur.rest = ws ++ rest) :
    ∃ after, readWord value ws cur = .ok (value, after) ∧ after.rest = rest := by
  induction ws generalizing cur with
  | nil => exact ⟨cur, rfl, text⟩
  | cons w ws ih =>
    obtain ⟨after, read, behind⟩ := ih (Cursor.rest_step text)
    refine ⟨after, ?_, behind⟩
    rw [readWord, text]
    exact (if_pos rfl).trans read

theorem readNumber_anywhere {negative : Bool} {cur after : Cursor} {n : Number} (cur' : Cursor)
    (same : cur'.rest = cur.rest) (h : readNumber negative cur = .ok (n, after)) :
    ∃ after', readNumber negative cur' = .ok (n, after') ∧ after'.rest = after.rest := by
  have agree : Agree cur.rest cur'.rest := by
    rw [same]
    exact .refl _
  obtain ⟨after', read, w, split, split', -, -⟩ := readNumber_along agree h
  exact ⟨after', read, List.append_cancel_left (split'.symm.trans (same.trans split))⟩

def insertAll (ms acc : List (String × Json)) : List (String × Json) :=
  ms.foldl (fun acc m => insertMember m.1 m.2 acc) acc

/-- What is read with some fuel is of the grammar. -/
structure Sound (fuel : Nat) : Prop where
  value : ∀ {d cur j after}, readValue fuel d cur = .ok (j, after) → Value d cur.rest j after.rest
  items : ∀ {d first acc cur xs after}, readItems fuel d first acc cur = .ok (xs, after) →
    ∃ ys, xs = acc.reverse ++ ys ∧ Items d first cur.rest ys after.rest
  members : ∀ {d first acc cur ms after}, readMembers fuel d first acc cur = .ok (ms, after) →
    ∃ ns, ms = insertAll ns acc ∧ Members d first cur.rest ns after.rest
  member : ∀ {d acc cur ms after}, readMember fuel d acc cur = .ok (ms, after) →
    ∃ m ns mid, ms = insertAll (m :: ns) acc ∧ Member d cur.rest m mid ∧ Members d false mid ns after.rest

namespace Sound

variable {fuel d : Nat} {cur after : Cursor}

theorem readValue (sound : Sound fuel) {j : Json} (h : Json.readValue (fuel + 1) d cur = .ok (j, after)) :
    Value d cur.rest j after.rest := by
  refine Cursor.of_skipGap (P := fun cs => Value d cs j after.rest) cur (fun _ _ => .gap) ?_
  unfold Json.readValue at h
  dsimp only at h
  generalize cur.skipGap = cur at h ⊢
  split at h
  · cases h
  · next text =>
    obtain ⟨rfl, word⟩ := rest_of_readWord_step text h
    rw [word]
    exact .null
  · next text =>
    obtain ⟨rfl, word⟩ := rest_of_readWord_step text h
    rw [word]
    exact .yes
  · next text =>
    obtain ⟨rfl, word⟩ := rest_of_readWord_step text h
    rw [word]
    exact .no
  · next rest text =>
    obtain ⟨⟨n, mid⟩, read, h⟩ := exists_of_bind h
    obtain ⟨rfl, rfl⟩ := Prod.mk.inj (Except.ok.inj h)
    obtain ⟨after', read', behind⟩ :=
      readNumber_anywhere ⟨rest, 1, 0⟩ (Cursor.rest_step text).symm read
    rw [text, ← behind]
    exact .negative read'
  · next rest text =>
    obtain ⟨⟨s, mid⟩, read, h⟩ := exists_of_bind h
    obtain ⟨rfl, rfl⟩ := Prod.mk.inj (Except.ok.inj h)
    obtain ⟨t, rfl, chars⟩ := chars_of_readString read
    rw [Cursor.rest_step text] at chars
    rw [text]
    exact .string chars
  · next rest text =>
    split at h
    · exact absurd h Cursor.failAhead_ne_ok
    · obtain ⟨⟨xs, mid⟩, read, h⟩ := exists_of_bind h
      obtain ⟨rfl, rfl⟩ := Prod.mk.inj (Except.ok.inj h)
      obtain ⟨ys, rfl, list⟩ := sound.items read
      rw [Cursor.rest_step text] at list
      rw [text]
      exact .list list
  · next rest text =>
    split at h
    · exact absurd h Cursor.failAhead_ne_ok
    · obtain ⟨⟨ms, mid⟩, read, h⟩ := exists_of_bind h
      obtain ⟨rfl, rfl⟩ := Prod.mk.inj (Except.ok.inj h)
      obtain ⟨ns, rfl, object⟩ := sound.members read
      rw [Cursor.rest_step text] at object
      rw [text]
      exact .object object
  · next c rest _ _ _ _ _ _ _ text =>
    split at h
    · next digit =>
      obtain ⟨⟨n, mid⟩, read, h⟩ := exists_of_bind h
      obtain ⟨rfl, rfl⟩ := Prod.mk.inj (Except.ok.inj h)
      obtain ⟨after', read', behind⟩ :=
        readNumber_anywhere ⟨c :: rest, 1, 0⟩ text.symm read
      rw [text, ← behind]
      exact .number digit read'
    · exact absurd h Cursor.failAhead_ne_ok

theorem readItems (sound : Sound fuel) {first : Bool} {acc xs : List Json}
    (h : Json.readItems (fuel + 1) d first acc cur = .ok (xs, after)) :
    ∃ ys, xs = acc.reverse ++ ys ∧ Items d first cur.rest ys after.rest := by
  refine Cursor.of_skipGap (P := fun cs => ∃ ys, xs = acc.reverse ++ ys ∧
    Items d first cs ys after.rest) cur ?_ ?_
  · rintro c cs blank ⟨ys, same, list⟩
    exact ⟨ys, same, .gap blank list⟩
  unfold Json.readItems at h
  dsimp only at h
  generalize cur.skipGap = cur at h ⊢
  split at h
  · cases h
  · next text =>
    obtain ⟨rfl, rfl⟩ := Prod.mk.inj (Except.ok.inj h)
    refine ⟨[], (List.append_nil _).symm, ?_⟩
    rw [text, Cursor.rest_step text]
    exact .close
  · next c rest _ text =>
    split at h
    · next isFirst =>
      obtain ⟨⟨x, mid⟩, read, h⟩ := exists_of_bind h
      obtain ⟨ys, rfl, list⟩ := sound.items h
      subst isFirst
      exact ⟨x :: ys, by simp, .head (sound.value read) list⟩
    · next isLater =>
      obtain rfl : first = false := by simpa using isLater
      split at h
      · next comma =>
        subst comma
        split at h
        · cases h
        · exact absurd h Cursor.failAhead_ne_ok
        · obtain ⟨⟨x, mid⟩, read, h⟩ := exists_of_bind h
          obtain ⟨ys, rfl, list⟩ := sound.items h
          have behind := Cursor.of_skipGap (P := fun cs => Value d cs x mid.rest) cur.step
            (fun _ _ => .gap) (sound.value read)
          rw [Cursor.rest_step text] at behind
          refine ⟨x :: ys, by simp, ?_⟩
          rw [text]
          exact .next behind list
      · exact absurd h Cursor.failAhead_ne_ok

theorem readMembers (sound : Sound fuel) {first : Bool} {acc ms : List (String × Json)}
    (h : Json.readMembers (fuel + 1) d first acc cur = .ok (ms, after)) :
    ∃ ns, ms = insertAll ns acc ∧ Members d first cur.rest ns after.rest := by
  refine Cursor.of_skipGap (P := fun cs => ∃ ns,
    ms = insertAll ns acc ∧
      Members d first cs ns after.rest) cur ?_ ?_
  · rintro c cs blank ⟨ns, same, object⟩
    exact ⟨ns, same, .gap blank object⟩
  unfold Json.readMembers at h
  dsimp only at h
  generalize cur.skipGap = cur at h ⊢
  split at h
  · cases h
  · next text =>
    obtain ⟨rfl, rfl⟩ := Prod.mk.inj (Except.ok.inj h)
    refine ⟨[], rfl, ?_⟩
    rw [text, Cursor.rest_step text]
    exact .close
  · next c rest _ text =>
    split at h
    · next isFirst =>
      subst isFirst
      split at h
      · next quote =>
        subst quote
        obtain ⟨m, ns, mid, rfl, head, tail⟩ := sound.member h
        rw [Cursor.rest_step text] at head
        refine ⟨m :: ns, rfl, ?_⟩
        rw [text]
        exact .head head tail
      · exact absurd h Cursor.failAhead_ne_ok
    · next isLater =>
      obtain rfl : first = false := by simpa using isLater
      split at h
      · next comma =>
        subst comma
        split at h
        · cases h
        · next rest' text' =>
          obtain ⟨m, ns, mid, rfl, head, tail⟩ := sound.member h
          rw [Cursor.rest_step text'] at head
          have mark := Cursor.of_skipGap (P := fun cs => Mark '"' cs rest') cur.step
            (fun _ _ => .gap) (text' ▸ .here rest')
          rw [Cursor.rest_step text] at mark
          refine ⟨m :: ns, rfl, ?_⟩
          rw [text]
          exact .next mark head tail
        · exact absurd h Cursor.failAhead_ne_ok
        · exact absurd h Cursor.failAhead_ne_ok
      · exact absurd h Cursor.failAhead_ne_ok

theorem readMember (sound : Sound fuel) {acc ms : List (String × Json)}
    (h : Json.readMember (fuel + 1) d acc cur = .ok (ms, after)) :
    ∃ m ns mid, ms = insertAll (m :: ns) acc ∧ Member d cur.rest m mid ∧
      Members d false mid ns after.rest := by
  unfold Json.readMember at h
  obtain ⟨⟨key, mid⟩, read, h⟩ := exists_of_bind h
  obtain ⟨t, rfl, chars⟩ := chars_of_readString read
  dsimp only at h
  split at h
  · cases h
  · next rest text =>
    obtain ⟨⟨v, behind⟩, read', h⟩ := exists_of_bind h
    obtain ⟨ns, rfl, tail⟩ := sound.members h
    have mark := Cursor.of_skipGap (P := fun cs => Mark ':' cs rest) mid (fun _ _ => .gap)
      (text ▸ .here rest)
    have held := sound.value read'
    rw [Cursor.rest_step text] at held
    exact ⟨_, ns, _, rfl, .mk chars mark held, tail⟩
  · exact absurd h Cursor.failAhead_ne_ok

theorem all (fuel : Nat) : Sound fuel := by
  induction fuel with
  | zero =>
    refine ⟨?_, ?_, ?_, ?_⟩
    · intro d cur j after h
      unfold Json.readValue at h
      cases h
    · intro d first acc cur xs after h
      unfold Json.readItems at h
      cases h
    · intro d first acc cur ms after h
      unfold Json.readMembers at h
      cases h
    · intro d acc cur ms after h
      unfold Json.readMember at h
      cases h
  | succ fuel sound => exact ⟨sound.readValue, sound.readItems, sound.readMembers, sound.readMember⟩

end Sound

/-! ### What is of the grammar is read -/

section

variable {fuel d : Nat} {cur cur' : Cursor}

theorem readValue_congr (same : cur.skipGap = cur'.skipGap) :
    readValue (fuel + 1) d cur = readValue (fuel + 1) d cur' := by
  unfold readValue
  dsimp only
  rw [same]

theorem readItems_congr {first : Bool} {acc : List Json} (same : cur.skipGap = cur'.skipGap) :
    readItems (fuel + 1) d first acc cur = readItems (fuel + 1) d first acc cur' := by
  unfold readItems
  dsimp only
  rw [same]

theorem readMembers_congr {first : Bool} {acc : List (String × Json)}
    (same : cur.skipGap = cur'.skipGap) :
    readMembers (fuel + 1) d first acc cur = readMembers (fuel + 1) d first acc cur' := by
  unfold readMembers
  dsimp only
  rw [same]

theorem starts_of_readValue {j : Json} {after : Cursor}
    (h : readValue (fuel + 1) d cur = .ok (j, after)) :
    cur.skipGap.rest ≠ [] ∧ ∀ rest, cur.skipGap.rest ≠ ']' :: rest := by
  unfold readValue at h
  dsimp only at h
  constructor
  · intro empty
    rw [empty] at h
    cases h
  · intro rest closing
    rw [closing] at h
    exact absurd h Cursor.failAhead_ne_ok

end

theorem not_gap_of_isDigit {c : Char} (digit : c.isDigit = true) : Cursor.isGap c = false := by
  cases blank : Cursor.isGap c with
  | false => rfl
  | true =>
    simp only [Cursor.isGap, Bool.or_eq_true, beq_iff_eq] at blank
    rcases blank with ((rfl | rfl) | rfl) | rfl <;> exact absurd digit (by decide)

theorem rest_skipGap_of_mark {m : Char} (mark : Cursor.isGap m = false) {cs rest : List Char}
    (h : Mark m cs rest) {cur : Cursor} (text : cur.rest = cs) : cur.skipGap.rest = m :: rest := by
  induction h generalizing cur with
  | here rest => rw [Cursor.skipGap_of_not_gap text mark, text]
  | gap blank _ ih => rw [Cursor.skipGap_of_gap text blank, ih (Cursor.rest_step text)]

theorem readValue_of_isDigit {c : Char} {rest : List Char} {cur : Cursor} (text : cur.rest = c :: rest)
    (digit : c.isDigit = true) (fuel d : Nat) :
    readValue (fuel + 1) d cur = readNumber false cur >>= fun x => .ok (.num x.1, x.2) := by
  have other : ∀ m ∈ ['n', 't', 'f', '-', '"', '[', '{'], c ≠ m := by
    rintro m among rfl
    simp only [List.mem_cons, List.not_mem_nil, or_false] at among
    rcases among with rfl | rfl | rfl | rfl | rfl | rfl | rfl <;> exact absurd digit (by decide)
  unfold readValue
  dsimp only
  rw [Cursor.skipGap_of_not_gap text (not_gap_of_isDigit digit), text]
  split
  case h_1 none => cases none
  case h_9 same =>
    obtain ⟨rfl, -⟩ := List.cons.inj same
    rw [if_pos digit]
    rfl
  all_goals
    next same => exact absurd (List.cons.inj same).1 (other _ (by simp))

theorem readValue_of_word {value : Json} {c : Char} {ws rest : List Char} {cur : Cursor}
    (word : (value = .null ∧ c = 'n' ∧ ws = ['u', 'l', 'l']) ∨
      (value = .bool true ∧ c = 't' ∧ ws = ['r', 'u', 'e']) ∨
      (value = .bool false ∧ c = 'f' ∧ ws = ['a', 'l', 's', 'e']))
    (text : cur.rest = c :: (ws ++ rest)) (fuel d : Nat) :
    ∃ after, readValue (fuel + 1) d cur = .ok (value, after) ∧ after.rest = rest := by
  obtain ⟨after, read, behind⟩ := readWord_of value ws rest (Cursor.rest_step text)
  refine ⟨after, ?_, behind⟩
  unfold readValue
  dsimp only
  rcases word with ⟨rfl, rfl, rfl⟩ | ⟨rfl, rfl, rfl⟩ | ⟨rfl, rfl, rfl⟩
  all_goals
    rw [Cursor.skipGap_of_not_gap text (by decide), text]
    exact read

mutual

/-- What is a value is read as that value, with fuel for all the text. -/
theorem readValue_of {d : Nat} {cs : List Char} {j : Json} {rest : List Char} :
    Value d cs j rest → ∀ (fuel : Nat) (cur : Cursor), cur.rest = cs → 3 * cs.length + 1 ≤ fuel →
      ∃ after, readValue fuel d cur = .ok (j, after) ∧ after.rest = rest
  | .gap blank h, fuel + 1, cur, text, enough => by
    rw [readValue_congr (Cursor.skipGap_of_gap text blank)]
    rw [List.length_cons] at enough
    exact readValue_of h (fuel + 1) cur.step (Cursor.rest_step text) (by omega)
  | .null, fuel + 1, _, text, _ => readValue_of_word (.inl ⟨rfl, rfl, rfl⟩) text fuel d
  | .yes, fuel + 1, _, text, _ => readValue_of_word (.inr (.inl ⟨rfl, rfl, rfl⟩)) text fuel d
  | .no, fuel + 1, _, text, _ => readValue_of_word (.inr (.inr ⟨rfl, rfl, rfl⟩)) text fuel d
  | .negative number, fuel + 1, cur, text, _ => by
    obtain ⟨after, read, behind⟩ := readNumber_anywhere cur.step (Cursor.rest_step text) number
    refine ⟨after, ?_, behind⟩
    unfold readValue
    dsimp only
    rw [Cursor.skipGap_of_not_gap text (by decide), text]
    show (readNumber true cur.step >>= _) = _
    rw [read]
    rfl
  | .number (c := c) digit number, fuel + 1, cur, text, _ => by
    obtain ⟨after, read, behind⟩ := readNumber_anywhere cur text number
    refine ⟨after, ?_, behind⟩
    rw [readValue_of_isDigit text digit, read]
    rfl
  | .string chars, fuel + 1, cur, text, _ => by
    obtain ⟨after, read, behind⟩ := readString_of chars [] (Cursor.rest_step text)
      (show _ ≤ cur.rest.length by rw [text, List.length_cons]; exact Nat.le_succ _)
    refine ⟨after, ?_, behind⟩
    rw [text] at read
    unfold readValue
    dsimp only
    rw [Cursor.skipGap_of_not_gap text (by decide), text]
    show (readString _ [] cur.step >>= _) = _
    rw [read]
    rfl
  | .list items, fuel + 1, cur, text, enough => by
    rw [List.length_cons] at enough
    obtain ⟨after, read, behind⟩ :=
      readItems_of items fuel [] cur.step (Cursor.rest_step text) (by omega)
    refine ⟨after, ?_, behind⟩
    unfold readValue
    dsimp only
    rw [Cursor.skipGap_of_not_gap text (by decide), text]
    show (readItems fuel _ true [] cur.step >>= _) = _
    rw [read]
    rfl
  | .object members, fuel + 1, cur, text, enough => by
    rw [List.length_cons] at enough
    obtain ⟨after, read, behind⟩ :=
      readMembers_of members fuel [] cur.step (Cursor.rest_step text) (by omega)
    refine ⟨after, ?_, behind⟩
    unfold readValue
    dsimp only
    rw [Cursor.skipGap_of_not_gap text (by decide), text]
    show (readMembers fuel _ true [] cur.step >>= _) = _
    rw [read]
    rfl

theorem readItems_of {d : Nat} {first : Bool} {cs : List Char} {xs : List Json} {rest : List Char} :
    Items d first cs xs rest → ∀ (fuel : Nat) (acc : List Json) (cur : Cursor), cur.rest = cs →
      3 * cs.length + 3 ≤ fuel →
      ∃ after, readItems fuel d first acc cur = .ok (acc.reverse ++ xs, after) ∧ after.rest = rest
  | .gap blank h, fuel + 1, acc, cur, text, enough => by
    rw [readItems_congr (Cursor.skipGap_of_gap text blank)]
    rw [List.length_cons] at enough
    exact readItems_of h (fuel + 1) acc cur.step (Cursor.rest_step text) (by omega)
  | .close, fuel + 1, acc, cur, text, _ => by
    refine ⟨cur.step, ?_, Cursor.rest_step text⟩
    unfold readItems
    dsimp only
    rw [Cursor.skipGap_of_not_gap text (by decide), text, List.append_nil]
    rfl
  | .head (x := x) value items, fuel + 2, acc, cur, text, enough => by
    obtain ⟨mid, read, behind⟩ := readValue_of value (fuel + 1) cur text (by omega)
    have shorter := value.shorter
    obtain ⟨after, others, behind'⟩ := readItems_of items (fuel + 1) (x :: acc) mid behind (by omega)
    refine ⟨after, ?_, behind'⟩
    obtain ⟨some, inner⟩ := starts_of_readValue read
    unfold readItems
    dsimp only
    split
    · next empty => exact absurd empty some
    · next closing => exact absurd closing (inner _)
    · rw [if_pos rfl, readValue_congr (Cursor.skipGap_skipGap cur), read]
      show readItems (fuel + 1) d false (x :: acc) mid = _
      rw [others]
      simp
  | .next (x := x) value items, fuel + 2, acc, cur, text, enough => by
    rw [List.length_cons] at enough
    have shorter := value.shorter
    obtain ⟨mid, read, behind⟩ :=
      readValue_of value (fuel + 1) cur.step (Cursor.rest_step text) (by omega)
    obtain ⟨after, others, behind'⟩ := readItems_of items (fuel + 1) (x :: acc) mid behind (by omega)
    refine ⟨after, ?_, behind'⟩
    obtain ⟨some, inner⟩ := starts_of_readValue read
    unfold readItems
    dsimp only
    rw [Cursor.skipGap_of_not_gap text (by decide), text]
    show (match cur.step.skipGap.rest with
      | [] => _
      | ']' :: _ => _
      | _ => _) = _
    split
    · next empty => exact absurd empty some
    · next closing => exact absurd closing (inner _)
    · rw [readValue_congr (Cursor.skipGap_skipGap cur.step), read]
      show readItems (fuel + 1) d false (x :: acc) mid = _
      rw [others]
      simp

theorem readMembers_of {d : Nat} {first : Bool} {cs : List Char} {ms : List (String × Json)}
    {rest : List Char} : Members d first cs ms rest →
      ∀ (fuel : Nat) (acc : List (String × Json)) (cur : Cursor), cur.rest = cs →
      3 * cs.length + 3 ≤ fuel →
      ∃ after, readMembers fuel d first acc cur = .ok (insertAll ms acc, after) ∧ after.rest = rest
  | .gap blank h, fuel + 1, acc, cur, text, enough => by
    rw [readMembers_congr (Cursor.skipGap_of_gap text blank)]
    rw [List.length_cons] at enough
    exact readMembers_of h (fuel + 1) acc cur.step (Cursor.rest_step text) (by omega)
  | .close, fuel + 1, acc, cur, text, _ => by
    refine ⟨cur.step, ?_, Cursor.rest_step text⟩
    unfold readMembers
    dsimp only
    rw [Cursor.skipGap_of_not_gap text (by decide), text]
    rfl
  | .head member members, fuel + 2, acc, cur, text, enough => by
    rw [List.length_cons] at enough
    have shorter := member.shorter
    obtain ⟨after, read, behind⟩ := readMember_of member fuel acc cur.step (Cursor.rest_step text)
      (by omega) fun acc mid place => readMembers_of members fuel acc mid place (by omega)
    refine ⟨after, ?_, behind⟩
    unfold readMembers
    dsimp only
    rw [Cursor.skipGap_of_not_gap text (by decide), text]
    exact read
  | .next quote member members, fuel + 2, acc, cur, text, enough => by
    rw [List.length_cons] at enough
    have shorter := member.shorter
    have shorter' := quote.shorter
    have marked := rest_skipGap_of_mark (by decide) quote (Cursor.rest_step text)
    obtain ⟨after, read, behind⟩ := readMember_of member fuel acc cur.step.skipGap.step
      (Cursor.rest_step marked) (by omega)
      fun acc mid place => readMembers_of members fuel acc mid place (by omega)
    refine ⟨after, ?_, behind⟩
    unfold readMembers
    dsimp only
    rw [Cursor.skipGap_of_not_gap text (by decide), text]
    show (match cur.step.skipGap.rest with
      | [] => _
      | '"' :: _ => _
      | '\x7d' :: _ => _
      | _ => _) = _
    rw [marked]
    exact read

theorem readMember_of {d : Nat} {cs : List Char} {m : String × Json} {mid : List Char} :
    Member d cs m mid → ∀ (fuel : Nat) (acc : List (String × Json)) (cur : Cursor), cur.rest = cs →
      3 * cs.length + 3 ≤ fuel + 1 → ∀ {ms : List (String × Json)} {rest : List Char},
      (∀ (acc : List (String × Json)) (cur : Cursor), cur.rest = mid →
        ∃ after, readMembers fuel d false acc cur = .ok (insertAll ms acc, after) ∧ after.rest = rest) →
      ∃ after, readMember (fuel + 1) d acc cur = .ok (insertAll (m :: ms) acc, after) ∧ after.rest = rest
  | .mk key colon value, fuel, acc, cur, text, enough, ms, rest, members => by
    have shorter := key.shorter
    have shorter' := colon.shorter
    have ready : cs.length ≤ cur.rest.length + 1 := by
      rw [text]
      exact Nat.le_succ _
    obtain ⟨cur', read, behind⟩ := readString_of key [] text ready
    have marked := rest_skipGap_of_mark (by decide) colon behind
    obtain ⟨mid', read', behind'⟩ :=
      readValue_of value fuel cur'.skipGap.step (Cursor.rest_step marked) (by omega)
    obtain ⟨after, others, place⟩ := members _ mid' behind'
    refine ⟨after, ?_, place⟩
    unfold readMember
    rw [read]
    show (match cur'.skipGap.rest with
      | [] => _
      | ':' :: _ => _
      | _ => _) = _
    rw [marked]
    show (readValue fuel d cur'.skipGap.step >>= _) = _
    rw [read']
    exact others

end

/-- The reader accepts exactly the texts of the grammar. -/
theorem parse_eq_ok_iff {cs : List Char} {j : Json} : parse cs = .ok j ↔ Grammar.Text cs j := by
  constructor
  · intro h
    unfold parse at h
    obtain ⟨⟨j', mid⟩, read, h⟩ := exists_of_bind h
    dsimp only at h
    split at h
    · next done =>
      obtain rfl := Except.ok.inj h
      refine ⟨mid.rest, (Sound.all _).value read, fun c among => ?_⟩
      rw [Cursor.rest_skipGap, List.dropWhile_eq_nil_iff] at done
      exact done c among
    · exact absurd h Cursor.failAhead_ne_ok
  · rintro ⟨rest, value, blank⟩
    obtain ⟨mid, read, behind⟩ := readValue_of value (3 * cs.length + 3) ⟨cs, 1, 0⟩ rfl (by omega)
    have done : mid.skipGap.rest = [] := by
      rw [Cursor.rest_skipGap, behind, List.dropWhile_eq_nil_iff]
      exact blank
    unfold parse
    rw [read]
    simp only [bind, Except.bind, done]
    rfl

end Stencil.Json
