import Stencil.Proofs.Extraction.Standing
import Stencil.Proofs.Extraction.Substitution
import Stencil.Proofs.Json.Lexis

/-!
# Quoted pairs of JSON

The scan for quoted pairs knows nothing of strings, and it can take the text between two strings for a
value. But such a text has a comma or a bracket, or nothing but blanks, colons and braces, and so is none
that depends on the place of use. Every other value that the scan finds is the whole inside of a member's
string (`slot_of_mem_candidates`).
-/

namespace Stencil.Extraction

open Json Json.Lexis

/-! ### Texts between strings -/

theorem run_astray (w : List Char) : w.foldl Lexis.next astray = astray := by
  induction w with
  | nil => rfl
  | cons c w ih => exact ih

theorem straight_of_append {s : Lexis} {w v : List Char} (h : (w ++ v).foldl Lexis.next s ≠ astray) :
    w.foldl Lexis.next s ≠ astray := by
  intro lost
  rw [List.foldl_append, lost, run_astray] at h
  exact h rfl

theorem comma_of_run_ended {w : List Char} (none : '"' ∉ w)
    (opens : (w.foldl Lexis.next ended).next '"' ≠ astray) : ',' ∈ w := by
  induction w with
  | nil => exact absurd rfl opens
  | cons c w ih =>
    rw [List.mem_cons, not_or] at none
    by_cases comma : c = ','
    · exact comma ▸ List.mem_cons_self
    · rw [List.foldl_cons, next_ended comma (Ne.symm none.1)] at opens
      exact List.mem_cons_of_mem c (ih none.2 opens)

theorem run_brace {w : List Char} (none : '"' ∉ w)
    (opens : (w.foldl Lexis.next brace).next '"' ≠ astray) :
    ',' ∈ w ∨ ∀ c ∈ w, Cursor.isGap c = true := by
  induction w with
  | nil => exact .inr (by simp)
  | cons c w ih =>
    rw [List.mem_cons, not_or] at none
    rw [List.foldl_cons] at opens
    by_cases blank : Cursor.isGap c = true
    · rw [next, if_neg (Ne.symm none.1), if_pos blank] at opens
      rcases ih none.2 opens with comma | gaps
      · exact .inl (List.mem_cons_of_mem c comma)
      · exact .inr (List.forall_mem_cons.2 ⟨blank, gaps⟩)
    · rw [next, if_neg (Ne.symm none.1), if_neg blank] at opens
      exact .inl (List.mem_cons_of_mem c (comma_of_run_ended none.2 opens))

theorem run_colon {w : List Char} (none : '"' ∉ w)
    (opens : (w.foldl Lexis.next colon).next '"' ≠ astray) :
    (',' ∈ w ∨ '[' ∈ w) ∨ ∀ c ∈ w, Cursor.isGap c = true ∨ c = '\x7b' := by
  induction w with
  | nil => exact .inr (by simp)
  | cons c w ih =>
    rw [List.mem_cons, not_or] at none
    rw [List.foldl_cons, next, if_neg (Ne.symm none.1)] at opens
    split at opens
    · next blank =>
      rcases ih none.2 opens with (comma | bracket) | gaps
      · exact .inl (.inl (List.mem_cons_of_mem c comma))
      · exact .inl (.inr (List.mem_cons_of_mem c bracket))
      · exact .inr (List.forall_mem_cons.2 ⟨.inl blank, gaps⟩)
    · split at opens
      · next brace =>
        rcases run_brace none.2 opens with comma | gaps
        · exact .inl (.inl (List.mem_cons_of_mem c comma))
        · exact .inr (List.forall_mem_cons.2 ⟨.inr brace, fun d among => .inl (gaps d among)⟩)
      · split at opens
        · next bracket => exact .inl (.inr (bracket ▸ List.mem_cons_self))
        · exact .inl (.inl (List.mem_cons_of_mem c (comma_of_run_ended none.2 opens)))

/-- A text between two strings: it begins with a mark, and it has a comma or a bracket, or nothing but
blanks, colons and braces. -/
def IsBetween (w : List Char) : Prop :=
  ∃ blanks mark rest, w = blanks ++ mark :: rest ∧ (∀ c ∈ blanks, Cursor.isGap c = true) ∧
    (mark = ':' ∨ mark = ',' ∨ mark = ']' ∨ mark = '\x7d') ∧
    ((',' ∈ w ∨ '[' ∈ w) ∨ ∀ c ∈ w, Cursor.isGap c = true ∨ c = ':' ∨ c = '\x7b')

theorem isBetween_of_run {w : List Char} (none : '"' ∉ w)
    (opens : (w.foldl Lexis.next closed).next '"' ≠ astray) : IsBetween w := by
  induction w with
  | nil => exact absurd rfl opens
  | cons c w ih =>
    rw [List.mem_cons, not_or] at none
    rw [List.foldl_cons, next] at opens
    split at opens
    · next blank =>
      obtain ⟨blanks, mark, rest, rfl, gaps, known, shape⟩ := ih none.2 opens
      refine ⟨c :: blanks, mark, rest, rfl, List.forall_mem_cons.2 ⟨blank, gaps⟩, known, ?_⟩
      rcases shape with (comma | bracket) | only
      · exact .inl (.inl (List.mem_cons_of_mem c comma))
      · exact .inl (.inr (List.mem_cons_of_mem c bracket))
      · exact .inr (List.forall_mem_cons.2 ⟨.inl blank, only⟩)
    · split at opens
      · next separator =>
        refine ⟨[], c, w, rfl, by simp, .inl separator, ?_⟩
        rcases run_colon none.2 opens with (comma | bracket) | only
        · exact .inl (.inl (List.mem_cons_of_mem c comma))
        · exact .inl (.inr (List.mem_cons_of_mem c bracket))
        · exact .inr (List.forall_mem_cons.2 ⟨.inr (.inl separator), fun d among =>
            (only d among).imp_right .inr⟩)
      · split at opens
        · next comma =>
          exact ⟨[], c, w, rfl, by simp, .inr (.inl comma), .inl (.inl (comma ▸ List.mem_cons_self))⟩
        · split at opens
          · next closing =>
            exact ⟨[], c, w, rfl, by simp, .inr (.inr closing),
              .inl (.inl (List.mem_cons_of_mem c (comma_of_run_ended none.2 opens)))⟩
          · exact absurd (by rw [run_astray]; rfl) opens

theorem isBlank_of_isGap {c : Char} (gap : Cursor.isGap c = true) : Text.isBlank c = true := by
  simp only [Cursor.isGap, Bool.or_eq_true, beq_iff_eq] at gap
  rcases gap with ((rfl | rfl) | rfl) | rfl <;> decide

theorem dropWhile_append_of_not {p : Char → Bool} {mark : Char} (stop : p mark = false) (cs tail : List Char) :
    (cs ++ mark :: tail).dropWhile p = cs.dropWhile p ++ mark :: tail := by
  induction cs with
  | nil => simp [stop]
  | cons c cs ih =>
    rw [List.cons_append, List.dropWhile_cons, List.dropWhile_cons, ih]
    split <;> rfl

theorem mem_dropWhile_of_not {p : Char → Bool} {c : Char} {cs : List Char} (among : c ∈ cs)
    (stop : p c = false) : c ∈ cs.dropWhile p := by
  rw [← List.takeWhile_append_dropWhile (p := p) (l := cs)] at among
  rcases List.mem_append.1 among with front | behind
  · rw [List.mem_takeWhile_imp front] at stop
    cases stop
  · exact behind

/-- Trimmed, a text begins with its first character that is no blank, and it keeps the others. -/
theorem exists_of_trim {blanks : List Char} {mark : Char} (rest : List Char)
    (gaps : ∀ c ∈ blanks, Text.isBlank c = true) (shown : Text.isBlank mark = false) :
    ∃ tail, Text.trim (blanks ++ mark :: rest) = mark :: tail ∧ (∀ c ∈ tail, c ∈ rest) ∧
      ∀ c ∈ rest, Text.isBlank c = false → c ∈ tail := by
  refine ⟨(rest.reverse.dropWhile Text.isBlank).reverse, ?_, ?_, ?_⟩
  · unfold Text.trim Text.trimStart Text.trimEnd
    rw [dropWhile_append_of_not shown, List.dropWhile_eq_nil_iff.2 gaps, List.nil_append,
      List.reverse_cons, dropWhile_append_of_not shown, List.reverse_append]
    rfl
  · intro c among
    rw [List.mem_reverse] at among
    exact List.mem_reverse.1 ((List.dropWhile_sublist _).subset among)
  · intro c among solid
    rw [List.mem_reverse]
    exact mem_dropWhile_of_not (List.mem_reverse.2 among) solid

theorem not_environment_of_mark {mark : Char} (known : mark = ':' ∨ mark = ',' ∨ mark = ']' ∨ mark = '\x7d')
    (tail : List Char) :
    environmentNames.contains (String.ofList (Text.asciiLower (mark :: tail))) = false := by
  have begins : ∀ name ∈ environmentNames, ∀ c ∈ [':', ',', ']', '\x7d'], name.toList.head? ≠ some c := by
    simp [environmentNames]
  have head : mark.toLower = mark := by
    rcases known with rfl | rfl | rfl | rfl <;> decide
  rw [Bool.eq_false_iff]
  intro among
  refine begins _ (List.contains_iff_mem.1 among) mark ?_ ?_
  · simpa using known
  · rw [String.toList_ofList, Text.asciiLower, List.map_cons, head, List.head?_cons]

theorem isPathLike_of_foreign {cs : List Char} (foreign : ',' ∈ cs ∨ '[' ∈ cs) : isPathLike cs = false := by
  have held : cs.any isForeignToPaths = true := by
    rw [List.any_eq_true]
    rcases foreign with comma | bracket
    · exact ⟨',', comma, by decide⟩
    · exact ⟨'[', bracket, by decide⟩
  simp [isPathLike, held]

theorem isPathLike_of_bare {cs : List Char} (bare : ∀ c ∈ cs, c ≠ '/' ∧ c ≠ '\\' ∧ c ≠ '.') :
    isPathLike cs = false := by
  have separators : cs.any (fun c => c == '/' || c == '\\') = false := by
    rw [List.any_eq_false]
    intro c among
    simp [(bare c among).1, (bare c among).2.1]
  have extension : hasDataExtension cs = false := by
    have none : cs.reverse.dropWhile (· != '.') = [] := by
      rw [List.dropWhile_eq_nil_iff]
      intro c among
      simp [(bare c (List.mem_reverse.1 among)).2.2]
    rw [hasDataExtension, none]
  simp only [isPathLike, separators, extension, Bool.false_and, Bool.or_false, Bool.and_false]

/-- A text between two strings depends on nothing. -/
theorem classify_of_isBetween {w : List Char} (between : IsBetween w) : classify w = none := by
  obtain ⟨blanks, mark, rest, rfl, gaps, known, shape⟩ := between
  have shown : Text.isBlank mark = false := by
    rcases known with rfl | rfl | rfl | rfl <;> decide
  have blank : ∀ c ∈ blanks, Text.isBlank c = true := fun c among => isBlank_of_isGap (gaps c among)
  obtain ⟨tail, trimmed, fewer, kept⟩ := exists_of_trim rest blank shown
  have version : isVersion (mark :: tail) = false := by
    rcases known with rfl | rfl | rfl | rfl <;> rfl
  have path : isPathLike (mark :: tail) = false := by
    rcases shape with foreign | only
    · have keeps : ∀ c, Text.isBlank c = false → c ∈ blanks ++ mark :: rest → c ∈ mark :: tail := by
        intro c solid among
        rcases List.mem_append.1 among with front | behind
        · rw [blank c front] at solid
          cases solid
        · rcases List.mem_cons.1 behind with rfl | later
          · exact List.mem_cons_self
          · exact List.mem_cons_of_mem _ (kept c later solid)
      exact isPathLike_of_foreign (foreign.imp (keeps ',' (by decide)) (keeps '[' (by decide)))
    · refine isPathLike_of_bare fun c among => ?_
      have whole : c ∈ blanks ++ mark :: rest := by
        refine List.mem_append_right _ ?_
        rcases List.mem_cons.1 among with rfl | later
        · exact List.mem_cons_self
        · exact List.mem_cons_of_mem _ (fewer c later)
      rcases only c whole with gap | rfl | rfl
      · refine ⟨?_, ?_, ?_⟩ <;> rintro rfl <;> exact absurd gap (by decide)
      · decide
      · decide
  unfold classify
  dsimp only
  rw [trimmed, not_environment_of_mark known, version, path]
  rfl

/-! ### Quoted pairs -/

theorem run_blanks_closed {blanks : List Char} (all : ∀ c ∈ blanks, Text.isBlank c = true)
    (straight : blanks.foldl Lexis.next closed ≠ astray) : blanks.foldl Lexis.next closed = closed := by
  induction blanks with
  | nil => rfl
  | cons c blanks ih =>
    obtain ⟨blank, others⟩ := List.forall_mem_cons.1 all
    have step : closed.next c = closed ∨ closed.next c = astray := by
      rw [next]
      split
      · exact .inl rfl
      · rw [if_neg (by rintro rfl; exact absurd blank (by decide)),
          if_neg (by rintro rfl; exact absurd blank (by decide)),
          if_neg (by rintro (rfl | rfl) <;> exact absurd blank (by decide))]
        exact .inr rfl
    rw [List.foldl_cons] at straight ⊢
    rcases step with same | lost
    · rw [same] at straight ⊢
      exact ih others straight
    · rw [lost, run_astray] at straight
      exact absurd rfl straight

theorem run_blanks_colon {blanks : List Char} (all : ∀ c ∈ blanks, Text.isBlank c = true)
    (opens : (blanks.foldl Lexis.next colon).next '"' ≠ astray) :
    blanks.foldl Lexis.next colon = colon := by
  have plain : ∀ d, Text.isBlank d = false → d ∉ blanks := by
    intro d solid among
    rw [all d among] at solid
    cases solid
  have none := plain '"' (by decide)
  rcases run_colon none opens with (comma | bracket) | only
  · exact absurd comma (plain ',' (by decide))
  · exact absurd bracket (plain '[' (by decide))
  · clear opens none plain
    induction blanks with
    | nil => rfl
    | cons c blanks ih =>
      obtain ⟨blank, others⟩ := List.forall_mem_cons.1 all
      obtain ⟨gap, only⟩ := List.forall_mem_cons.1 only
      have isGap : Cursor.isGap c = true := by
        rcases gap with gap | rfl
        · exact gap
        · exact absurd blank (by decide)
      rw [List.foldl_cons, next_gap (s := colon) trivial (by decide) isGap]
      exact ih others only

theorem next_quote (s : Lexis) :
    (∃ v, s.next '"' = opened v ∨ s.next '"' = inside v) ∨ s.next '"' = closed ∨ s.next '"' = astray := by
  cases s with
  | free => exact .inl ⟨false, .inl rfl⟩
  | closed => exact .inr (.inr rfl)
  | colon => exact .inl ⟨true, .inl rfl⟩
  | brace => exact .inl ⟨false, .inl rfl⟩
  | ended => exact .inr (.inr rfl)
  | opened v => exact .inr (.inl rfl)
  | inside v => exact .inr (.inl rfl)
  | escaped v => exact .inl ⟨v, .inr rfl⟩
  | astray => exact .inr (.inr rfl)

theorem isOutside_run {s : Lexis} (outside : s.IsOutside) {w : List Char} (none : '"' ∉ w) :
    (w.foldl Lexis.next s).IsOutside := by
  induction w generalizing s with
  | nil => exact outside
  | cons c w ih =>
    rw [List.mem_cons, not_or] at none
    exact ih (isOutside_next outside (Ne.symm none.1)) none.2

theorem Unmarked.not_mem {cs : List Char} (h : Unmarked cs) : '"' ∉ cs := fun among =>
  (h '"' among).1 rfl

theorem unmarked_of_isBlank {blanks : List Char} (all : ∀ c ∈ blanks, Text.isBlank c = true) :
    Unmarked blanks := by
  intro c among
  constructor <;> rintro rfl <;> exact absurd (all _ among) (by decide)

theorem next_quote_of_isOutside {s : Lexis} (outside : s.IsOutside) (opens : s.next '"' ≠ astray) :
    ∃ v, s.next '"' = opened v := by
  cases s with
  | free => exact ⟨false, rfl⟩
  | colon => exact ⟨true, rfl⟩
  | brace => exact ⟨false, rfl⟩
  | closed | ended | astray => exact absurd rfl opens
  | opened v | inside v | escaped v => exact outside.elim

section Pair

variable {s : Lexis} {key blanks blanks' value : List Char}

/-- When the first quote of a pair opens a string, the string is the key, and the value is a string too. -/
theorem opened_of_key {v : Bool} (at_ : s = opened v ∨ s = inside v) (some : key ≠ []) (plain : Unmarked key)
    (all : ∀ c ∈ blanks, Text.isBlank c = true) (all' : ∀ c ∈ blanks', Text.isBlank c = true)
    (straight : (key ++ '"' :: (blanks ++ ':' :: (blanks' ++ ['"']))).foldl Lexis.next s ≠ astray) :
    (key ++ '"' :: (blanks ++ ':' :: (blanks' ++ ['"']))).foldl Lexis.next s = opened true := by
  have quote : (inside v).next '"' = closed := rfl
  have colon_ : closed.next ':' = colon := rfl
  rw [List.foldl_append, run_plain at_ plain some, List.foldl_cons, quote, List.foldl_append] at straight ⊢
  have shut : blanks.foldl Lexis.next closed = closed := by
    refine run_blanks_closed all fun lost => straight ?_
    rw [lost, run_astray]
  rw [shut, List.foldl_cons, colon_, List.foldl_append] at straight ⊢
  rw [run_blanks_colon all' straight]
  rfl

/-- When the first quote of a pair closes a string, the key is between two strings and so is the value. -/
theorem isBetween_of_closed (plainKey : Unmarked key) (plain : Unmarked value)
    (all : ∀ c ∈ blanks, Text.isBlank c = true) (all' : ∀ c ∈ blanks', Text.isBlank c = true)
    (straight : (key ++ '"' :: (blanks ++ ':' :: (blanks' ++ '"' :: (value ++ ['"'])))).foldl Lexis.next
      closed ≠ astray) : IsBetween value := by
  have outside : (key.foldl Lexis.next closed).IsOutside :=
    isOutside_run (s := closed) trivial plainKey.not_mem
  rw [List.foldl_append, List.foldl_cons] at straight
  obtain ⟨v, opens⟩ : ∃ v, (key.foldl Lexis.next closed).next '"' = opened v := by
    refine next_quote_of_isOutside outside fun lost => straight ?_
    rw [lost, run_astray]
  have string : Unmarked (blanks ++ ':' :: blanks') := by
    intro c among
    rcases List.mem_append.1 among with front | behind
    · exact unmarked_of_isBlank all c front
    · rcases List.mem_cons.1 behind with rfl | later
      · decide
      · exact unmarked_of_isBlank all' c later
  have parts : blanks ++ ':' :: (blanks' ++ '"' :: (value ++ ['"'])) =
      (blanks ++ ':' :: blanks') ++ '"' :: (value ++ ['"']) := by simp
  have quote : (inside v).next '"' = closed := rfl
  rw [opens, parts, List.foldl_append, run_plain (.inl rfl) string (by simp), List.foldl_cons, quote,
    List.foldl_append] at straight
  exact isBetween_of_run plain.not_mem straight

end Pair

/-- A quoted pair in a text of JSON: its value is the inside of a member's string, unless it is a text
between two strings. -/
theorem slot_of_quotedIn {s : Lexis} {p : Pair} {front line back : List Char}
    (quoted : p.QuotedIn front line) (depends : classify p.value ≠ none)
    (straight : (line ++ back).foldl Lexis.next s ≠ astray) :
    ∃ before after, line = before ++ (p.value ++ after) ∧ p.offset = Text.byteSize before ∧
      Slot (before.foldl Lexis.next s) p.value (after ++ back) := by
  obtain ⟨blanks, blanks', tail, rfl, place, some, plainKey, plain, all, all'⟩ := quoted
  refine ⟨_, '"' :: tail, rfl, place, ?_⟩
  have held : p.value ≠ [] := by
    intro empty
    rw [empty] at depends
    exact depends rfl
  refine ⟨?_, held, plain, tail ++ back, rfl⟩
  have parts : ((front ++ '"' :: (p.key ++ '"' :: (blanks ++ ':' :: (blanks' ++ ['"'])))) ++
      (p.value ++ '"' :: tail)) ++ back = front ++ '"' ::
        ((p.key ++ '"' :: (blanks ++ ':' :: (blanks' ++ '"' :: (p.value ++ ['"'])))) ++ (tail ++ back)) := by
    simp
  rw [parts, List.foldl_append, List.foldl_cons] at straight
  rw [List.foldl_append, List.foldl_cons]
  have pair := straight_of_append straight
  generalize front.foldl Lexis.next s = t at pair ⊢
  rcases next_quote t with ⟨v, opens⟩ | closes | lost
  · have key : p.key ++ '"' :: (blanks ++ ':' :: (blanks' ++ '"' :: (p.value ++ ['"']))) =
        (p.key ++ '"' :: (blanks ++ ':' :: (blanks' ++ ['"']))) ++ (p.value ++ ['"']) := by simp
    rw [key] at pair
    exact opened_of_key opens some plainKey all all' (straight_of_append pair)
  · rw [closes] at pair
    exact absurd (classify_of_isBetween (isBetween_of_closed plainKey plain all all' pair)) depends
  · rw [lost, run_astray] at pair
    exact absurd rfl pair

/-- Where a candidate of a text of JSON stands, the text has the inside of a member's string. -/
theorem slot_of_mem_candidates [Libraries] {cs : List Char} {j : Json} (parsed : Json.parse cs = .ok j)
    {c : Candidate} (h : c ∈ candidates (.config .json) cs) {front back : List Char}
    (whole : cs = front ++ (c.value ++ back)) (place : c.start = Text.byteSize front) :
    Slot (front.foldl Lexis.next free) c.value back := by
  have straight := run_text (parse_eq_ok_iff.1 parsed)
  obtain ⟨done, body, after, rfl, -, -, p, pair, start, value, depends⟩ := exists_body_of_mem_candidates h
  obtain ⟨key, quoted⟩ := quotedIn_of_mem_quotedPairs [] pair
  rw [value] at depends
  rw [List.foldl_append] at straight
  obtain ⟨before, behind, split, offset, slot⟩ := slot_of_quotedIn quoted depends straight
  rw [List.nil_append] at split
  have same : (done ++ before) ++ (c.value ++ (behind ++ after)) = front ++ (c.value ++ back) := by
    rw [← whole, value, split]
    simp
  have size : Text.byteSize (done ++ before) = Text.byteSize front := by
    rw [Text.byteSize_append, ← offset, ← start, place]
  obtain ⟨rfl, rest⟩ := Text.append_inj_of_byteSize same size
  rw [List.foldl_append, value, ← List.append_cancel_left rest]
  exact slot

/-- In a file of JSON every candidate is the inside of a member's string: whatever plain text is put there,
the file is JSON with that string exchanged. And a template of the file, rendered for an environment without
rules whose values are plain, is JSON of the same shape that differs in strings only. -/
theorem parse_of_render_json [Libraries] {artifact : Artifact} (kind : artifact.kind = .config .json) {j : Json}
    (parsed : Json.parse artifact.content.toList = .ok j) :
    (∀ c ∈ candidates artifact.kind artifact.content.toList, ∃ front back,
      artifact.content.toList = front ++ (c.value ++ back) ∧ c.start = Text.byteSize front ∧
        Slot (front.foldl Lexis.next free) c.value back ∧
        ∀ put, Plain put → ∃ j', Json.parse (front ++ (put ++ back)) = .ok j' ∧
          Reworded (fun old new => old = c.value ∧ new = put) j j') ∧
    ∀ {p : Policy} {a : Analysis} {newId : Identifier} {now : Instant} {t : Template} {e : Environment},
      extract p a artifact newId now = .ok (some t) → e.rules = [] →
      (∀ name bound, e.binding? name = some bound → Plain bound.toList) →
      ∃ r j', t.render e = .ok r ∧ Json.parse r.content.toList = .ok j' ∧ Reworded e.Puts j j' ∧
        j.documentOf.SameShape j'.documentOf := by
  have text := parse_eq_ok_iff.1 parsed
  have stands : ∀ c ∈ candidates artifact.kind artifact.content.toList,
      Stands artifact.content.toList c.start c.value := by
    intro c among
    rw [kind] at among
    exact stands_of_config among
  have slots : ∀ c ∈ candidates artifact.kind artifact.content.toList, ∀ front back,
      artifact.content.toList = front ++ (c.value ++ back) → c.start = Text.byteSize front →
      Slot (front.foldl Lexis.next free) c.value back := by
    intro c among front back whole place
    rw [kind] at among
    exact slot_of_mem_candidates parsed among whole place
  constructor
  · intro c among
    obtain ⟨front, back, whole, place, -⟩ := stands c among
    have slot := slots c among front back whole place
    refine ⟨front, back, whole, place, slot, fun put plain => ?_⟩
    have exchanged : Exchanged (fun old new => old = c.value ∧ new = put) free
        artifact.content.toList (front ++ (put ++ back)) := by
      rw [whole]
      exact (Exchange.value slot ⟨rfl, rfl⟩ (.refl _ back)).append front
    have fits : Fits fun old new => old = c.value ∧ new = put := by
      rintro _ _ - ⟨-, rfl⟩
      exact plain
    obtain ⟨j', text', reworded⟩ := exists_text fits text exchanged
    exact ⟨j', parse_eq_ok_iff.2 text', reworded⟩
  · intro p a newId now t e extracted rules plain
    obtain ⟨out, rendered, exchanged⟩ := exchange_of_extract Lexis.next Slot extracted rules free stands slots
    have fits : Fits e.Puts := by
      rintro old _ kept (rfl | ⟨name, bound, found, rfl⟩)
      · exact kept
      · exact plain name bound found
    obtain ⟨j', text', reworded⟩ := exists_text fits text exchanged
    refine ⟨_, j', rendered, ?_, reworded, reworded.sameShape⟩
    rw [String.toList_ofList]
    exact parse_eq_ok_iff.2 text'

/-- A file of JSON with a colon for a key and for a value, a string with escaped quotes around a colon, and
a path. -/
def quotingMembers : Artifact :=
  { path := ⟨"site.json"⟩
    content := "\x7b\":\": \":\", \"note\": \"a \\\": \\\"b/c\", \"root\": \"data/in\"\x7d\n"
    kind := .config .json }

/-- An environment that puts marks of JSON for the path. -/
def punctuating : Environment :=
  { name := "prod", bindings := .ofList [("root", "],\x7d: [")] }

open Readers in
theorem parse_of_render_json_quotingMembers :
    ∃ j a t r j', Json.parse quotingMembers.content.toList = .ok j ∧
      Inspection.analyze {} quotingMembers = .ok a ∧
      extract { threshold := 0, checks := 0 } a quotingMembers default default = .ok (some t) ∧
      t.render punctuating = .ok r ∧ Json.parse r.content.toList = .ok j' ∧
      j.documentOf.SameShape j'.documentOf := by
  have plain : ∀ name bound, punctuating.binding? name = some bound → Plain bound.toList := by
    intro name bound found
    have only : ∀ v ∈ punctuating.bindings.values, ∀ c ∈ v.toList,
        c ≠ '"' ∧ c ≠ '\\' ∧ 0x20 ≤ c.toNat := by
      have values : punctuating.bindings.values = ["],\x7d: ["] := by decide +kernel
      rw [values]
      simp
    exact only bound (SortedMap.mem_values_of_get? found)
  obtain ⟨j, parsed⟩ : ∃ j, Json.parse quotingMembers.content.toList = .ok j := by
    have reads : (Json.parse quotingMembers.content.toList).toOption.isSome = true := by decide +kernel
    cases found : Json.parse quotingMembers.content.toList with
    | error x =>
      rw [found] at reads
      cases reads
    | ok j => exact ⟨j, rfl⟩
  have kind : quotingMembers.kind = .config .json := rfl
  obtain ⟨a, analyzed, extracted⟩ := exists_extract {} { threshold := 0, checks := 0 } quotingMembers default
    default (by decide +kernel) (by decide +kernel) fun c among => stands_of_config among
  obtain ⟨r, j', rendered, parsed', -, shape⟩ :=
    (parse_of_render_json kind parsed).2 extracted (e := punctuating) rfl plain
  exact ⟨j, a, _, r, j', parsed, analyzed, extracted, rendered, parsed', shape⟩

end Stencil.Extraction
