import Mathlib.Data.Option.Basic
import Stencil.Extraction.Candidate
import Stencil.Proofs.Text.Lines

/-!
# Where candidates stand

Every candidate of a configuration stands in the text at its byte offset, behind a character that is
not a dollar: an equals sign, a blank or a quote. So whatever is escaped before a placeholder does not
end with a dollar, which would make an escape of the placeholder's own dollar.
-/

namespace Stencil.Extraction

/-- A value stands in a text at a byte offset, behind a character that is not a dollar. -/
def Stands (cs : List Char) (start : Nat) (value : List Char) : Prop :=
  ∃ front after, cs = front ++ (value ++ after) ∧ start = Text.byteSize front ∧
    ∃ last, front.getLast? = some last ∧ last ≠ '$'

namespace Stands

theorem within {cs value : List Char} {start : Nat} (h : Stands cs start value)
    (before behind : List Char) :
    Stands (before ++ (cs ++ behind)) (Text.byteSize before + start) value := by
  obtain ⟨front, after, rfl, rfl, last, ends, plain⟩ := h
  refine ⟨before ++ front, after ++ behind, by simp, by simp, last, ?_, plain⟩
  rw [List.getLast?_append, ends, Option.some_or]

theorem append {cs value : List Char} {start : Nat} (h : Stands cs start value)
    (behind : List Char) : Stands (cs ++ behind) start value := by
  simpa using h.within [] behind

theorem behind {cs value : List Char} {start : Nat} (h : Stands cs start value)
    (before : List Char) : Stands (before ++ cs) (Text.byteSize before + start) value := by
  simpa using h.within before []

theorem of_append {before value tail : List Char} {mark : Char} (plain : mark ≠ '$') :
    Stands (before ++ mark :: (value ++ tail)) (Text.byteSize before + mark.utf8Size) value :=
  ⟨before ++ [mark], tail, by simp, by simp, mark, by simp, plain⟩

end Stands

def Pair.StandsIn (p : Pair) (line : List Char) : Prop := Stands line p.offset p.value

/-! ### Pairs of a key and a value -/

/-- In a line the value of a pair lies behind a front, a key, blanks, the mark and spaces. -/
def Pair.LiesIn (mark : Char) (p : Pair) (front line : List Char) : Prop :=
  ∃ key blanks spaces tail,
    line = (front ++ (key ++ (blanks ++ mark :: spaces))) ++ (p.value ++ tail) ∧
    p.offset = Text.byteSize (front ++ (key ++ (blanks ++ mark :: spaces))) ∧ key ≠ [] ∧
    (∀ c ∈ key, isLineKeyChar c = true) ∧ (∀ c ∈ blanks, Text.isBlank c = true) ∧
    ∀ c ∈ spaces, isSpaceOrTab c = true

theorem liesIn_of_keyed? {mark : Char} {gap : Bool} {cs : List Char} {p : Pair}
    (h : keyed? mark gap cs = some p) : p.LiesIn mark [] cs := by
  unfold keyed? at h
  dsimp only at h
  split at h
  · next c rest found =>
    split at h
    · simp at h
    · next condition =>
      simp only [Bool.or_eq_true, not_or, bne_iff_ne, ne_eq, Decidable.not_not] at condition
      obtain ⟨⟨some, rfl⟩, -⟩ := condition
      obtain rfl := Option.some.inj h
      obtain ⟨tail, cut⟩ := Text.exists_append_dropEnd isSpaceOrTab (rest.dropWhile isSpaceOrTab)
      let key := cs.takeWhile isLineKeyChar
      let blanks := (cs.dropWhile isLineKeyChar).takeWhile Text.isBlank
      let spaces := rest.takeWhile isSpaceOrTab
      have parts : cs = (key ++ (blanks ++ c :: spaces)) ++ rest.dropWhile isSpaceOrTab := by
        have line : cs = key ++ cs.dropWhile isLineKeyChar := List.takeWhile_append_dropWhile.symm
        have trimmed : cs.dropWhile isLineKeyChar = blanks ++ c :: rest := by
          rw [← found]
          exact List.takeWhile_append_dropWhile.symm
        have value : rest = spaces ++ rest.dropWhile isSpaceOrTab :=
          List.takeWhile_append_dropWhile.symm
        rw [line, trimmed]
        simp only [List.append_assoc, List.cons_append]
        rw [← value]
      refine ⟨key, blanks, spaces, tail, ?_, ?_, ?_, ?_, ?_, ?_⟩
      · rw [List.nil_append, withoutTail, ← cut, ← parts]
      · have size := congrArg Text.byteSize parts
        rw [Text.byteSize_append] at size
        rw [List.nil_append]
        dsimp only
        omega
      · intro none
        exact some (by rw [show cs.takeWhile isLineKeyChar = [] from none]; rfl)
      · exact fun c among => List.mem_takeWhile_imp among
      · exact fun c among => List.mem_takeWhile_imp among
      · exact fun c among => List.mem_takeWhile_imp among
  · simp at h

theorem Pair.LiesIn.behind {mark : Char} {p : Pair} {front line : List Char}
    (h : p.LiesIn mark front line) (before : List Char) :
    Pair.LiesIn mark { p with offset := p.offset + Text.byteSize before } (before ++ front)
      (before ++ line) := by
  obtain ⟨key, blanks, spaces, tail, rfl, place, rest⟩ := h
  refine ⟨key, blanks, spaces, tail, by simp only [List.append_assoc], ?_, rest⟩
  dsimp only
  rw [place]
  simp only [Text.byteSize_append]
  omega

/-- A pair of a line lies behind blanks, or behind a word between blanks. -/
theorem liesIn_of_pairBehind? {word : List Char} {mark : Char} {gap : Bool} {line : List Char}
    {p : Pair} (h : pairBehind? word mark gap line = some p) :
    ∃ blanks between, (∀ c ∈ blanks, Text.isBlank c = true) ∧ (∀ c ∈ between, Text.isBlank c = true) ∧
      (p.LiesIn mark blanks line ∨ p.LiesIn mark (blanks ++ (word ++ between)) line) := by
  have shifted : ∀ (front : List Char) {rest : List Char} {q : Pair}, line = front ++ rest →
      keyed? mark gap rest = some q →
      Pair.LiesIn mark { q with offset := q.offset + (Text.byteSize line - Text.byteSize rest) } front
        line := by
    intro front rest q split found
    have lies := (liesIn_of_keyed? found).behind front
    have size : Text.byteSize line - Text.byteSize rest = Text.byteSize front := by
      rw [split, Text.byteSize_append, Nat.add_sub_cancel]
    rw [List.append_nil] at lies
    rw [size, split]
    exact lies
  have start : line = line.takeWhile Text.isBlank ++ Text.trimStart line :=
    List.takeWhile_append_dropWhile.symm
  unfold pairBehind? at h
  rw [Option.orElse_eq_orElse, Option.orElse_eq_or, Option.or_eq_some_iff] at h
  rcases h with behind | ⟨-, alone⟩
  · obtain ⟨rest, dropped, behind⟩ := Option.bind_eq_some_iff.1 behind
    obtain ⟨_, -, behind⟩ := Option.bind_eq_some_iff.1 behind
    obtain ⟨q, found, rfl⟩ := Option.map_eq_some_iff.1 behind
    have rest' : rest = rest.takeWhile Text.isBlank ++ Text.trimStart rest :=
      List.takeWhile_append_dropWhile.symm
    have front := Text.eq_append_of_dropPrefix? dropped
    refine ⟨line.takeWhile Text.isBlank, rest.takeWhile Text.isBlank,
      fun c among => List.mem_takeWhile_imp among, fun c among => List.mem_takeWhile_imp among,
      .inr (shifted _ ?_ found)⟩
    rw [List.append_assoc, List.append_assoc, ← rest', ← front, ← start]
  · obtain ⟨q, found, rfl⟩ := Option.map_eq_some_iff.1 alone
    exact ⟨line.takeWhile Text.isBlank, [], fun c among => List.mem_takeWhile_imp among, by simp,
      .inl (shifted _ start found)⟩

theorem Pair.LiesIn.standsIn {mark : Char} {p : Pair} {front line : List Char} (plain : mark ≠ '$')
    (h : p.LiesIn mark front line) : p.StandsIn line := by
  obtain ⟨key, blanks, spaces, tail, whole, place, -, -, -, space⟩ := h
  refine ⟨_, tail, whole, place, ?_⟩
  have ends := List.getLast?_eq_some_getLast (List.cons_ne_nil mark spaces)
  refine ⟨(mark :: spaces).getLast (List.cons_ne_nil mark spaces), ?_, ?_⟩
  · rw [← List.append_assoc, ← List.append_assoc, List.getLast?_append, ends, Option.some_or]
  · rcases List.mem_cons.1 (List.mem_of_getLast? ends) with same | among
    · rw [same]
      exact plain
    · have blank := space _ among
      intro dollar
      rw [dollar] at blank
      simp [isSpaceOrTab] at blank

theorem standsIn_of_pairBehind? {word : List Char} {mark : Char} {gap : Bool} {line : List Char}
    {p : Pair} (plain : mark ≠ '$') (h : pairBehind? word mark gap line = some p) :
    p.StandsIn line := by
  obtain ⟨_, _, -, -, lies | lies⟩ := liesIn_of_pairBehind? h <;> exact lies.standsIn plain

/-! ### Quoted pairs -/

/-- A text without quotes and backslashes. -/
def Unmarked (cs : List Char) : Prop := ∀ c ∈ cs, c ≠ '"' ∧ c ≠ '\\'

/-- In a line a quoted key lies behind a front, and behind a colon the quoted value. -/
def Pair.QuotedIn (p : Pair) (front line : List Char) : Prop :=
  ∃ blanks blanks' tail,
    line = (front ++ '"' :: (p.key ++ '"' :: (blanks ++ ':' :: (blanks' ++ ['"'])))) ++
      (p.value ++ '"' :: tail) ∧
    p.offset = Text.byteSize (front ++ '"' :: (p.key ++ '"' :: (blanks ++ ':' :: (blanks' ++ ['"'])))) ∧
    p.key ≠ [] ∧ Unmarked p.key ∧ Unmarked p.value ∧ (∀ c ∈ blanks, Text.isBlank c = true) ∧
    ∀ c ∈ blanks', Text.isBlank c = true

theorem Pair.QuotedIn.standsIn {p : Pair} {front line : List Char} (h : p.QuotedIn front line) :
    p.StandsIn line := by
  obtain ⟨blanks, blanks', tail, rfl, place, -⟩ := h
  refine ⟨_, '"' :: tail, rfl, place, '"', ?_, by decide⟩
  have last : ∀ cs : List Char, (cs ++ ['"']).getLast? = some '"' := fun cs => by simp
  simpa using last (front ++ '"' :: (p.key ++ '"' :: (blanks ++ ':' :: blanks')))

theorem Pair.QuotedIn.behind {p : Pair} {front line : List Char} (h : p.QuotedIn front line)
    (before : List Char) :
    Pair.QuotedIn { p with offset := Text.byteSize before + p.offset } (before ++ front)
      (before ++ line) := by
  obtain ⟨blanks, blanks', tail, rfl, place, facts⟩ := h
  refine ⟨blanks, blanks', tail, by simp, ?_, facts⟩
  simp only [place, Text.byteSize_append]
  omega

theorem eq_append_of_quotedText? {cs inner rest : List Char}
    (h : quotedText? cs = some (inner, rest)) : cs = inner ++ '"' :: rest ∧ Unmarked inner := by
  unfold quotedText? at h
  dsimp only at h
  split at h
  · next found =>
    simp only [Option.some.injEq, Prod.mk.injEq] at h
    obtain ⟨rfl, rfl⟩ := h
    have cut := List.prefix_iff_eq_append.1
      (List.takeWhile_prefix (fun c => c != '"' && c != '\\') (l := cs))
    refine ⟨by rw [← found, cut], fun c among => ?_⟩
    have plain := List.mem_takeWhile_imp among
    simpa using plain
  · simp at h

theorem quotedIn_of_quotedPair? {cs rest : List Char} {p : Pair}
    (h : quotedPair? cs = some (p, rest)) : p.QuotedIn [] cs := by
  unfold quotedPair? at h
  split at h
  · next cs =>
    obtain ⟨⟨key, behindKey⟩, quoted, h⟩ := Option.bind_eq_some_iff.1 h
    obtain ⟨_, some, h⟩ := Option.bind_eq_some_iff.1 h
    dsimp only at h
    split at h
    · next behindColon colon =>
      split at h
      · next behindQuote quote =>
        obtain ⟨⟨value, behindValue⟩, quoted', h⟩ := Option.bind_eq_some_iff.1 h
        simp only [Option.pure_def, Option.some.injEq, Prod.mk.injEq] at h
        obtain ⟨rfl, rfl⟩ := h
        obtain ⟨wholeKey, plainKey⟩ := eq_append_of_quotedText? quoted
        obtain ⟨wholeValue, plainValue⟩ := eq_append_of_quotedText? quoted'
        let blanks := behindKey.takeWhile Text.isBlank
        let blanks' := behindColon.takeWhile Text.isBlank
        have split : behindKey = blanks ++ ':' :: behindColon := by
          rw [← colon]
          exact List.takeWhile_append_dropWhile.symm
        have split' : behindColon = blanks' ++ '"' :: behindQuote := by
          rw [← quote]
          exact List.takeWhile_append_dropWhile.symm
        have text : '"' :: cs =
            ('"' :: (key ++ '"' :: (blanks ++ ':' :: (blanks' ++ ['"'])))) ++ behindQuote := by
          rw [wholeKey, split, split']
          simp only [List.cons_append, List.append_assoc, List.nil_append]
        refine ⟨blanks, blanks', behindValue, ?_, ?_, ?_, plainKey, plainValue,
          fun c among => List.mem_takeWhile_imp among, fun c among => List.mem_takeWhile_imp among⟩
        · rw [List.nil_append, text, wholeValue]
        · have size := congrArg Text.byteSize text
          have one : '"'.utf8Size = 1 := by decide
          rw [Text.byteSize_append, Text.byteSize_cons] at size
          rw [List.nil_append]
          dsimp only
          omega
        · rintro rfl
          simp at some
      · simp at h
    · simp at h
  · simp at h

/-- Behind a text that was passed, the pairs lie in the whole text. -/
theorem quotedIn_of_mem_quotedPairs (done : List Char) {cs : List Char} {skip : Nat} {p : Pair}
    (h : p ∈ quotedPairs (Text.byteSize done) skip cs) : ∃ front, p.QuotedIn front (done ++ cs) := by
  induction cs generalizing done skip with
  | nil => simp [quotedPairs] at h
  | cons c cs ih =>
    have passed : done ++ c :: cs = (done ++ [c]) ++ cs := by simp
    have size : Text.byteSize done + c.utf8Size = Text.byteSize (done ++ [c]) := by simp
    simp only [quotedPairs, size] at h
    split at h
    · rw [passed]
      exact ih _ h
    · split at h
      · next q rest found =>
        rcases List.mem_cons.1 h with rfl | later
        · have quoted := (quotedIn_of_quotedPair? found).behind done
          rw [Nat.add_comm] at quoted
          exact ⟨_, quoted⟩
        · rw [passed]
          exact ih _ later
      · rw [passed]
        exact ih _ h

/-! ### Lines -/

theorem eq_of_candidate? {start : Nat} {value : List Char} {binding : Option (List Char)}
    {c : Candidate} (h : candidate? start value binding = some c) :
    c.start = start ∧ c.value = value := by
  obtain ⟨type, -, rfl⟩ := Option.map_eq_some_iff.1 h
  exact ⟨rfl, rfl⟩

/-- The candidate of a pair is its value, or what is between the quotes of the value. -/
theorem split_of_lineCandidate? {format : Format} {start : Nat} {p : Pair} {c : Candidate}
    (h : lineCandidate? format start p = some c) :
    (c.start = start + p.offset ∧ c.value = p.value) ∨
      ∃ q, (q = '"' ∨ q = '\'') ∧ c.start = start + p.offset + 1 ∧ p.value = q :: (c.value ++ [q]) := by
  have bare : ∀ {c : Candidate}, (if format = .toml || isMarked p.value then none
      else candidate? (start + p.offset) p.value p.key) = some c →
      c.start = start + p.offset ∧ c.value = p.value := by
    intro c found
    split at found
    · simp at found
    · exact eq_of_candidate? found
  unfold lineCandidate? at h
  dsimp only at h
  split at h
  · next q inner text =>
    split at h
    · next quoted =>
      obtain ⟨place, value⟩ := eq_of_candidate? h
      simp only [Bool.and_eq_true, Bool.or_eq_true, beq_iff_eq] at quoted
      have cut : inner = inner.dropLast ++ [q] :=
        (List.dropLast_append_getLast? q quoted.2).symm
      exact .inr ⟨q, quoted.1, place, by rw [text, value, ← cut]⟩
    · exact .inl (bare h)
  · exact .inl (bare h)

theorem stands_of_lineCandidate? {format : Format} {done line : List Char} {p : Pair}
    {c : Candidate} (stands : p.StandsIn line)
    (h : lineCandidate? format (Text.byteSize done) p = some c) :
    Stands (done ++ line) c.start c.value := by
  rcases split_of_lineCandidate? h with ⟨start, value⟩ | ⟨q, quote, start, value⟩
  · rw [start, value]
    exact stands.behind done
  · obtain ⟨front, after, whole, place, -⟩ := stands
    have one : q.utf8Size = 1 := by rcases quote with rfl | rfl <;> decide
    have plain : q ≠ '$' := by rcases quote with rfl | rfl <;> decide
    have text : done ++ line = (done ++ front) ++ q :: (c.value ++ (q :: after)) := by
      rw [whole, value]
      simp
    have place' : c.start = Text.byteSize (done ++ front) + q.utf8Size := by
      rw [start, place, Text.byteSize_append, one]
    rw [text, place']
    exact .of_append plain

/-- What a candidate of a line is, in the text of the line before its end. -/
def InBody (format : Format) (start : Nat) (body : List Char) (c : Candidate) : Prop :=
  match format with
  | .json => ∃ p ∈ quotedPairs 0 0 body, c.start = start + p.offset ∧ c.value = p.value ∧
      classify c.value ≠ none
  | .yaml => ∃ p, mapping? body = some p ∧ lineCandidate? .yaml start p = some c
  | format => ∃ p, assignment? body = some p ∧ lineCandidate? format start p = some c

theorem inBody_of_mem_candidatesOfLine {format : Format} {start : Nat} {line : List Char}
    {c : Candidate} (h : c ∈ candidatesOfLine format start line) :
    ∃ body tail, line = body ++ tail ∧ (∀ d ∈ body.getLast?, d ≠ '\n') ∧
      InBody format start body c := by
  obtain ⟨tail, cut⟩ := Text.exists_append_dropEnd (fun c => c == '\n' || c == '\r') line
  have ends : ∀ d ∈ (line.reverse.dropWhile fun c => c == '\n' || c == '\r').reverse.getLast?,
      d ≠ '\n' := by
    intro d last
    rw [List.getLast?_reverse] at last
    have kept := List.head?_dropWhile_not (fun c => c == '\n' || c == '\r') line.reverse
    rw [last] at kept
    rintro rfl
    simp at kept
  refine ⟨_, tail, cut, ends, ?_⟩
  simp only [candidatesOfLine] at h
  generalize (line.reverse.dropWhile fun c => c == '\n' || c == '\r').reverse = body at h
  split at h
  · simp at h
  · cases format with
    | json =>
      obtain ⟨p, among, found⟩ := List.mem_filterMap.1 h
      obtain ⟨place, value⟩ := eq_of_candidate? found
      obtain ⟨type, class', -⟩ := Option.map_eq_some_iff.1 found
      exact ⟨p, among, place, value, by rw [value, class']; simp⟩
    | yaml => exact Option.bind_eq_some_iff.1 (Option.mem_toList.1 h)
    | ini => exact Option.bind_eq_some_iff.1 (Option.mem_toList.1 h)
    | env => exact Option.bind_eq_some_iff.1 (Option.mem_toList.1 h)
    | toml => exact Option.bind_eq_some_iff.1 (Option.mem_toList.1 h)

theorem stands_of_inBody {format : Format} {done body : List Char} {c : Candidate}
    (h : InBody format (Text.byteSize done) body c) : Stands (done ++ body) c.start c.value := by
  unfold InBody at h
  split at h
  · obtain ⟨p, pair, start, value, -⟩ := h
    obtain ⟨front, quoted⟩ := quotedIn_of_mem_quotedPairs [] pair
    rw [start, value]
    exact quoted.standsIn.behind done
  all_goals
    obtain ⟨p, pair, found⟩ := h
    exact stands_of_lineCandidate? (standsIn_of_pairBehind? (by decide) pair) found

theorem exists_line_of_mem_candidatesOfLines (done : List Char) {format : Format}
    {lines : List (List Char)} {c : Candidate}
    (h : c ∈ candidatesOfLines format (Text.byteSize done) lines) :
    ∃ before line after, lines = before ++ line :: after ∧
      c ∈ candidatesOfLine format (Text.byteSize (done ++ before.flatten)) line := by
  induction lines generalizing done with
  | nil => simp [candidatesOfLines] at h
  | cons line lines ih =>
    rw [candidatesOfLines, ← Text.byteSize_append] at h
    rcases List.mem_append.1 h with here | later
    · exact ⟨[], line, lines, rfl, by simpa using here⟩
    · obtain ⟨before, line', after, rfl, found⟩ := ih _ later
      exact ⟨line :: before, line', after, rfl, by simpa using found⟩

/-- A candidate of a configuration is found in the body of a line, which has no line feed and begins at
the front of the text or behind a line feed. -/
theorem exists_body_of_mem_candidates [Libraries] {format : Format} {cs : List Char} {c : Candidate}
    (h : c ∈ candidates (.config format) cs) :
    ∃ done body after, cs = done ++ (body ++ after) ∧ (done = [] ∨ done.getLast? = some '\n') ∧
      '\n' ∉ body ∧ InBody format (Text.byteSize done) body c := by
  obtain ⟨before, line, after, pieces, found⟩ := exists_line_of_mem_candidatesOfLines [] h
  obtain ⟨body, tail, rfl, ends, inBody⟩ := inBody_of_mem_candidatesOfLine found
  have begins := Text.begins_of_terminatedLines_eq pieces
  have among : body ++ tail ∈ Text.terminatedLines cs := by
    rw [pieces]
    exact List.mem_append_right _ List.mem_cons_self
  have plain := Text.not_mem_dropLast_of_mem_terminatedLines among
  have whole := congrArg List.flatten pieces
  rw [Text.flatten_terminatedLines, List.flatten_append, List.flatten_cons] at whole
  refine ⟨before.flatten, body, tail ++ after.flatten, by rw [whole, List.append_assoc], ?_, ?_, inBody⟩
  · exact begins.imp (by rintro rfl; rfl) id
  · intro feed
    cases tail with
    | nil =>
      rw [List.append_nil] at plain
      have some : body ≠ [] := List.ne_nil_of_mem feed
      have last := List.getLast?_eq_some_getLast some
      rw [← List.dropLast_append_getLast some, List.mem_append, List.mem_singleton] at feed
      rcases feed with inside | same
      · exact plain inside
      · exact ends _ last same.symm
    | cons d tail =>
      rw [List.dropLast_append_of_ne_nil (List.cons_ne_nil d tail)] at plain
      exact plain (List.mem_append_left _ feed)

theorem stands_of_config [Libraries] {format : Format} {cs : List Char} {c : Candidate}
    (h : c ∈ candidates (.config format) cs) : Stands cs c.start c.value := by
  obtain ⟨done, body, after, rfl, -, -, inBody⟩ := exists_body_of_mem_candidates h
  rw [← List.append_assoc]
  exact (stands_of_inBody inBody).append after

end Stencil.Extraction
