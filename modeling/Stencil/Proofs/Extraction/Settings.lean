import Stencil.Proofs.Extraction.Substitution
import Stencil.Proofs.Grammar.Lines
import Stencil.Proofs.Inspection

/-!
# Values of settings

In settings files and environment files every candidate stands behind the equals sign of its line. So a
template of such a file, rendered for an environment without rules whose values are one line each, says the
same keys in the same sections as the file (`parse_of_render_setting`).
-/

namespace Stencil.Extraction

/-- The line that a text leaves unfinished, after one more character. -/
def lineSoFar (line : List Char) (c : Char) : List Char := if c = '\n' then [] else line ++ [c]

theorem foldl_lineSoFar {l : List Char} (plain : '\n' ∉ l) (line : List Char) :
    l.foldl lineSoFar line = line ++ l := by
  induction l generalizing line with
  | nil => simp
  | cons c l ih =>
    rw [List.mem_cons, not_or] at plain
    rw [List.foldl_cons, ih plain.2, lineSoFar, if_neg (Ne.symm plain.1), List.append_assoc]
    rfl

theorem foldl_lineSoFar_of_begins {done : List Char} (begins : done = [] ∨ done.getLast? = some '\n') :
    done.foldl lineSoFar [] = [] := by
  rcases begins with rfl | last
  · rfl
  · obtain ⟨front, rfl⟩ := List.getLast?_eq_some_iff.1 last
    rw [List.foldl_append]
    rfl

/-- A line so far has passed the equals sign of a setting, and a value of one line stands there. -/
def BehindEquals (line old _back : List Char) : Prop :=
  (∃ front x, Lines.Keyed front ∧ line = front ++ '=' :: x) ∧ '\n' ∉ old

/-! ### Where the candidates of settings stand -/

theorem keyed_append {front key blanks : List Char} (some : key ≠ [])
    (keys : ∀ c ∈ key, isLineKeyChar c = true) (blank : ∀ c ∈ blanks, Text.isBlank c = true)
    (h : (∀ c ∈ front, Text.isBlank c = true) ∨ (Lines.Keyed front)) :
    Lines.Keyed (front ++ (key ++ blanks)) := by
  have plain : '=' ∉ key ++ blanks := by
    rw [List.mem_append, not_or]
    constructor
    · intro among
      exact absurd (keys _ among) (by decide)
    · intro among
      have char := blank _ among
      simp [Text.isBlank] at char
  rcases h with before | ⟨before, c, rest, rfl, isBlank, isKey, none⟩
  · cases key with
    | nil => exact absurd rfl some
    | cons c key =>
      refine ⟨front, c, key ++ blanks, rfl, before, keys c List.mem_cons_self, ?_⟩
      exact fun among => plain (List.mem_cons_of_mem c among)
  · refine ⟨before, c, rest ++ (key ++ blanks), by simp, isBlank, isKey, ?_⟩
    rw [List.mem_append, not_or]
    exact ⟨none, plain⟩

theorem split_of_assignment? {line : List Char} {p : Pair} (h : assignment? line = some p) :
    ∃ front spaces tail, Lines.Keyed front ∧ line = (front ++ '=' :: spaces) ++ (p.value ++ tail) ∧
      p.offset = Text.byteSize (front ++ '=' :: spaces) := by
  have ofLies : ∀ {before : List Char}, (∀ c ∈ before, Text.isBlank c = true) ∨ Lines.Keyed before →
      p.LiesIn '=' before line → ∃ front spaces tail, Lines.Keyed front ∧
        line = (front ++ '=' :: spaces) ++ (p.value ++ tail) ∧
        p.offset = Text.byteSize (front ++ '=' :: spaces) := by
    rintro before starts ⟨key, blanks, spaces, tail, whole, place, some, keys, blank, -⟩
    refine ⟨before ++ (key ++ blanks), spaces, tail, keyed_append some keys blank starts, ?_, ?_⟩
    · rw [whole]
      simp only [List.append_assoc]
    · rw [place]
      simp only [List.append_assoc]
  obtain ⟨blanks, between, blank, blank', lies | lies⟩ := liesIn_of_pairBehind? h
  · exact ofLies (.inl blank) lies
  · refine ofLies (.inr ⟨blanks, 'e', "xport".toList ++ between, rfl, blank, by decide, ?_⟩) lies
    rw [List.mem_append, not_or]
    refine ⟨by decide, fun among => ?_⟩
    have char := blank' _ among
    simp [Text.isBlank] at char

theorem behindEquals_of_mem_candidates [Libraries] {format : Format} (settings : format = .ini ∨ format = .env)
    {cs : List Char} {c : Candidate} (h : c ∈ candidates (.config format) cs) {front back : List Char}
    (whole : cs = front ++ (c.value ++ back)) (place : c.start = Text.byteSize front) :
    BehindEquals (front.foldl lineSoFar []) c.value back := by
  obtain ⟨done, body, after, rfl, begins, plain, inBody⟩ := exists_body_of_mem_candidates h
  have assigned : ∃ p, assignment? body = some p ∧
      lineCandidate? format (Text.byteSize done) p = some c := by
    rcases settings with rfl | rfl <;> exact inBody
  obtain ⟨p, assigned, found⟩ := assigned
  obtain ⟨key, spaces, tail, keyed, body', offset⟩ := split_of_assignment? assigned
  -- The value of the line is the candidate's, or has quotes around it.
  have split : ∃ quote tail', body = (key ++ '=' :: (spaces ++ quote)) ++ (c.value ++ tail') ∧
      c.start = Text.byteSize (done ++ (key ++ '=' :: (spaces ++ quote))) := by
    rcases split_of_lineCandidate? found with ⟨start, value⟩ | ⟨q, quote, start, value⟩
    · refine ⟨[], tail, ?_, ?_⟩
      · rw [List.append_nil, body', value]
      · rw [start, offset, List.append_nil, Text.byteSize_append done]
    · have one : q.utf8Size = 1 := by rcases quote with rfl | rfl <;> decide
      refine ⟨[q], q :: tail, ?_, ?_⟩
      · rw [body', value]
        simp only [List.append_assoc, List.cons_append, List.nil_append]
      · rw [start, offset]
        simp only [Text.byteSize_append, Text.byteSize_cons, Text.byteSize_nil, one]
        omega
  obtain ⟨quote, tail', body', start⟩ := split
  have same : (done ++ (key ++ '=' :: (spaces ++ quote))) ++ (c.value ++ (tail' ++ after)) =
      front ++ (c.value ++ back) := by
    rw [← whole, body']
    simp only [List.append_assoc, List.cons_append]
  obtain ⟨rfl, -⟩ := Text.append_inj_of_byteSize same (start.symm.trans place)
  rw [body'] at plain
  have plain' : '\n' ∉ key ++ '=' :: (spaces ++ quote) := fun among =>
    plain (List.mem_append_left _ among)
  rw [List.foldl_append, foldl_lineSoFar_of_begins begins, foldl_lineSoFar plain', List.nil_append]
  exact ⟨⟨key, spaces ++ quote, keyed, rfl⟩, fun among =>
    plain (List.mem_append_right _ (List.mem_append_left _ among))⟩

/-! ### What an exchange of values keeps -/

/-- Behind the equals sign of a setting, whatever is put keeps the line. -/
theorem kept_put {line line' old back : List Char} (kept : Lines.Kept line line')
    (behind : BehindEquals line old back) (put : List Char) : Lines.Kept (line ++ old) (line' ++ put) := by
  rcases kept with rfl | ⟨front, x, y, keyed, rfl, rfl⟩
  · obtain ⟨⟨front, x, keyed, rfl⟩, -⟩ := behind
    exact .inr ⟨front, x ++ old, x ++ put, keyed, by simp, by simp⟩
  · exact .inr ⟨front, x ++ old, y ++ put, keyed, by simp, by simp⟩

/-- Values of one line that are exchanged behind equals signs keep the lines of a text. -/
theorem kept_of_exchange {new : List Char → List Char → Prop}
    (oneLine : ∀ old put, '\n' ∉ old → new old put → '\n' ∉ put) {line cs cs' : List Char}
    (exchanged : Exchange lineSoFar BehindEquals new line cs cs') (plain : '\n' ∉ line)
    {line' : List Char} (plain' : '\n' ∉ line') (kept : Lines.Kept line line') :
    List.Forall₂ Lines.Kept (Text.terminatedLines (line ++ cs)) (Text.terminatedLines (line' ++ cs')) := by
  induction exchanged generalizing line' with
  | nil line =>
    rw [List.append_nil, List.append_nil]
    rcases kept with rfl | ⟨front, x, y, keyed, rfl, rfl⟩
    · exact List.forall₂_same.2 fun _ _ => .inl rfl
    · rw [Text.terminatedLines_of_not_mem plain (by simp), Text.terminatedLines_of_not_mem plain' (by simp)]
      exact .cons (.inr ⟨front, x, y, keyed, rfl, rfl⟩) .nil
  | @keep line c cs cs' _ ih =>
    by_cases feed : c = '\n'
    · subst feed
      rw [Text.terminatedLines_append plain, Text.terminatedLines_append plain']
      have next : lineSoFar line '\n' = [] := if_pos rfl
      rw [next] at ih
      exact .cons (kept.append _) (ih List.not_mem_nil List.not_mem_nil (.inl rfl))
    · have next : lineSoFar line c = line ++ [c] := if_neg feed
      rw [next] at ih
      have plainStep : '\n' ∉ line' ++ [c] := by simp [plain', Ne.symm feed]
      have step := ih (by simp [plain, Ne.symm feed]) plainStep (kept.append _)
      simpa using step
  | @value line old put back back' behind allowed _ ih =>
    rw [foldl_lineSoFar behind.2] at ih
    have plainStep : '\n' ∉ line' ++ put := by simp [plain', oneLine _ _ behind.2 allowed]
    have step := ih (by simp [plain, behind.2]) plainStep (kept_put kept behind put)
    simpa using step

/-- Rendering a template of a settings file or an environment file for an environment without rules, whose
values are one line each, gives a text with the same keys, sections and comments; and the text is valid
unless the file is blank. -/
theorem parse_of_render_setting [Libraries] {w : Weights} {artifact : Artifact} {format : Format}
    (kind : artifact.kind = .config format) (settings : format = .ini ∨ format = .env) {a : Analysis}
    (analyzed : Inspection.analyze w artifact = .ok a) {p : Policy} {newId : Identifier} {now : Instant}
    {t : Template} (extracted : extract p a artifact newId now = .ok (some t)) {e : Environment}
    (rules : e.rules = [])
    (oneLine : ∀ name bound, e.binding? name = some bound → '\n' ∉ bound.toList) :
    ∃ d r d', format.document artifact.content.toList = .ok d ∧ t.render e = .ok r ∧
      format.document r.content.toList = .ok d' ∧ d.SameShape d' ∧
      (Text.allBlank artifact.content.toList = false → (r.validate t.kind).passed = true) := by
  have clean := Inspection.issues_of_analyze analyzed
  rw [kind] at clean
  obtain ⟨d, parsed⟩ := Format.document_of_issues clean
  obtain ⟨text, rendered, exchanged⟩ := exchange_of_extract lineSoFar BehindEquals extracted rules []
    (fun c among => by rw [kind] at among; exact stands_of_config among)
    (fun c among front back whole place => by
      rw [kind] at among
      exact behindEquals_of_mem_candidates settings among whole place)
  have oneLine' : ∀ old put, '\n' ∉ old → e.Puts old put → '\n' ∉ put := by
    rintro old put plain (rfl | ⟨name, bound, found, rfl⟩)
    · exact plain
    · exact oneLine name bound found
  have kept := kept_of_exchange oneLine' exchanged List.not_mem_nil List.not_mem_nil (.inl rfl)
  rw [List.nil_append, List.nil_append] at kept
  have reads : ∃ d', format.document text = .ok d' ∧ d.SameShape d' := by
    rcases settings with rfl | rfl
    · exact Lines.parse_of_kept kept parsed
    · exact Lines.parse_of_kept kept parsed
  obtain ⟨d', parsed', shape⟩ := reads
  refine ⟨d, _, d', parsed, rendered, ?_, shape, fun some => ?_⟩
  · rw [String.toList_ofList]
    exact parsed'
  · have clean' : artifact.kind.issues text = [] := by
      rw [kind]
      exact Format.issues_of_document parsed'
    have shown : Text.allBlank text = false := by
      have same := Lines.allBlank_flatten_of_kept kept
      rw [Text.flatten_terminatedLines, Text.flatten_terminatedLines, some] at same
      exact same
    rw [eq_made_of_extract extracted]
    show (artifact.kind.validate (String.ofList text) []).passed = true
    rw [Kind.validate_of_issues (by rwa [String.toList_ofList]), String.toList_ofList, shown]
    rfl

/-- A settings file with a header, a comment and a setting that goes on. -/
def pathSettings : Artifact :=
  { path := ⟨"site.ini"⟩, content := "; site\n[paths]\nroot = data/in\n  more\n", kind := .config .ini }

/-- An environment that puts a text with quotes and brackets for the path. -/
def bracketing : Environment :=
  { name := "prod", bindings := .ofList [("root", "\"[x]=#;")] }

open Readers in
theorem parse_of_render_setting_pathSettings :
    ∃ a t, Inspection.analyze {} pathSettings = .ok a ∧
      extract { threshold := 0, checks := 0 } a pathSettings default default = .ok (some t) ∧
      ∃ d r d', Lines.parse .settings pathSettings.content.toList = .ok d ∧
        t.render bracketing = .ok r ∧ Lines.parse .settings r.content.toList = .ok d' ∧
        d.SameShape d' ∧ (r.validate t.kind).passed = true := by
  have oneLine : ∀ name bound, bracketing.binding? name = some bound → '\n' ∉ bound.toList := by
    intro name bound found
    have only : ∀ v ∈ bracketing.bindings.values, '\n' ∉ v.toList := by decide
    exact only bound (SortedMap.mem_values_of_get? found)
  have kind : pathSettings.kind = .config .ini := rfl
  obtain ⟨a, analyzed, extracted⟩ := exists_extract {} { threshold := 0, checks := 0 } pathSettings default
    default (by decide +kernel) (by decide +kernel) fun c among => stands_of_config among
  obtain ⟨d, r, d', parsed, rendered, parsed', shape, valid⟩ :=
    parse_of_render_setting kind (.inl rfl) analyzed extracted (e := bracketing) rfl oneLine
  exact ⟨a, _, analyzed, extracted, d, r, d', parsed, rendered, parsed', shape, valid (by decide +kernel)⟩

end Stencil.Extraction
