import Mathlib.Data.List.Forall2
import Stencil.Grammar.Lines
import Stencil.Proofs.Text.Cut

/-!
# Lines that keep their meaning

A setting says its key in front of its first equals sign, whatever stands behind the sign. So a text whose
lines differ only there is read as the same keys in the same sections, with the same comments
(`parse_of_kept`).
-/

namespace Stencil

/-- Documents with the same keys in the same order, the same shape and the same comments. -/
structure Document.SameShape (d d' : Document) : Prop where
  keys : d'.entries.map (·.key) = d.entries.map (·.key)
  sections : d'.sections = d.sections
  depth : d'.depth = d.depth
  commentLines : d'.commentLines = d.commentLines
  leadingComment : d'.leadingComment = d.leadingComment

namespace Lines

/-- The front of a setting: blanks, and a text without equals sign that begins with a character of a
key. -/
def Keyed (front : List Char) : Prop :=
  ∃ blanks c rest, front = blanks ++ c :: rest ∧ (∀ b ∈ blanks, Text.isBlank b = true) ∧
    isKeyChar c = true ∧ '=' ∉ rest

/-- Lines that differ at most behind the equals sign of a setting. -/
def Kept (line line' : List Char) : Prop :=
  line = line' ∨ ∃ front x y, Keyed front ∧ line = front ++ '=' :: x ∧ line' = front ++ '=' :: y

theorem isBlank_of_isKeyChar {c : Char} (key : isKeyChar c = true) : Text.isBlank c = false := by
  simp only [isKeyChar, Bool.or_eq_true, beq_iff_eq] at key
  rcases key with ((key | rfl) | rfl) | rfl
  · delta Char.isAlphanum Char.isAlpha Char.isUpper Char.isLower Char.isDigit at key
    simp only [Bool.or_eq_true, Bool.and_eq_true, decide_eq_true_eq, UInt32.le_iff_toNat_le,
      Char.toNat_val] at key
    simp only [Text.isBlank, Bool.or_eq_false_iff, Bool.and_eq_false_iff, decide_eq_false_iff_not,
      beq_eq_false_iff_ne]
    simp only [Char.reduceToNat] at key
    omega
  · decide
  · decide
  · decide

/-! ### Texts in front of an equals sign -/

theorem takeWhile_append_equals {p : Char → Bool} (stops : p '=' = false) (front x : List Char) :
    (front ++ '=' :: x).takeWhile p = front.takeWhile p := by
  induction front with
  | nil => simp [stops]
  | cons c front ih =>
    rw [List.cons_append, List.takeWhile_cons, List.takeWhile_cons, ih]

theorem dropWhile_append_equals {p : Char → Bool} (stops : p '=' = false) (front x : List Char) :
    (front ++ '=' :: x).dropWhile p = front.dropWhile p ++ '=' :: x := by
  induction front with
  | nil => simp [stops]
  | cons c front ih =>
    rw [List.cons_append, List.dropWhile_cons, List.dropWhile_cons, ih]
    split <;> rfl

theorem trimStart_append_equals (front x : List Char) :
    Text.trimStart (front ++ '=' :: x) = Text.trimStart front ++ '=' :: x :=
  dropWhile_append_equals (by decide) front x

/-- A key is read from the text in front of an equals sign alone, and the value is all that is behind. -/
def ReadsFront (setting? : List Char → Option (List Char × List Char)) (front : List Char) : Prop :=
  ∃ key : Option (List Char), ∀ x, setting? (front ++ '=' :: x) = key.map (·, x)

theorem assigned?_append {front : List Char} (plain : '=' ∉ front) :
    ∃ here : Option Unit, ∀ x, assigned? (front ++ '=' :: x) = here.map fun _ => x := by
  have mem := (List.dropWhile_suffix Text.isBlank (l := front)).subset
  cases trimmed : Text.trimStart front with
  | nil =>
    refine ⟨some (), fun x => ?_⟩
    rw [assigned?, trimStart_append_equals, trimmed]
    rfl
  | cons c rest =>
    have apart : c ≠ '=' := by
      rintro rfl
      exact plain (mem (show '=' ∈ Text.trimStart front by simp [trimmed]))
    refine ⟨none, fun x => ?_⟩
    rw [assigned?, trimStart_append_equals, trimmed, List.cons_append]
    split
    · next value same => exact absurd (List.cons.inj same).1 apart
    · rfl

theorem readsFront_plainSetting? {front : List Char} (plain : '=' ∉ front) :
    ReadsFront plainSetting? front := by
  cases front with
  | nil => exact ⟨none, fun x => rfl⟩
  | cons c rest =>
    have behind : '=' ∉ rest.dropWhile isKeyChar := fun among =>
      plain (List.mem_cons_of_mem _ ((List.dropWhile_suffix isKeyChar).subset among))
    obtain ⟨here, assigned⟩ := assigned?_append behind
    by_cases start : (c.isAlpha || c == '_') = true
    · refine ⟨here.map fun _ => c :: rest.takeWhile isKeyChar, fun x => ?_⟩
      rw [List.cons_append, plainSetting?, if_pos start, dropWhile_append_equals (by decide),
        takeWhile_append_equals (by decide), assigned]
      cases here <;> rfl
    · refine ⟨none, fun x => ?_⟩
      rw [List.cons_append, plainSetting?, if_neg start]
      rfl

theorem dropPrefix?_append_equals {word : List Char} (plain : '=' ∉ word) (front x : List Char) :
    Text.dropPrefix? word (front ++ '=' :: x) =
      (Text.dropPrefix? word front).map (· ++ '=' :: x) := by
  induction word generalizing front with
  | nil => rfl
  | cons w word ih =>
    rw [List.mem_cons, not_or] at plain
    cases front with
    | nil =>
      show (if w = '=' then _ else none) = _
      rw [if_neg (Ne.symm plain.1)]
      rfl
    | cons c front =>
      rw [List.cons_append, Text.dropPrefix?, Text.dropPrefix?, ih plain.2]
      split <;> rfl

theorem exported?_append_equals (front x : List Char) :
    exported? (front ++ '=' :: x) = (exported? front).map (· ++ '=' :: x) := by
  have plain : '=' ∉ "export".toList := by decide
  have behind := dropPrefix?_append_equals plain front x
  unfold exported?
  rw [behind]
  cases Text.dropPrefix? "export".toList front with
  | none => rfl
  | some rest =>
    cases rest with
    | nil => rfl
    | cons c rest =>
      show (if Text.isBlank c = true then some (Text.trimStart (rest ++ '=' :: x)) else none) = _
      rw [trimStart_append_equals]
      by_cases blank : Text.isBlank c = true <;> simp [blank]

theorem suffix_of_exported? {front rest : List Char} (h : exported? front = some rest) :
    rest <:+ front := by
  unfold exported? at h
  split at h
  · next c behind dropped =>
    split at h
    · obtain rfl := Option.some.inj h
      have whole := Text.eq_append_of_dropPrefix? dropped
      have trimmed := List.dropWhile_suffix Text.isBlank (l := behind)
      rw [whole]
      exact (trimmed.trans (List.suffix_cons c behind)).trans (List.suffix_append _ _)
    · cases h
  · cases h

/-! ### One line -/

section

variable {front : List Char}

theorem trimStart_keyed {blanks rest : List Char} {c : Char}
    (blank : ∀ b ∈ blanks, Text.isBlank b = true) (key : isKeyChar c = true) (x : List Char) :
    Text.trimStart (blanks ++ c :: rest ++ '=' :: x) = c :: rest ++ '=' :: x := by
  rw [List.append_assoc, Text.trimStart, List.dropWhile_append_of_pos blank]
  exact Text.trimStart_of_not_isBlank (isBlank_of_isKeyChar key)

theorem readsFront_exportedSetting? (keyed : Keyed front) : ReadsFront exportedSetting? front := by
  obtain ⟨blanks, c, rest, rfl, blank, key, plain⟩ := keyed
  have plain' : '=' ∉ c :: rest := by
    rw [List.mem_cons, not_or]
    refine ⟨?_, plain⟩
    rintro rfl
    exact absurd key (by decide)
  obtain ⟨name, direct⟩ := readsFront_plainSetting? plain'
  have behind : ∃ key : Option (List Char), ∀ x,
      (exported? (c :: rest ++ '=' :: x)).bind plainSetting? = key.map (·, x) := by
    cases found : exported? (c :: rest) with
    | none =>
      refine ⟨none, fun x => ?_⟩
      rw [exported?_append_equals, found]
      rfl
    | some word =>
      obtain ⟨name, reads⟩ := readsFront_plainSetting? fun among =>
        plain' ((suffix_of_exported? found).subset among)
      refine ⟨name, fun x => ?_⟩
      rw [exported?_append_equals, found]
      exact reads x
  obtain ⟨name', exported⟩ := behind
  refine ⟨name'.or name, fun x => ?_⟩
  unfold exportedSetting?
  dsimp only
  rw [trimStart_keyed blank key, exported, direct, Option.map_or]

theorem readsFront_spacedSetting? (keyed : Keyed front) : ReadsFront spacedSetting? front := by
  obtain ⟨blanks, c, rest, rfl, blank, key, plain⟩ := keyed
  let inKey (d : Char) := isKeyChar d || d == ' '
  have behind : '=' ∉ rest.dropWhile inKey := fun among =>
    plain ((List.dropWhile_suffix inKey).subset among)
  obtain ⟨here, assigned⟩ := assigned?_append behind
  refine ⟨here.map fun _ => Text.trim (c :: rest.takeWhile inKey), fun x => ?_⟩
  have dropped : (rest ++ '=' :: x).dropWhile inKey = rest.dropWhile inKey ++ '=' :: x :=
    dropWhile_append_equals (by decide) rest x
  have taken : (rest ++ '=' :: x).takeWhile inKey = rest.takeWhile inKey :=
    takeWhile_append_equals (by decide) rest x
  unfold spacedSetting?
  rw [trimStart_keyed blank key, List.cons_append]
  dsimp only
  rw [if_pos key, dropped, taken, assigned]
  cases here <;> rfl

theorem header?_keyed (keyed : Keyed front) (x : List Char) : header? (front ++ '=' :: x) = none := by
  obtain ⟨blanks, c, rest, rfl, blank, key, -⟩ := keyed
  obtain ⟨tail, cut⟩ := Text.exists_append_dropEnd Text.isBlank (c :: rest ++ '=' :: x)
  unfold header?
  rw [Text.trim, trimStart_keyed blank key, Text.trimEnd]
  split
  · next found =>
    rw [found] at cut
    obtain rfl : c = '[' := (List.cons.inj cut).1
    exact absurd key (by decide)
  · rfl

theorem isComment_keyed (keyed : Keyed front) (x : List Char) :
    Document.isComment (front ++ '=' :: x) = false := by
  obtain ⟨blanks, c, rest, rfl, blank, key, -⟩ := keyed
  unfold Document.isComment
  rw [trimStart_keyed blank key]
  split
  · next found =>
    obtain rfl : c = '#' := (List.cons.inj found).1
    exact absurd key (by decide)
  · next found =>
    obtain rfl : c = ';' := (List.cons.inj found).1
    exact absurd key (by decide)
  · rfl

theorem allBlank_keyed (keyed : Keyed front) (x : List Char) :
    Text.allBlank (front ++ '=' :: x) = false := by
  obtain ⟨blanks, c, rest, rfl, -, key, -⟩ := keyed
  simp [Text.allBlank, isBlank_of_isKeyChar key]

theorem isIndented_keyed (keyed : Keyed front) (x y : List Char) :
    isIndented (front ++ '=' :: x) = isIndented (front ++ '=' :: y) := by
  obtain ⟨blanks, c, rest, rfl, -, -, -⟩ := keyed
  cases blanks <;> rfl

theorem takeWhile_isBlank_keyed (x y : List Char) :
    (front ++ '=' :: x).takeWhile Text.isBlank = (front ++ '=' :: y).takeWhile Text.isBlank := by
  rw [takeWhile_append_equals (by decide), takeWhile_append_equals (by decide)]

end

/-- Lines that are the same, or settings of one key. -/
def Line.Alike (l l' : Line) : Prop :=
  l = l' ∨ ∃ key value value', l = .setting key value ∧ l' = .setting key value'

theorem alike_settingOr {setting? : List Char → Option (List Char × List Char)} {front : List Char}
    (reads : ReadsFront setting? front) (x y : List Char) :
    (settingOr (front ++ '=' :: x) (setting? (front ++ '=' :: x))).Alike
      (settingOr (front ++ '=' :: y) (setting? (front ++ '=' :: y))) := by
  obtain ⟨key, reads⟩ := reads
  rw [reads x, reads y]
  cases key with
  | none =>
    refine .inl ?_
    simp only [settingOr, Option.map_none]
    rw [takeWhile_isBlank_keyed x y]
  | some key => exact .inr ⟨key, _, _, rfl, rfl⟩

theorem alike_read {line line' : List Char} (kept : Kept line line') (style : Style) (ctx : Context) :
    (read style ctx line).Alike (read style ctx line') := by
  rcases kept with rfl | ⟨front, x, y, keyed, rfl, rfl⟩
  · exact .inl rfl
  · unfold read
    simp only [allBlank_keyed keyed, isComment_keyed keyed, header?_keyed keyed, Bool.false_eq_true,
      if_false]
    cases style with
    | environment => exact alike_settingOr (readsFront_exportedSetting? keyed) x y
    | settings =>
      dsimp only
      rw [isIndented_keyed keyed x y]
      split
      · exact .inl rfl
      · exact alike_settingOr (readsFront_spacedSetting? keyed) x y

namespace Kept

variable {line line' : List Char}

theorem allBlank (kept : Kept line line') : Text.allBlank line' = Text.allBlank line := by
  rcases kept with rfl | ⟨front, x, y, keyed, rfl, rfl⟩
  · rfl
  · rw [allBlank_keyed keyed, allBlank_keyed keyed]

theorem isComment (kept : Kept line line') : Document.isComment line' = Document.isComment line := by
  rcases kept with rfl | ⟨front, x, y, keyed, rfl, rfl⟩
  · rfl
  · rw [isComment_keyed keyed, isComment_keyed keyed]

end Kept

theorem Kept.append {line line' : List Char} (kept : Kept line line') (more : List Char) :
    Kept (line ++ more) (line' ++ more) := by
  rcases kept with rfl | ⟨front, x, y, keyed, rfl, rfl⟩
  · exact .inl rfl
  · exact .inr ⟨front, x ++ more, y ++ more, keyed, by simp, by simp⟩

/-! ### The ends of lines -/

theorem dropTerminator_append_equals (front x : List Char) :
    ∃ x', Text.dropTerminator (front ++ '=' :: x) = front ++ '=' :: x' := by
  have shorter : ∃ tail, front ++ '=' :: x = Text.dropTerminator (front ++ '=' :: x) ++ tail ∧
      '=' ∉ tail := by
    generalize front ++ '=' :: x = line
    unfold Text.dropTerminator
    split
    · next r reversed =>
      refine ⟨['\r', '\n'], ?_, by decide⟩
      have whole := congrArg List.reverse reversed
      simpa using whole
    · next r _ reversed =>
      refine ⟨['\n'], ?_, by decide⟩
      have whole := congrArg List.reverse reversed
      simpa using whole
    · exact ⟨[], by simp, by simp⟩
  obtain ⟨tail, whole, plain⟩ := shorter
  rcases List.append_eq_append_iff.1 whole with ⟨more, behind, -⟩ | ⟨more, -, behind⟩
  · cases more with
    | nil =>
      refine absurd ?_ plain
      rw [List.append_nil] at behind
      rw [behind] at whole
      rw [← List.append_cancel_left whole]
      exact List.mem_cons_self
    | cons c more =>
      rw [behind] at whole
      rw [List.append_assoc] at whole
      have tails := List.append_cancel_left whole
      rw [List.cons_append, List.cons.injEq] at tails
      exact ⟨more, by rw [behind, ← tails.1]⟩
  · refine absurd ?_ plain
    rw [behind]
    simp

theorem Kept.dropTerminator {line line' : List Char} (kept : Kept line line') :
    Kept (Text.dropTerminator line) (Text.dropTerminator line') := by
  rcases kept with rfl | ⟨front, x, y, keyed, rfl, rfl⟩
  · exact .inl rfl
  · obtain ⟨x', first⟩ := dropTerminator_append_equals front x
    obtain ⟨y', second⟩ := dropTerminator_append_equals front y
    exact .inr ⟨front, x', y', keyed, first, second⟩

theorem kept_lines {cs cs' : List Char}
    (kept : List.Forall₂ Kept (Text.terminatedLines cs) (Text.terminatedLines cs')) :
    List.Forall₂ Kept (Text.lines cs) (Text.lines cs') := by
  rw [Text.lines, Text.lines, List.forall₂_map_left_iff, List.forall₂_map_right_iff]
  exact kept.imp fun _ _ => Kept.dropTerminator

/-! ### All lines -/

section

variable {lines lines' : List (List Char)}

theorem countP_isComment_of_kept (kept : List.Forall₂ Kept lines lines') :
    lines'.countP Document.isComment = lines.countP Document.isComment := by
  induction kept with
  | nil => rfl
  | cons here _ ih => rw [List.countP_cons, List.countP_cons, ih, here.isComment]

theorem leading_of_kept (kept : List.Forall₂ Kept lines lines') :
    (lines'.find? fun l => !Text.allBlank l).any Document.isComment =
      (lines.find? fun l => !Text.allBlank l).any Document.isComment := by
  induction kept with
  | nil => rfl
  | cons here _ ih =>
    rw [List.find?_cons, List.find?_cons, here.allBlank]
    split
    · exact here.isComment
    · exact ih

theorem allBlank_flatten_of_kept (kept : List.Forall₂ Kept lines lines') :
    Text.allBlank lines'.flatten = Text.allBlank lines.flatten := by
  induction kept with
  | nil => rfl
  | cons here _ ih =>
    simp only [List.flatten_cons, Text.allBlank, List.all_append] at ih ⊢
    have same := here.allBlank
    simp only [Text.allBlank] at same
    rw [ih, same]

/-- Sections and lines that say the same keys. -/
def AlikeIn (l l' : Option (List Char) × Line) : Prop := l.1 = l'.1 ∧ l.2.Alike l'.2

theorem next_of_alike {l l' : Line} (alike : l.Alike l') (ctx : Context) :
    ctx.next l = ctx.next l' := by
  rcases alike with rfl | ⟨key, value, value', rfl, rfl⟩ <;> rfl

theorem alike_readAll (kept : List.Forall₂ Kept lines lines') (style : Style) (ctx : Context) :
    List.Forall₂ AlikeIn (readAll style ctx lines) (readAll style ctx lines') := by
  induction kept generalizing ctx with
  | nil => exact .nil
  | cons here _ ih =>
    have alike := alike_read here style ctx
    rw [readAll, readAll, next_of_alike alike]
    exact .cons ⟨rfl, alike⟩ (ih _)

end

section

variable {found found' : List (Option (List Char) × Line)}

theorem issuesFrom_of_alike (alike : List.Forall₂ AlikeIn found found') (style : Style) (n : Nat) :
    issuesFrom style n found' = issuesFrom style n found := by
  induction alike generalizing n with
  | nil => rfl
  | @cons l l' _ _ here _ ih =>
    obtain ⟨heading, line⟩ := l
    obtain ⟨heading', line'⟩ := l'
    obtain ⟨rfl, rfl | ⟨key, value, value', rfl, rfl⟩⟩ := here
    · cases line <;> simp only [issuesFrom, ih]
    · exact ih (n + 1)

theorem countP_isHeader_of_alike (alike : List.Forall₂ AlikeIn found found') :
    found'.countP (fun l => l.2.isHeader) = found.countP fun l => l.2.isHeader := by
  induction alike with
  | nil => rfl
  | cons here _ ih =>
    rw [List.countP_cons, List.countP_cons, ih]
    rcases here.2 with same | ⟨key, value, value', first, second⟩
    · rw [same]
    · rw [first, second]
      rfl

theorem keys_of_alike (alike : List.Forall₂ AlikeIn found found') :
    (found'.filterMap entry?).map (·.key) = (found.filterMap entry?).map (·.key) := by
  induction alike with
  | nil => rfl
  | @cons l l' _ _ here _ ih =>
    obtain ⟨heading, line⟩ := l
    obtain ⟨heading', line'⟩ := l'
    obtain ⟨rfl, rfl | ⟨key, value, value', rfl, rfl⟩⟩ := here
    · cases said : entry? (heading, line) with
      | none => rwa [List.filterMap_cons_none said, List.filterMap_cons_none said]
      | some e =>
        rw [List.filterMap_cons_some said, List.filterMap_cons_some said, List.map_cons,
          List.map_cons, ih]
    · cases heading <;> exact congrArg (_ :: ·) ih

end

/-- A text that keeps its lines up to values is read as a document of the same shape. -/
theorem parse_of_kept {cs cs' : List Char}
    (kept : List.Forall₂ Kept (Text.terminatedLines cs) (Text.terminatedLines cs')) {style : Style}
    {d : Document} (parsed : parse style cs = .ok d) :
    ∃ d', parse style cs' = .ok d' ∧ d.SameShape d' := by
  have lines := kept_lines kept
  have alike := alike_readAll lines style {}
  have issues := issuesFrom_of_alike alike style 1
  have headers := countP_isHeader_of_alike alike
  unfold parse at parsed ⊢
  dsimp only at parsed ⊢
  rw [issues]
  split at parsed
  · next none =>
    obtain rfl := Except.ok.inj parsed
    refine ⟨_, rfl, keys_of_alike alike, headers, ?_, countP_isComment_of_kept lines, leading_of_kept lines⟩
    show min _ 1 = min _ 1
    rw [headers]
  · cases parsed

end Lines

end Stencil
