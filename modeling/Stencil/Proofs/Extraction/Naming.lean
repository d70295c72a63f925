import Mathlib.Data.List.Chain
import Mathlib.Data.List.TakeWhile
import Stencil.Extraction.Naming

/-!
# Names of variables, read again

What is written for a text are its runs of ASCII letters and digits in small letters, each cut before the capitals
that begin a new part, with single underscores between them (`written_eq_underscored`): the flag of the loop and its
last character only say where it stands in such a run. So a name is words with single underscores between them and
its own name, and texts which differ in the separators around their runs have the same one (`snakeCase_canonical`).
-/

namespace Stencil.Extraction

def isSeparator (c : Char) : Bool := !c.isAlphanum

def endsPart (c : Char) : Bool := c.isLower || c.isDigit

/-- A run of letters and digits in small letters, with an underscore before each new part; `after` says whether a
capital would begin one. -/
def writeRun (after : Bool) : List Char → List Char
  | [] => []
  | c :: cs =>
    if c.isUpper then (if after then ['_'] else []) ++ c.toLower :: writeRun false cs
    else c :: writeRun (endsPart c) cs

def runs (cs : List Char) : List (List Char) :=
  (Text.splitBy (fun c => !c.isAlphanum) cs).filter fun r => !r.isEmpty

def underscored (cs : List Char) : List Char := ['_'].intercalate ((runs cs).map (writeRun false))

/-- A part of a name: small letters and digits, at least one of them. -/
structure IsWord (w : List Char) : Prop where
  nonempty : w ≠ []
  small : ∀ c ∈ w, endsPart c = true

def joined (ws : List (List Char)) : List Char := ['_'].intercalate ws

variable {c : Char} {cs w name : List Char} {ws : List (List Char)}

theorem joined_singleton (w : List Char) : joined [w] = w := List.intercalate_singleton

theorem joined_cons_cons (w v : List Char) (ws : List (List Char)) :
    joined (w :: v :: ws) = w ++ '_' :: joined (v :: ws) := by
  rw [joined, List.intercalate_cons_cons, List.append_assoc]
  rfl

theorem joined_cons_left (c : Char) (w : List Char) (ws : List (List Char)) :
    joined ((c :: w) :: ws) = c :: joined (w :: ws) := List.intercalate_cons_cons_left

theorem joined_append (w : List Char) (ws : List (List Char)) (v : List Char) (vs : List (List Char)) :
    joined (w :: ws ++ v :: vs) = joined (w :: ws) ++ '_' :: joined (v :: vs) := by
  induction ws generalizing w with
  | nil => rw [List.singleton_append, joined_cons_cons, joined_singleton]
  | cons u ws ih =>
    rw [List.cons_append, List.cons_append, joined_cons_cons, ← List.cons_append, ih, joined_cons_cons,
      List.append_assoc]
    rfl

/-! ### Characters -/

theorem isLower_toLower (upper : c.isUpper = true) : c.toLower.isLower = true := by
  delta Char.isUpper at upper
  delta Char.isLower Char.toLower
  simp only [decide_eq_true_eq, UInt32.le_iff_toNat_le, ge_iff_le] at upper
  simp only [Bool.and_eq_true, decide_eq_true_eq, UInt32.le_iff_toNat_le, ge_iff_le]
  rw [dif_pos upper, UInt32.toNat_add]
  have capitals : 'A'.val.toNat = 65 ∧ 'Z'.val.toNat = 90 := ⟨rfl, rfl⟩
  have smalls : 'a'.val.toNat = 97 ∧ 'z'.val.toNat = 122 := ⟨rfl, rfl⟩
  have distance : ('a'.val - 'A'.val).toNat = 32 := rfl
  omega

theorem endsPart_toLower (upper : c.isUpper = true) : endsPart c.toLower = true := by
  rw [endsPart, isLower_toLower upper, Bool.true_or]

theorem isAlphanum_eq (c : Char) : c.isAlphanum = (c.isUpper || endsPart c) := Bool.or_assoc ..

theorem endsPart_of_not_isUpper (alphanum : c.isAlphanum = true) (small : c.isUpper = false) :
    endsPart c = true := by
  rwa [isAlphanum_eq, small, Bool.false_or] at alphanum

theorem isAlphanum_of_endsPart (h : endsPart c = true) : c.isAlphanum = true := by
  rw [isAlphanum_eq, h, Bool.or_true]

theorem isUpper_of_endsPart (h : endsPart c = true) : c.isUpper = false := by
  rw [Bool.eq_false_iff]
  intro upper
  rw [endsPart, Bool.or_eq_true] at h
  delta Char.isUpper at upper
  delta Char.isLower Char.isDigit at h
  simp only [Bool.and_eq_true, decide_eq_true_eq, UInt32.le_iff_toNat_le, ge_iff_le] at h upper
  have capitals : 'A'.val.toNat = 65 ∧ 'Z'.val.toNat = 90 := ⟨rfl, rfl⟩
  have smalls : 'a'.val.toNat = 97 ∧ 'z'.val.toNat = 122 := ⟨rfl, rfl⟩
  have digits : '0'.val.toNat = 48 ∧ '9'.val.toNat = 57 := ⟨rfl, rfl⟩
  omega

theorem ne_underscore_of_endsPart (h : endsPart c = true) : c ≠ '_' := by
  rintro rfl
  exact absurd h (by decide)

/-! ### Runs -/

theorem splitBy_append (p : Char → Bool) (separates : p c = true) (a b : List Char) :
    Text.splitBy p (a ++ c :: b) = Text.splitBy p a ++ Text.splitBy p b := by
  induction a with
  | nil => simp [Text.splitBy, separates]
  | cons d a ih =>
    rw [List.cons_append, Text.splitBy, Text.splitBy, ih]
    split
    · rfl
    · obtain ⟨first, rest, parts⟩ := List.exists_cons_of_ne_nil (Text.splitBy_ne_nil p a)
      rw [parts]
      rfl

theorem runs_append (separates : isSeparator c = true) (a b : List Char) :
    runs (a ++ c :: b) = runs a ++ runs b := by
  have split := splitBy_append (fun c => !c.isAlphanum) separates a b
  rw [runs, split, List.filter_append]
  rfl

theorem runs_cons (separates : isSeparator c = true) (cs : List Char) : runs (c :: cs) = runs cs :=
  runs_append separates [] cs

theorem runs_separators (separators : ∀ c ∈ cs, isSeparator c = true) : runs cs = [] := by
  induction cs with
  | nil => rfl
  | cons c cs ih =>
    rw [runs_cons (separators c List.mem_cons_self), ih fun d among => separators d (List.mem_cons_of_mem c among)]

theorem runs_of_alphanum (nonempty : w ≠ []) (alphanum : ∀ c ∈ w, c.isAlphanum = true) : runs w = [w] := by
  have whole : Text.splitBy (fun c => !c.isAlphanum) w = [w] := by
    clear nonempty
    induction w with
    | nil => rfl
    | cons c w ih =>
      rw [Text.splitBy, alphanum c List.mem_cons_self, ih fun d among => alphanum d (List.mem_cons_of_mem c among)]
      rfl
  rw [runs, whole]
  simp [nonempty]

theorem mem_runs {r : List Char} (among : r ∈ runs cs) : r ≠ [] ∧ ∀ c ∈ r, c.isAlphanum = true := by
  have split : ∀ r ∈ Text.splitBy (fun c => !c.isAlphanum) cs, ∀ c ∈ r, c.isAlphanum = true := by
    clear among
    induction cs with
    | nil => simp [Text.splitBy]
    | cons c cs ih =>
      obtain ⟨first, rest, parts⟩ := List.exists_cons_of_ne_nil (Text.splitBy_ne_nil (fun c => !c.isAlphanum) cs)
      rw [parts] at ih
      rw [Text.splitBy, parts]
      split
      · simpa using ih
      · next alphanum => simpa using ⟨⟨by simpa using alphanum, (List.forall_mem_cons.1 ih).1⟩,
          (List.forall_mem_cons.1 ih).2⟩
  obtain ⟨part, nonempty⟩ := List.mem_filter.1 among
  exact ⟨by simpa using nonempty, split r part⟩

/-! ### Words -/

theorem runs_joined (words : ∀ w ∈ ws, IsWord w) : runs (joined ws) = ws := by
  induction ws with
  | nil => rfl
  | cons w ws ih =>
    have first := words w List.mem_cons_self
    have run := runs_of_alphanum first.nonempty fun c among => isAlphanum_of_endsPart (first.small c among)
    have others := ih fun v among => words v (List.mem_cons_of_mem w among)
    cases ws with
    | nil => rw [joined_singleton, run]
    | cons v ws =>
      rw [joined_cons_cons, runs_append (by decide), run, others]
      rfl

theorem writeRun_of_small (after : Bool) (small : ∀ c ∈ w, endsPart c = true) : writeRun after w = w := by
  induction w generalizing after with
  | nil => rfl
  | cons c w ih =>
    obtain ⟨first, rest⟩ := List.forall_mem_cons.1 small
    rw [writeRun, if_neg (by simp [isUpper_of_endsPart first]), ih _ rest]

theorem underscored_joined (words : ∀ w ∈ ws, IsWord w) : underscored (joined ws) = joined ws := by
  have written : ws.map (writeRun false) = ws := by
    conv_rhs => rw [← List.map_id ws]
    exact List.map_congr_left fun w among => writeRun_of_small false (words w among).small
  rw [underscored, runs_joined words, written, joined]

theorem IsWord.cons (h : endsPart c = true) (word : IsWord w) : IsWord (c :: w) where
  nonempty := List.cons_ne_nil c w
  small := List.forall_mem_cons.2 ⟨h, word.small⟩

theorem isWord_singleton (h : endsPart c = true) : IsWord [c] where
  nonempty := List.cons_ne_nil c []
  small := List.forall_mem_cons.2 ⟨h, by simp⟩

/-- Behind a small letter or a digit the rest of a run is written as more of the same word and as words behind it. -/
theorem exists_words_writeRun (after : Bool) (alphanum : ∀ c ∈ cs, c.isAlphanum = true) {d : Char}
    (small : endsPart d = true) :
    ∃ w ws, d :: writeRun after cs = joined (w :: ws) ∧ ∀ v ∈ w :: ws, IsWord v := by
  induction cs generalizing after d with
  | nil => exact ⟨[d], [], by rw [writeRun, joined_singleton], by simpa using isWord_singleton small⟩
  | cons c cs ih =>
    obtain ⟨here, others⟩ := List.forall_mem_cons.1 alphanum
    -- What is written for `c` goes on with the word of `d`, or begins one of its own behind an underscore.
    have goesOn : ∀ {e : Char} (after : Bool), endsPart e = true →
        ∃ w ws, d :: e :: writeRun after cs = joined (w :: ws) ∧ ∀ v ∈ w :: ws, IsWord v := by
      intro e after small'
      obtain ⟨w, ws, written, words⟩ := ih after others small'
      obtain ⟨first, rest⟩ := List.forall_mem_cons.1 words
      exact ⟨d :: w, ws, by rw [written, joined_cons_left], List.forall_mem_cons.2 ⟨first.cons small, rest⟩⟩
    rw [writeRun]
    cases upper : c.isUpper with
    | false => exact goesOn _ (endsPart_of_not_isUpper here upper)
    | true =>
      cases after with
      | false => exact goesOn _ (endsPart_toLower upper)
      | true =>
        obtain ⟨w, ws, written, words⟩ := ih false others (endsPart_toLower upper)
        refine ⟨[d], w :: ws, ?_, List.forall_mem_cons.2 ⟨isWord_singleton small, words⟩⟩
        rw [joined_cons_cons, ← written]
        rfl

theorem exists_words_run {r : List Char} (nonempty : r ≠ []) (alphanum : ∀ c ∈ r, c.isAlphanum = true) :
    ∃ w ws, writeRun false r = joined (w :: ws) ∧ ∀ v ∈ w :: ws, IsWord v := by
  cases r with
  | nil => exact absurd rfl nonempty
  | cons c r =>
    obtain ⟨first, rest⟩ := List.forall_mem_cons.1 alphanum
    rw [writeRun]
    cases upper : c.isUpper with
    | false => exact exists_words_writeRun _ rest (endsPart_of_not_isUpper first upper)
    | true => exact exists_words_writeRun _ rest (endsPart_toLower upper)

theorem exists_words_runs {r : List Char} {rs : List (List Char)}
    (each : ∀ s ∈ r :: rs, s ≠ [] ∧ ∀ c ∈ s, c.isAlphanum = true) :
    ∃ w ws, joined ((r :: rs).map (writeRun false)) = joined (w :: ws) ∧ ∀ v ∈ w :: ws, IsWord v := by
  induction rs generalizing r with
  | nil =>
    obtain ⟨nonempty, alphanum⟩ := each r List.mem_cons_self
    obtain ⟨w, ws, written, words⟩ := exists_words_run nonempty alphanum
    exact ⟨w, ws, by rw [List.map_singleton, joined_singleton, written], words⟩
  | cons s rs ih =>
    obtain ⟨⟨nonempty, alphanum⟩, others⟩ := List.forall_mem_cons.1 each
    obtain ⟨w, ws, written, words⟩ := exists_words_run nonempty alphanum
    obtain ⟨v, vs, behind, words'⟩ := ih others
    refine ⟨w, ws ++ v :: vs, ?_, List.forall_mem_append.2 ⟨words, words'⟩⟩
    rw [← List.cons_append, joined_append, ← written, ← behind]
    exact joined_cons_cons _ _ _

theorem exists_words (cs : List Char) : ∃ ws, underscored cs = joined ws ∧ ∀ w ∈ ws, IsWord w := by
  have each : ∀ r ∈ runs cs, r ≠ [] ∧ ∀ c ∈ r, c.isAlphanum = true := fun r => mem_runs
  rw [underscored]
  cases rs : runs cs with
  | nil => exact ⟨[], rfl, by simp⟩
  | cons r rs' =>
    rw [rs] at each
    obtain ⟨w, ws, written, words⟩ := exists_words_runs each
    exact ⟨w :: ws, written, words⟩

/-! ### Names -/

def Single (a b : Char) : Prop := ¬(a = '_' ∧ b = '_')

/-- A name without capitals, and with single underscores inside of it only. -/
structure IsTidy (name : List Char) : Prop where
  small : ∀ c ∈ name, c.isUpper = false
  single : name.IsChain Single
  front : name.head? ≠ some '_'
  back : name.getLast? ≠ some '_'

theorem IsWord.isTidy (word : IsWord w) : IsTidy w where
  small c among := isUpper_of_endsPart (word.small c among)
  single := by
    refine List.Pairwise.isChain (List.pairwise_of_forall_mem_list fun a first b _ => ?_)
    exact fun both => ne_underscore_of_endsPart (word.small a first) both.1
  front same := ne_underscore_of_endsPart (word.small _ (List.mem_of_head? same)) rfl
  back same := ne_underscore_of_endsPart (word.small _ (List.mem_of_getLast? same)) rfl

theorem joined_ne_nil (word : IsWord w) (ws : List (List Char)) : joined (w :: ws) ≠ [] := by
  obtain ⟨c, w, rfl⟩ := List.exists_cons_of_ne_nil word.nonempty
  rw [joined_cons_left]
  exact List.cons_ne_nil c _

theorem IsTidy.append (word : IsWord w) {rest : List Char} (nonempty : rest ≠ []) (tidy : IsTidy rest) :
    IsTidy (w ++ '_' :: rest) where
  small c among := by
    rcases List.mem_append.1 among with first | behind
    · exact word.isTidy.small c first
    · rcases List.mem_cons.1 behind with rfl | later
      · rfl
      · exact tidy.small c later
  single := by
    have behind : ('_' :: rest).IsChain Single := by
      refine List.isChain_cons.2 ⟨fun c first both => ?_, tidy.single⟩
      exact tidy.front (both.2 ▸ first)
    refine List.isChain_append.2 ⟨word.isTidy.single, behind, fun c last d _ both => ?_⟩
    exact word.isTidy.back (both.1 ▸ last)
  front := by
    rw [List.head?_append_of_ne_nil _ word.nonempty]
    exact word.isTidy.front
  back := by
    rw [List.getLast?_append_of_ne_nil _ (List.cons_ne_nil '_' rest), List.getLast?_cons_of_ne_nil nonempty]
    exact tidy.back

theorem isTidy_joined (words : ∀ w ∈ ws, IsWord w) : IsTidy (joined ws) := by
  induction ws with
  | nil => exact ⟨by simp [joined], by simp [joined], by simp [joined], by simp [joined]⟩
  | cons w ws ih =>
    obtain ⟨word, others⟩ := List.forall_mem_cons.1 words
    cases ws with
    | nil =>
      rw [joined_singleton]
      exact word.isTidy
    | cons v ws =>
      rw [joined_cons_cons]
      exact .append word (joined_ne_nil (others v List.mem_cons_self) ws) (ih others)

/-! ### Separators -/

/-- Texts with the same runs of letters and digits, one after the other, and any separators around them. -/
inductive Respaced : List Char → List Char → Prop
  | blank {s t : List Char} (separators : s.all isSeparator = true) (separators' : t.all isSeparator = true) :
      Respaced s t
  | run {s t r a b : List Char} (separators : s.all isSeparator = true) (separators' : t.all isSeparator = true)
      (nonempty : r ≠ []) (alphanum : r.all Char.isAlphanum = true) (apart : a.head?.all isSeparator = true)
      (apart' : b.head?.all isSeparator = true) (rest : Respaced a b) : Respaced (s ++ r ++ a) (t ++ r ++ b)

theorem runs_run {s r a : List Char} (separators : s.all isSeparator = true) (nonempty : r ≠ [])
    (alphanum : r.all Char.isAlphanum = true) (apart : a.head?.all isSeparator = true) :
    runs (s ++ r ++ a) = r :: runs a := by
  induction s with
  | nil =>
    have alone := runs_of_alphanum nonempty (List.all_eq_true.1 alphanum)
    cases a with
    | nil => rw [List.append_nil, List.nil_append, alone]; rfl
    | cons c a =>
      have separates : isSeparator c = true := apart
      rw [List.nil_append, runs_append separates, alone, runs_cons separates]
      rfl
  | cons c s ih =>
    rw [List.all_cons, Bool.and_eq_true] at separators
    rw [List.cons_append, List.cons_append, runs_cons separators.1, ih separators.2]

theorem Respaced.runs_eq {a b : List Char} (h : Respaced a b) : runs a = runs b := by
  induction h with
  | blank separators separators' =>
    rw [runs_separators (List.all_eq_true.1 separators), runs_separators (List.all_eq_true.1 separators')]
  | run separators separators' nonempty alphanum apart apart' _ ih =>
    rw [runs_run separators nonempty alphanum apart, runs_run separators' nonempty alphanum apart', ih]

/-! ### The loop -/

theorem exists_words_ne_nil {r : List Char} (nonempty : r ≠ []) (alphanum : ∀ c ∈ r, c.isAlphanum = true) :
    writeRun false r ≠ [] ∧ (writeRun false r).getLast? ≠ some '_' := by
  obtain ⟨w, ws, written, words⟩ := exists_words_run nonempty alphanum
  rw [written]
  exact ⟨joined_ne_nil (words w List.mem_cons_self) ws, (isTidy_joined words).back⟩

/-- A run adds what `writeRun` says, whatever stands before it. -/
theorem exists_foldl_run {r : List Char} (alphanum : ∀ c ∈ r, c.isAlphanum = true) (out : List Char)
    (after : Bool) :
    ∃ after', r.foldl Naming.next ⟨out, after⟩ = ⟨out ++ writeRun after r, after'⟩ := by
  induction r generalizing out after with
  | nil => exact ⟨after, by rw [writeRun, List.append_nil]; rfl⟩
  | cons c r ih =>
    obtain ⟨first, rest⟩ := List.forall_mem_cons.1 alphanum
    rw [List.foldl_cons, writeRun]
    cases upper : c.isUpper with
    | true =>
      obtain ⟨after', ends⟩ := ih rest ((if after then out ++ ['_'] else out) ++ [c.toLower]) false
      refine ⟨after', ?_⟩
      rw [Naming.next, if_pos upper, ends]
      cases after <;> simp
    | false =>
      obtain ⟨after', ends⟩ := ih rest (out ++ [c]) (endsPart c)
      refine ⟨after', ?_⟩
      have step : Naming.next ⟨out, after⟩ c = ⟨out ++ [c], endsPart c⟩ := by
        simp [Naming.next, upper, first, endsPart]
      rw [step, ends, List.append_assoc]
      rfl

theorem next_separator (separates : isSeparator c = true) (n : Naming) :
    n.next c = ⟨if n.out.getLast? != some '_' && !n.out.isEmpty then n.out ++ ['_'] else n.out, false⟩ := by
  have other : c.isAlphanum = false := by simpa [isSeparator] using separates
  have small : c.isUpper = false := by
    rw [isAlphanum_eq, Bool.or_eq_false_iff] at other
    exact other.1
  simp [Naming.next, small, other]

/-- Nothing is written for separators in front of the first run and behind an underscore. -/
theorem foldl_separators {s out : List Char} (separators : s.all isSeparator = true)
    (settled : out = [] ∨ out.getLast? = some '_') : s.foldl Naming.next ⟨out, false⟩ = ⟨out, false⟩ := by
  induction s with
  | nil => rfl
  | cons c s ih =>
    rw [List.all_cons, Bool.and_eq_true] at separators
    have stays : Naming.next ⟨out, false⟩ c = ⟨out, false⟩ := by
      rw [next_separator separators.1]
      rcases settled with rfl | last
      · rfl
      · simp [last]
    rw [List.foldl_cons, stays, ih separators.2]

/-- The first run of a text, with the separators on both sides of it. -/
theorem exists_first_run (cs : List Char) : cs.all isSeparator = true ∨ ∃ s r a, cs = s ++ r ++ a ∧
    s.all isSeparator = true ∧ r ≠ [] ∧ r.all Char.isAlphanum = true ∧ a.head?.all isSeparator = true := by
  rcases rest : cs.dropWhile isSeparator with _ | ⟨c, behind⟩
  · exact .inl (List.all_eq_true.2 fun c among => List.dropWhile_eq_nil_iff.1 rest c among)
  · have letter : c.isAlphanum = true := by
      have stops := List.head?_dropWhile_not isSeparator cs
      rw [rest] at stops
      simpa [isSeparator] using stops
    refine .inr ⟨cs.takeWhile isSeparator, c :: behind.takeWhile Char.isAlphanum, behind.dropWhile Char.isAlphanum,
      ?_, List.all_takeWhile, List.cons_ne_nil _ _, ?_, ?_⟩
    · rw [List.append_assoc, List.cons_append, List.takeWhile_append_dropWhile, ← rest,
        List.takeWhile_append_dropWhile]
    · rw [List.all_cons, letter, List.all_takeWhile, Bool.and_true]
    · have stops := List.head?_dropWhile_not Char.isAlphanum behind
      cases first : (behind.dropWhile Char.isAlphanum).head? with
      | none => rfl
      | some d =>
        rw [first] at stops
        simpa [isSeparator] using stops

/-- Behind an underscore, or at the very front, a text writes its runs with underscores between them, and one behind
the last of them when separators end the text. -/
theorem exists_foldl_out (cs out : List Char) (settled : out = [] ∨ out.getLast? = some '_') :
    ∃ trail, (trail = [] ∨ runs cs ≠ [] ∧ trail = ['_']) ∧
      (cs.foldl Naming.next ⟨out, false⟩).out = out ++ underscored cs ++ trail := by
  induction length : cs.length using Nat.strongRecOn generalizing cs out with | ind n ih =>
  rcases exists_first_run cs with separators | ⟨s, r, a, rfl, separators, nonempty, alphanum, apart⟩
  · refine ⟨[], .inl rfl, ?_⟩
    rw [foldl_separators separators settled, underscored, runs_separators (List.all_eq_true.1 separators)]
    simp
  · have here : runs (s ++ r ++ a) = r :: runs a := runs_run separators nonempty alphanum apart
    obtain ⟨after, ends⟩ := exists_foldl_run (List.all_eq_true.1 alphanum) out false
    obtain ⟨word, open'⟩ := exists_words_ne_nil nonempty (List.all_eq_true.1 alphanum)
    rw [List.foldl_append, List.foldl_append, foldl_separators separators settled, ends, underscored, here,
      List.map_cons, ← joined]
    cases a with
    | nil => exact ⟨[], .inl rfl, by simp [runs, Text.splitBy, joined]⟩
    | cons c a =>
      have closed : Naming.next ⟨out ++ writeRun false r, after⟩ c =
          ⟨out ++ writeRun false r ++ ['_'], false⟩ := by
        rw [next_separator apart]
        simp [List.getLast?_append_of_ne_nil _ word, open', word]
      have shorter : a.length < n := by
        simp only [List.length_append, List.length_cons] at length
        omega
      obtain ⟨trail, last, rest⟩ := ih a.length shorter a (out ++ writeRun false r ++ ['_']) (.inr (by simp)) rfl
      rw [List.foldl_cons, closed, rest, runs_cons apart, underscored, ← joined]
      cases others : runs a with
      | nil =>
        have none : trail = [] := last.resolve_right fun behind => behind.1 others
        exact ⟨['_'], .inr ⟨by simp, rfl⟩, by simp [none, joined]⟩
      | cons v vs =>
        refine ⟨trail, last.imp_right fun behind => ⟨by simp, behind.2⟩, ?_⟩
        rw [List.map_cons, joined_cons_cons]
        simp

theorem dropWhile_underscore (front : name.head? ≠ some '_') : name.dropWhile (· == '_') = name := by
  cases name with
  | nil => rfl
  | cons c cs => rw [List.dropWhile_cons_of_neg]; simpa using front

theorem trimMatches_append {trail : List Char} (tidy : IsTidy name) (only : trail = [] ∨ trail = ['_']) :
    Text.trimMatches (· == '_') (name ++ trail) = name := by
  have back : name.reverse.head? ≠ some '_' := by
    rw [List.head?_reverse]
    exact tidy.back
  cases name with
  | nil => rcases only with rfl | rfl <;> rfl
  | cons c cs =>
    have front : (c :: cs ++ trail).dropWhile (· == '_') = c :: cs ++ trail := dropWhile_underscore tidy.front
    have behind : (c :: cs ++ trail).reverse.dropWhile (· == '_') = (c :: cs).reverse := by
      rw [List.reverse_append]
      rcases only with rfl | rfl
      · exact dropWhile_underscore back
      · exact dropWhile_underscore back
    rw [Text.trimMatches, front, behind, List.reverse_reverse]

/-- What the loop leaves of a text after trimming are its runs. -/
theorem written_eq_underscored (cs : List Char) : written cs = underscored cs := by
  obtain ⟨trail, last, ends⟩ := exists_foldl_out cs [] (.inl rfl)
  obtain ⟨ws, words, small⟩ := exists_words cs
  rw [written, Naming.start, ends, List.nil_append, words]
  exact trimMatches_append (isTidy_joined small) (last.imp_right And.right)

/-! ### Canonical names -/

/-- The name that a text gives, if it gives one, can name a placeholder, is tidy, and is its own name. Texts that
differ in their separators only give the same name. -/
theorem snakeCase_canonical :
    (∀ cs : List Char, snakeCase cs = none ∨ ∃ name, snakeCase cs = some name ∧
      Placeholder.isName name = true ∧ IsTidy name ∧ snakeCase name = some name) ∧
    ∀ a b : List Char, Respaced a b → snakeCase a = snakeCase b := by
  refine ⟨fun cs => ?_, fun a b same => ?_⟩
  · cases found : snakeCase cs with
    | none => exact .inl rfl
    | some name =>
      have valid := isName_of_snakeCase found
      obtain ⟨ws, words', words⟩ := exists_words cs
      have here : name = joined ws := by
        rw [snakeCase, written_eq_underscored, words'] at found
        split at found
        · exact (Option.some.inj found).symm
        · cases found
      subst here
      refine .inr ⟨_, rfl, valid, isTidy_joined words, ?_⟩
      rw [snakeCase, written_eq_underscored, underscored_joined words]
      exact if_pos valid
  · rw [snakeCase, snakeCase, written_eq_underscored, written_eq_underscored, underscored, underscored, same.runs_eq]

/-- Whatever separates the words, and whatever stands around them. -/
theorem snakeCase_canonical_dbPath :
    Respaced "DB-path".toList "_DB.ß path!".toList ∧ snakeCase "DB-path".toList = some "db_path".toList ∧
      snakeCase "_DB.ß path!".toList = some "db_path".toList := by
  have path : Respaced "-path".toList ".ß path!".toList :=
    .run (s := "-".toList) (t := ".ß ".toList) (r := "path".toList) (a := []) (b := "!".toList) (by decide) (by decide)
      (by decide) (by decide) (by decide) (by decide) (.blank (by decide) (by decide))
  have spaced : Respaced "DB-path".toList "_DB.ß path!".toList :=
    .run (s := []) (t := "_".toList) (r := "DB".toList) (by decide) (by decide) (by decide) (by decide) (by decide)
      (by decide) path
  have name : snakeCase "DB-path".toList = some "db_path".toList := by decide +kernel
  exact ⟨spaced, name, snakeCase_canonical.2 _ _ spaced ▸ name⟩

end Stencil.Extraction
