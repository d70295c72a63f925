import Stencil.Proofs.Grammar.Classes
import Stencil.Proofs.Text.Lines

/-!
# Texts one behind the other

Behind a line feed a text is read as if it stood alone, where nothing goes on from before: in an environment
file, and in a settings file that goes on with a header. So the text of both is read as the two together
(`parse_append`).
-/

namespace Stencil

/-- The issue of a text with `n` more lines in front of it. -/
def Issue.shift (n : Nat) (i : Issue) : Issue := ⟨⟨i.place.line + n, i.place.column⟩, i.fault⟩

namespace Lines

/-- A line that is neither blank nor a comment. -/
def isWeighty (line : List Char) : Bool := !Text.allBlank line && !Document.isComment line

/-! ### The lines of both -/

def Context.behind (style : Style) (ctx : Context) (lines : List (List Char)) : Context :=
  lines.foldl (fun ctx line => ctx.next (read style ctx line)) ctx

theorem readAll_append (style : Style) (ctx : Context) (xs ys : List (List Char)) :
    readAll style ctx (xs ++ ys) = readAll style ctx xs ++ readAll style (ctx.behind style xs) ys := by
  induction xs generalizing ctx with
  | nil => rfl
  | cons line xs ih => exact congrArg (_ :: ·) (ih _)

theorem length_readAll (style : Style) (ctx : Context) (lines : List (List Char)) :
    (readAll style ctx lines).length = lines.length := by
  induction lines generalizing ctx with
  | nil => rfl
  | cons line lines ih => exact congrArg (· + 1) (ih _)

theorem issuesFrom_add (style : Style) (n k : Nat) (found : List (Option (List Char) × Line)) :
    issuesFrom style (n + k) found = (issuesFrom style n found).map (Issue.shift k) := by
  induction found generalizing n with
  | nil => rfl
  | cons l found ih =>
    obtain ⟨heading, l⟩ := l
    have later := ih (n + 1)
    rw [show n + 1 + k = n + k + 1 by omega] at later
    cases l with
    | offending column => exact congrArg (_ :: ·) later
    | _ => exact later

theorem issuesFrom_append (style : Style) (n : Nat) (found found' : List (Option (List Char) × Line)) :
    issuesFrom style n (found ++ found') =
      issuesFrom style n found ++ issuesFrom style (n + found.length) found' := by
  simp only [issuesFrom_eq, List.map_append, List.zipIdx_append, List.filterMap_append, List.length_map]

/-! ### Contexts that make no difference -/

/-- Lines that are read as the same, with the same entries. -/
structure SameRead (found found' : List (Option (List Char) × Line)) : Prop where
  labels : found.map (·.2) = found'.map (·.2)
  entries : found.filterMap entry? = found'.filterMap entry?

namespace SameRead

variable {found found' : List (Option (List Char) × Line)}

/-- The section makes no difference for a line that is no setting. -/
theorem cons (same : SameRead found found') {l : Line} (plain : l.isSetting = false)
    (heading heading' : Option (List Char)) :
    SameRead ((heading, l) :: found) ((heading', l) :: found') := by
  have none (heading : Option (List Char)) : entry? (heading, l) = none := by
    cases l with
    | setting key value => cases plain
    | _ => cases heading <;> rfl
  refine ⟨?_, ?_⟩
  · rw [List.map_cons, List.map_cons, same.labels]
  · rw [List.filterMap_cons_none (none heading), List.filterMap_cons_none (none heading'), same.entries]

theorem issues (same : SameRead found found') (style : Style) (n : Nat) :
    issuesFrom style n found = issuesFrom style n found' := by
  rw [issuesFrom_eq, issuesFrom_eq, same.labels]

theorem headers (same : SameRead found found') :
    found.countP (fun l => l.2.isHeader) = found'.countP fun l => l.2.isHeader := by
  rw [countP_isHeader_eq, countP_isHeader_eq, same.labels]

end SameRead

theorem read_of_not_isWeighty {line : List Char} (quiet : isWeighty line = false) (style : Style) :
    ∃ l : Line, l.isSetting = false ∧ ∀ ctx, read style ctx line = l ∧ ctx.next l = ctx := by
  by_cases blank : Text.allBlank line = true
  · exact ⟨.blank, rfl, fun ctx => ⟨by simp [read, blank], rfl⟩⟩
  · have comment : Document.isComment line = true := by
      simpa [isWeighty, blank] using quiet
    exact ⟨.comment, rfl, fun ctx => ⟨by simp [read, blank, comment], rfl⟩⟩

theorem sameRead_settings {lines : List (List Char)}
    (begins : ∀ line, lines.find? isWeighty = some line → ∃ name, Headed line name) (ctx ctx' : Context) :
    SameRead (readAll .settings ctx lines) (readAll .settings ctx' lines) := by
  induction lines with
  | nil => exact ⟨rfl, rfl⟩
  | cons line lines ih =>
    by_cases weighty : isWeighty line = true
    · obtain ⟨name, headed⟩ := begins line (List.find?_cons_of_pos weighty)
      rw [readAll, readAll, read_of_headed headed, read_of_headed headed]
      exact SameRead.cons ⟨rfl, rfl⟩ rfl _ _
    · rw [Bool.not_eq_true] at weighty
      -- The line leaves both contexts as they are, so the hypothesis is about them again.
      obtain ⟨l, plain, quiet⟩ := read_of_not_isWeighty weighty .settings
      rw [readAll, readAll, (quiet ctx).1, (quiet ctx').1, (quiet ctx).2, (quiet ctx').2]
      refine SameRead.cons (ih fun later found => begins later ?_) plain _ _
      rw [List.find?_cons_of_neg (by simp [weighty]), found]

theorem heading?_next {ctx ctx' : Context} (same : ctx.heading? = ctx'.heading?) (l : Line) :
    (ctx.next l).heading? = (ctx'.next l).heading? := by
  cases l <;> simp [Context.next, same]

theorem readAll_environment {ctx ctx' : Context} (same : ctx.heading? = ctx'.heading?)
    (lines : List (List Char)) : readAll .environment ctx lines = readAll .environment ctx' lines := by
  induction lines generalizing ctx ctx' with
  | nil => rfl
  | cons line lines ih =>
    have alone : read .environment ctx line = read .environment ctx' line := rfl
    rw [readAll, readAll, same, alone, ih (heading?_next same _)]

theorem heading?_behind_environment (ctx : Context) (lines : List (List Char)) :
    (ctx.behind .environment lines).heading? = ctx.heading? := by
  induction lines generalizing ctx with
  | nil => rfl
  | cons line lines ih =>
    have stays : (ctx.next (read .environment ctx line)).heading? = ctx.heading? := by
      unfold read settingOr
      dsimp only
      split
      · rfl
      split
      · rfl
      split <;> rfl
    exact (ih _).trans stays

theorem sameRead_behind {style : Style} {lines : List (List Char)}
    (begins : style = .settings →
      ∀ line, lines.find? isWeighty = some line → ∃ name, Headed line name)
    (before : List (List Char)) :
    SameRead (readAll style (Context.behind style {} before) lines) (readAll style {} lines) := by
  cases style with
  | settings => exact sameRead_settings (begins rfl) _ _
  | environment =>
    rw [readAll_environment (heading?_behind_environment {} before) lines]
    exact ⟨rfl, rfl⟩

/-! ### The text of both -/

/-- The document of two texts of which the first has the lines `lines`. -/
def joinedDocument (lines : List (List Char)) (d d' : Document) : Document where
  entries := d.entries ++ d'.entries
  sections := d.sections + d'.sections
  depth := max d.depth d'.depth
  commentLines := d.commentLines + d'.commentLines
  leadingComment := if lines.all Text.allBlank then d'.leadingComment else d.leadingComment

def issuesIn : Except (List Issue) Document → List Issue
  | .ok _ => []
  | .error issues => issues

/-- What is read in two texts, of which the first has the lines `lines`: a document if both are documents, and
else the issues of both. -/
def joined (lines : List (List Char)) :
    (first second : Except (List Issue) Document) → Except (List Issue) Document
  | .ok d, .ok d' => .ok (joinedDocument lines d d')
  | first, second => .error (issuesIn first ++ (issuesIn second).map (Issue.shift lines.length))

theorem withComments_append {a : List Char} (ends : a.getLast? = some '\n') (b : List Char)
    (entries entries' : List Entry) (n k : Nat) :
    Document.withComments ⟨entries ++ entries', n + k, min (n + k) 1, 0, false⟩ (a ++ b) =
      joinedDocument (Text.lines a) (Document.withComments ⟨entries, n, min n 1, 0, false⟩ a)
        (Document.withComments ⟨entries', k, min k 1, 0, false⟩ b) := by
  have depth : min (n + k) 1 = max (min n 1) (min k 1) := by omega
  have leading : ((Text.lines a ++ Text.lines b).find? fun l => !Text.allBlank l).any Document.isComment =
      if (Text.lines a).all Text.allBlank then
        ((Text.lines b).find? fun l => !Text.allBlank l).any Document.isComment
      else ((Text.lines a).find? fun l => !Text.allBlank l).any Document.isComment := by
    rw [List.find?_append]
    by_cases blank : (Text.lines a).all Text.allBlank = true
    · have none : (Text.lines a).find? (fun l => !Text.allBlank l) = none :=
        List.find?_eq_none.2 fun line among => by simp [List.all_eq_true.1 blank line among]
      rw [if_pos blank, none, Option.none_or]
    · rw [if_neg blank]
      cases found : (Text.lines a).find? fun l => !Text.allBlank l with
      | some line => rfl
      | none =>
        refine absurd (List.all_eq_true.2 fun line among => ?_) blank
        simpa using List.find?_eq_none.1 found line among
  unfold Document.withComments joinedDocument
  rw [Text.lines_append ends]
  dsimp only
  rw [leading, List.countP_append, depth]

/-- A text and one behind it are read as the two together. -/
theorem parse_append (style : Style) {a b : List Char} (ends : a.getLast? = some '\n')
    (begins : style = .settings →
      ∀ line, (Text.lines b).find? isWeighty = some line → ∃ name, Headed line name) :
    parse style (a ++ b) = joined (Text.lines a) (parse style a) (parse style b) := by
  have behind := sameRead_behind begins (Text.lines a)
  unfold parse
  dsimp only
  rw [Text.lines_append ends, readAll_append, issuesFrom_append, length_readAll, issuesFrom_add,
    behind.issues, List.filterMap_append, behind.entries, List.countP_append, behind.headers,
    withComments_append ends]
  cases issuesFrom style 1 (readAll style {} (Text.lines a)) with
  | nil =>
    cases issuesFrom style 1 (readAll style {} (Text.lines b)) with
    | nil => rfl
    | cons i rest => rfl
  | cons i rest =>
    cases issuesFrom style 1 (readAll style {} (Text.lines b)) with
    | nil => rfl
    | cons j more => rfl

/-- A section is over where the next one begins, whatever stands between. -/
theorem parse_append_sections :
    parse .settings ("[log]\nlevel = 1\n noise\n".toList ++ "\n# next\n [db] \npath = 2\n".toList) =
      .ok ⟨[⟨"log.level", "1"⟩, ⟨"db.path", "2"⟩], 2, 1, 1, false⟩ := by
  rw [parse_append .settings (by decide) fun _ line first => ?_]
  · decide
  · obtain rfl := Option.some.inj (first.symm.trans (by decide : _ = some " [db] ".toList))
    exact ⟨"db".toList, [' '], [' '], by decide⟩

end Lines

end Stencil
