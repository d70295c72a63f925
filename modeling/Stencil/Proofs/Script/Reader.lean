import Stencil.Proofs.Script.Literals
import Stencil.Proofs.Script.Statements
import Stencil.Script.Reader

/-!
# Trees are well quoted

The parsers of all goals keep to the source, by induction on how deep goals nest, and so the tree of a
script holds no string but as the script writes it.
-/

namespace Stencil.Script

open Std.Do

set_option mvcgen.warning false

variable {source : Source}

theorem sound_parserOf (n bound : Nat) : Deeper.Sound source ⟨parserOf n, bound⟩ := by
  induction n generalizing bound with
  | zero =>
    constructor
    · intro g
      mvcgen [parserOf]
    · mvcgen [parserOf]
  | succ n ih =>
    have deeper := ih n
    constructor
    · intro g
      cases g <;> mvcgen [parserOf]
      simp_all
    · mvcgen [parserOf]

@[spec]
theorem parserOf_spec (n : Nat) (g : Goal) : KeepsNode source (parserOf n g) :=
  (sound_parserOf n n).parse g

@[spec]
theorem statements_spec (n m : Nat) :
    Keeps source (statements n m) fun xs => ∀ ys ∈ xs, ∀ y ∈ ys, y.WellQuoted source := by
  induction m with
  | zero => mvcgen [statements]
  | succ m ih =>
    mvcgen [statements, ih]
    all_goals simp_all
    all_goals grind [Node.WellQuoted.part]

theorem wellQuoted_of_tree? {cs : List Char} {tree : Node} (h : tree? cs = some tree) :
    tree.WellQuoted ⟨cs⟩ := by
  unfold tree? at h
  generalize 4 * (cs.length + 16) = bound at h
  obtain ⟨⟨xs, cur⟩, read, built⟩ := Option.bind_eq_some_iff.1 h
  obtain rfl := Option.some.inj built
  have on : ∃ start, Cursor.On ⟨cs⟩ start ∧ statements bound bound start = some (xs, cur) := by
    refine ⟨_, ?_, read⟩
    split
    · exact ⟨['\ufeff'], rfl, rfl⟩
    · exact ⟨[], rfl, rfl⟩
  obtain ⟨start, on, read⟩ := on
  obtain ⟨-, well⟩ := keeps_iff.1 (statements_spec bound bound) start xs cur on read
  refine Node.wellQuoted_of (by decide) fun p among => ?_
  obtain ⟨ys, line, among⟩ := List.mem_flatten.1 among
  exact well ys line p among

/-! ### Plain literals -/

mutual

theorem Node.WellQuoted.below : ∀ {n m : Node}, n.WellQuoted source → m ∈ n.preorder → m.WellQuoted source
  | .mk form role start stop parts, m, well, among => by
    rw [preorder] at among
    rcases List.mem_cons.1 among with rfl | inside
    · exact well
    · exact wellQuoted_below_all (wellQuoted_mk.1 well).2 inside

theorem Node.wellQuoted_below_all : ∀ {ns : List Node} {m : Node}, (∀ n ∈ ns, n.WellQuoted source) →
    m ∈ preorderAll ns → m.WellQuoted source
  | [], m, _, among => by simp [preorderAll] at among
  | n :: ns, m, well, among => by
    obtain ⟨first, others⟩ := List.forall_mem_cons.1 well
    rw [preorderAll] at among
    rcases List.mem_append.1 among with here | later
    · exact first.below here
    · exact wellQuoted_below_all others later

end

/-- The only content of a string that is opened in the source directly follows the opening. -/
theorem start_of_content? {cs : List Char} {string opening content : Node} {others : List Node}
    (opened : Opened source string.parts) (named : string.named = opening :: others)
    (h : Literal.content? cs string = some content) : content.start = opening.stop := by
  obtain ⟨first, rest, _, _, _, parts, -, -, -, second, behind, rfl, begins⟩ := opened
  obtain ⟨opening', others', _, named', start, -, -, only, isContent⟩ := Literal.parts_of_content? h
  obtain ⟨rfl, rfl⟩ := List.cons.inj (named.symm.trans named')
  have second' : second.form.isNamed = true := by
    rcases begins with ⟨text, -⟩ | inner | ⟨ending, -⟩ <;> simp [Form.isNamed, *]
  rw [Node.named, parts] at named
  cases visible : first.form.isNamed with
  | false =>
    -- Behind an opening without a name no other part can be one.
    rw [List.filter_cons_of_neg (by simp [visible]), List.filter_cons_of_pos (by simpa using second')] at named
    obtain ⟨rfl, -⟩ := List.cons.inj named
    rcases begins with ⟨text, -⟩ | inner | ⟨ending, -⟩ <;> simp_all
  | true =>
    rw [List.filter_cons_of_pos (by simpa using visible), List.filter_cons_of_pos (by simpa using second')] at named
    obtain ⟨rfl, rfl⟩ := List.cons.inj named
    rcases begins with ⟨text, place⟩ | inner | ⟨ending, rfl⟩
    · rw [List.filter_cons_of_pos (by simp [text, Literal.isDelimiter])] at only
      obtain ⟨rfl, -⟩ := List.cons.inj only
      exact place
    · rw [List.filter_cons_of_pos (by simp [inner, Literal.isDelimiter])] at only
      obtain ⟨rfl, -⟩ := List.cons.inj only
      rw [inner] at isContent
      cases isContent
    · simp [ending, Literal.isDelimiter] at only

/-- In the tree of a script the contents of strings follow their quotes. -/
theorem contentsFollow_of_tree? {cs : List Char} {tree : Node} (parsed : tree? cs = some tree) :
    tree.ContentsFollow cs := by
  intro string among form opening others content named found
  have well := (wellQuoted_of_tree? parsed).below among
  obtain ⟨_, role, start, stop, parts⟩ := string
  obtain rfl : _ = Form.string := form
  exact start_of_content? ((Node.wellQuoted_mk.1 well).1 rfl) named found

end Stencil.Script
