import Mathlib
import Stencil.Proofs.Script.Cursors

/-!
# What parsers keep

A parser of scripts keeps its cursor on the source, and gives nodes whose strings begin as they are
written: behind the opening comes a text at once, or an interpolation, or the end. The specifications are
partial: they say what holds when a parser does not fail.
-/

namespace Stencil.Script

open Std.Do

set_option mvcgen.warning false

/-! ### Strings in trees -/

/-- The first part of a string behind its opening, whose end has the given offset. -/
def BeginsAt (offset : Nat) (parts : List Node) : Prop :=
  ∃ first rest, parts = first :: rest ∧
    ((first.form = .stringContent ∧ first.start = offset) ∨ first.form = .interpolation ∨
      (first.form = .stringEnd ∧ rest = []))

/-- The parts of a string: its opening is a piece of the source, and the others begin behind it. -/
def Opened (source : Source) (parts : List Node) : Prop :=
  ∃ opening rest before letters behind, parts = opening :: rest ∧
    source.text = before ++ (letters ++ behind) ∧ opening.start = Text.byteSize before ∧
    opening.stop = Text.byteSize (before ++ letters) ∧ BeginsAt opening.stop rest

mutual

/-- Every string in a tree is opened in the source. -/
def Node.WellQuoted (source : Source) : Node → Prop
  | .mk form _ _ _ parts => (form = .string → Opened source parts) ∧ AllWellQuoted source parts

def AllWellQuoted (source : Source) : List Node → Prop
  | [] => True
  | n :: ns => n.WellQuoted source ∧ AllWellQuoted source ns

end

variable {source : Source} {α : Type}

theorem allWellQuoted_iff {ns : List Node} :
    AllWellQuoted source ns ↔ ∀ n ∈ ns, n.WellQuoted source := by
  induction ns with
  | nil => simp [AllWellQuoted]
  | cons n ns ih => simp [AllWellQuoted, ih]

namespace Node

@[simp] theorem wellQuoted_mk {form : Form} {role : Option Role} {start stop : Nat}
    {parts : List Node} :
    (mk form role start stop parts).WellQuoted source ↔
      (form = .string → Opened source parts) ∧ ∀ p ∈ parts, p.WellQuoted source := by
  rw [WellQuoted, allWellQuoted_iff]

theorem wellQuoted_of {form : Form} {role : Option Role} {start stop : Nat} {parts : List Node}
    (other : form ≠ .string) (well : ∀ p ∈ parts, p.WellQuoted source) :
    (mk form role start stop parts).WellQuoted source :=
  wellQuoted_mk.2 ⟨fun same => absurd same other, well⟩

@[simp] theorem wellQuoted_withRole {role : Role} {n : Node} :
    (n.withRole role).WellQuoted source ↔ n.WellQuoted source := by
  cases n
  rw [withRole, wellQuoted_mk, wellQuoted_mk]

theorem WellQuoted.part {n p : Node} (h : n.WellQuoted source) (among : p ∈ n.parts) :
    p.WellQuoted source := by
  cases n
  exact (wellQuoted_mk.1 h).2 p among

end Node

/-! ### Specifications -/

/-- The parser keeps its cursor on the source, and what it gives has a property. -/
abbrev Keeps (source : Source) (p : Parse α) (Q : α → Prop) : Prop :=
  ⦃fun cur => ⌜cur.On source⌝⦄ p ⦃⇓? x => fun cur => ⌜cur.On source ∧ Q x⌝⦄

/-- The parser gives well quoted nodes. -/
abbrev KeepsNode (source : Source) (p : Parse Node) : Prop := Keeps source p (·.WellQuoted source)

abbrev KeepsNodes (source : Source) (p : Parse (List Node)) : Prop :=
  Keeps source p fun ns => ∀ n ∈ ns, n.WellQuoted source

/-- A specification says what holds of every run that does not fail. -/
theorem keeps_iff {p : Parse α} {Q : α → Prop} :
    Keeps source p Q ↔
      ∀ cur x cur', cur.On source → p cur = some (x, cur') → cur'.On source ∧ Q x := by
  have run : ∀ cur, ((wp p).apply (⇓? x => fun cur => ⌜cur.On source ∧ Q x⌝) cur).down ↔
      ∀ x cur', p cur = some (x, cur') → cur'.On source ∧ Q x := by
    intro cur
    show ((wp (p cur)).apply _).down ↔ _
    cases p cur with
    | none => exact ⟨fun _ _ _ h => (Option.some_ne_none _ h.symm).elim, fun _ => trivial⟩
    | some r =>
      constructor
      · rintro h x cur' same
        cases same
        exact h
      · exact fun h => h r.1 r.2 rfl
  exact ⟨fun keeps cur x cur' on => (run cur).1 (keeps cur on) x cur',
    fun holds cur on => (run cur).2 fun x cur' => holds cur x cur' on⟩

namespace Parse

@[spec]
theorem failure_spec {Q : PostCond α (.arg Cursor (.except PUnit .pure))} :
    ⦃fun _ => Q.2.1 ⟨⟩⦄ (failure : Parse α) ⦃Q⦄ := by
  intro cur h
  exact h

@[spec]
theorem orElse_spec {p q : Parse α} {Q : α → Prop} (hp : Keeps source p Q) (hq : Keeps source q Q) :
    Keeps source (p <|> q) Q := by
  rw [keeps_iff] at *
  intro cur x cur' on parsed
  replace parsed : (p cur).orElse (fun _ => q cur) = some (x, cur') := parsed
  cases first : p cur with
  | none =>
    rw [first] at parsed
    exact hq cur x cur' on parsed
  | some r =>
    rw [first] at parsed
    exact hp cur x cur' on (first.trans parsed)

@[spec]
theorem ahead_spec (e : Expectation) : Keeps source (ahead e) (·.On source) := by
  intro cur on
  exact ⟨on, on.ahead e⟩

@[spec]
theorem offset_spec : Keeps source offset fun _ => True := by
  mvcgen [offset]

@[spec]
theorem node_spec {form : Form} (start : Nat) {parts : List Node} (other : form ≠ .string)
    (well : ∀ p ∈ parts, p.WellQuoted source) : KeepsNode source (node form start parts) := by
  mvcgen [node]
  next on => exact ⟨on, Node.wellQuoted_of other well⟩

@[spec]
theorem take_spec (n : Nat) {cur : Cursor} (on : cur.On source) : Keeps source (take cur n) fun _ => True := by
  mvcgen [take]
  exact on.skip n

@[spec]
theorem settle_spec (e : Expectation) : Keeps source (settle e) (·.On source) := by
  mvcgen [settle] <;> simp_all

theorem many_keeps {p : Parse (Option α)} {Q : α → Prop} (keeps : Keeps source p fun x => ∀ y ∈ x, Q y)
    (n : Nat) : Keeps source (many n p) fun xs => ∀ x ∈ xs, Q x := by
  induction n with
  | zero => mvcgen [many]
  | succ n ih => mvcgen [many, ih, keeps] <;> simp_all

@[spec]
theorem many_node {p : Parse (Option Node)} (n : Nat)
    (keeps : Keeps source p fun x => ∀ y ∈ x, y.WellQuoted source) : KeepsNodes source (many n p) :=
  many_keeps keeps n

@[spec]
theorem many_nodes {p : Parse (Option (List Node))} (n : Nat)
    (keeps : Keeps source p fun x => ∀ ys ∈ x, ∀ y ∈ ys, y.WellQuoted source) :
    Keeps source (many n p) fun xs => ∀ ys ∈ xs, ∀ y ∈ ys, y.WellQuoted source :=
  many_keeps keeps n

@[spec]
theorem many_offset {p : Parse (Option Nat)} (n : Nat) (keeps : Keeps source p fun _ => True) :
    Keeps source (many n p) fun _ => True := by
  induction n with
  | zero => mvcgen [many]
  | succ n ih =>
    mvcgen [many, ih, keeps]
    all_goals simp_all

@[spec]
theorem mark_spec (s : String) (e : Expectation) : Keeps source (mark s e) fun _ => True := by
  mvcgen [mark] <;> simp_all

@[spec]
theorem mark?_spec (s : String) (e : Expectation) : Keeps source (mark? s e) fun _ => True := by
  mvcgen [mark?] <;> simp_all

@[spec]
theorem word_spec (s : String) (e : Expectation) : Keeps source (word s e) fun _ => True := by
  mvcgen [word] <;> simp_all

@[spec]
theorem word?_spec (s : String) (e : Expectation) : Keeps source (word? s e) fun _ => True := by
  mvcgen [word?] <;> simp_all

@[spec]
theorem name_spec (e : Expectation) : KeepsNode source (name e) := by
  mvcgen [name] <;> simp_all

theorem commaTail_keeps {item : Parse α} {Q : α → Prop} (e after : Expectation) (ends : Ahead → Bool)
    (keeps : Keeps source item Q) (n : Nat) :
    Keeps source (commaTail e after ends item n) fun r => ∀ x ∈ r.1, Q x := by
  induction n with
  | zero => mvcgen [commaTail]
  | succ n ih => mvcgen [commaTail, ih, keeps] <;> simp_all

@[spec]
theorem commaTail_node {item : Parse Node} (e after : Expectation) (ends : Ahead → Bool) (n : Nat)
    (keeps : KeepsNode source item) :
    Keeps source (commaTail e after ends item n) fun r => ∀ x ∈ r.1, x.WellQuoted source :=
  commaTail_keeps e after ends keeps n

end Parse

end Stencil.Script
