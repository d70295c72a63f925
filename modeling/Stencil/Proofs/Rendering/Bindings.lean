import Stencil.Proofs.Extraction.Substitution
import Stencil.Proofs.Rendering.Rescan

/-!
# What bindings decide

The first step looks up the names that the content marks, and nothing later looks up a binding. So without
rules the outcome of rendering is known in full (`render_unruled`), and with any rules the other bindings
are out of the game (`render_eq_of_agree`).
-/

namespace Stencil

namespace Placeholder

theorem find?_dedup (p : List Char → Bool) (ns seen : List (List Char)) :
    (ns.foldl (fun seen n => if seen.contains n then seen else seen ++ [n]) seen).find? p =
      (seen ++ ns).find? p := by
  induction ns generalizing seen with
  | nil => rw [List.foldl_nil, List.append_nil]
  | cons n ns ih =>
    rw [List.foldl_cons, ih]
    split
    · next known =>
      have before : n ∈ seen := by simpa using known
      rw [List.find?_append, List.find?_append]
      cases found : seen.find? p with
      | some m => rfl
      | none =>
        have refused := List.find?_eq_none.1 found n before
        rw [List.find?_cons_of_neg refused]
    · rw [List.append_assoc]
      rfl

theorem find?_names (p : List Char → Bool) (cs : List Char) :
    (names cs).find? p = (marked (segments cs)).find? p := find?_dedup p _ []

end Placeholder

namespace Template

open Placeholder (segments marked fill)

/-- Nothing can be put for a name: it is not bound, and it is required without a default. -/
def lacks (t : Template) (e : Environment) (name : List Char) : Bool :=
  (e.binding? (String.ofList name)).isNone &&
    (t.schema.get? (String.ofList name)).any fun v => v.required && v.default.isNone

/-! ### The first step -/

theorem value_of_lacks {t : Template} {e : Environment} {name : List Char} (lacking : t.lacks e name = true) :
    t.value e (String.ofList name) = .error (.unresolved (String.ofList name)) := by
  unfold lacks at lacking
  rw [Bool.and_eq_true, Option.isNone_iff_eq_none] at lacking
  obtain ⟨unbound, needed⟩ := lacking
  obtain ⟨v, declared, needed⟩ := (Option.any_eq_true _ _).1 needed
  rw [Bool.and_eq_true, Option.isNone_iff_eq_none] at needed
  unfold value fallback
  simp only [unbound, declared, needed.1, needed.2]

theorem value_of_not_lacks {t : Template} {e : Environment} {name : List Char}
    (declared : t.schema.contains (String.ofList name) = true) (supplied : t.lacks e name = false) :
    t.value e (String.ofList name) = .ok (String.ofList (t.filler e name)) := by
  obtain ⟨v, found⟩ := Option.isSome_iff_exists.1 declared
  unfold lacks at supplied
  unfold value filler default?
  rw [String.ofList_toList]
  cases bound : e.binding? (String.ofList name) with
  | some text => rfl
  | none =>
    rw [bound, found] at supplied
    unfold fallback
    rw [found]
    obtain ⟨type, required, default⟩ := v
    cases default with
    | some text => rfl
    | none =>
      cases required with
      | false => rfl
      | true => cases supplied

/-- The first step fails at the first name that lacks a value, and else fills all segments. -/
theorem substitute_eq {t : Template} (e : Environment) {segs : List Placeholder.Segment}
    (declared : ∀ name ∈ marked segs, t.schema.contains (String.ofList name) = true) :
    t.substitute e segs =
      match (marked segs).find? (t.lacks e) with
      | some name => .error (.unresolved (String.ofList name))
      | none => .ok (fill (t.filler e) segs) := by
  induction segs with
  | nil => rfl
  | cons s segs ih =>
    cases s with
    | literal text =>
      have same : marked (.literal text :: segs) = marked segs := rfl
      rw [substitute, ih declared, same]
      cases (marked segs).find? (t.lacks e) <;> rfl
    | escape =>
      have same : marked (.escape :: segs) = marked segs := rfl
      rw [substitute, ih declared, same]
      cases (marked segs).find? (t.lacks e) <;> rfl
    | placeholder name =>
      rw [Placeholder.marked_placeholder] at declared ⊢
      obtain ⟨here, later⟩ := List.forall_mem_cons.1 declared
      rw [substitute, ih later]
      cases lacking : t.lacks e name with
      | true =>
        rw [value_of_lacks lacking, List.find?_cons_of_pos lacking]
        rfl
      | false =>
        have passed : ¬t.lacks e name = true := by rw [lacking]; exact Bool.false_ne_true
        rw [value_of_not_lacks here lacking, List.find?_cons_of_neg passed]
        cases (marked segs).find? (t.lacks e) with
        | some other => rfl
        | none =>
          show Except.ok ((String.ofList (t.filler e name)).toList ++ fill (t.filler e) segs) = _
          rw [String.toList_ofList, Placeholder.fill_placeholder]

theorem checkDeclared_eq (t : Template) :
    t.checkDeclared =
      match (Placeholder.names t.content.toList).find? fun n => !t.schema.contains (String.ofList n) with
      | some name => .error (.undeclared (String.ofList name))
      | none => .ok () := by
  have same : undeclared? t.content t.schema =
      ((Placeholder.names t.content.toList).find? fun n => !t.schema.contains (String.ofList n)).map
        String.ofList := List.find?_map
  unfold checkDeclared
  rw [same]
  cases (Placeholder.names t.content.toList).find? fun n => !t.schema.contains (String.ofList n) <;> rfl

/-! ### Without rules -/

/-- Without rules, rendering refuses the first name that is not declared; if there is none, the first name
that lacks a value; and else it gives the content with every placeholder filled, whatever braces and
dollars the values hold. -/
theorem render_unruled (t : Template) {e : Environment} (unruled : e.rules = []) :
    t.render e =
      match (Placeholder.names t.content.toList).find? fun n => !t.schema.contains (String.ofList n) with
      | some name => .error (.undeclared (String.ofList name))
      | none =>
        match (Placeholder.names t.content.toList).find? (t.lacks e) with
        | some name => .error (.unresolved (String.ofList name))
        | none =>
          .ok ⟨t.id, e.name, t.kind, String.ofList (fill (t.filler e) (segments t.content.toList)), []⟩ := by
  have checked := t.checkDeclared_eq
  cases undeclared : (Placeholder.names t.content.toList).find?
      fun n => !t.schema.contains (String.ofList n) with
  | some name =>
    rw [undeclared] at checked
    unfold render
    rw [checked]
    rfl
  | none =>
    rw [undeclared] at checked
    have declared : ∀ name ∈ marked (segments t.content.toList),
        t.schema.contains (String.ofList name) = true := by
      intro name among
      have found := List.find?_eq_none.1 undeclared name (Placeholder.mem_names.2 among)
      simpa using found
    have first := substitute_eq e declared
    rw [← Placeholder.find?_names] at first
    cases lacking : (Placeholder.names t.content.toList).find? (t.lacks e) with
    | some name =>
      rw [lacking] at first
      unfold render
      rw [checked, first]
      rfl
    | none =>
      rw [lacking] at first
      exact render_of_substitute unruled checked first

/-- A template with a variable that needs a value, one with a default that looks like a placeholder, and one
that needs nothing. -/
def nested : Template :=
  { (default : Template) with
    content := "A=${a} B=${b} C=${c} $${d}\n"
    schema := .ofList [("a", ⟨.string, true, none⟩), ("b", ⟨.string, false, some "${a}"⟩),
      ("c", ⟨.string, false, none⟩)] }

/-- An environment with a value that looks like a placeholder and an escape. -/
def nestedValues : Environment := { name := "prod", bindings := .ofList [("a", "${b} $${c}")] }

theorem render_unruled_nested :
    (nestedValues.rules = [] ∧ nested.render nestedValues =
      .ok ⟨nested.id, "prod", nested.kind, "A=${b} $${c} B=${a} C= ${d}\n", []⟩) ∧
    ((Environment.identity "prod").rules = [] ∧
      nested.render (.identity "prod") = .error (.unresolved "a")) := by
  refine ⟨⟨rfl, ?_⟩, rfl, ?_⟩
  · rw [render_unruled nested rfl]
    decide +kernel
  · rw [render_unruled nested rfl]
    decide +kernel

/-! ### Bindings of other names -/

theorem substitute_eq_of_agree {t : Template} {e e' : Environment} {segs : List Placeholder.Segment}
    (agree : ∀ name ∈ marked segs, e.binding? (String.ofList name) = e'.binding? (String.ofList name)) :
    t.substitute e segs = t.substitute e' segs := by
  induction segs with
  | nil => rfl
  | cons s segs ih =>
    cases s with
    | literal text => rw [substitute, substitute, ih agree]
    | escape => rw [substitute, substitute, ih agree]
    | placeholder name =>
      rw [Placeholder.marked_placeholder] at agree
      obtain ⟨here, later⟩ := List.forall_mem_cons.1 agree
      rw [substitute, substitute, ih later]
      unfold value
      rw [here]

/-- Environments of one name with the same rules render a template to the same content or refuse it for the
same reason when they agree on the names that its content marks, whatever names the rules insert. -/
theorem render_eq_of_agree (t : Template) {e e' : Environment} (name : e.name = e'.name)
    (rules : e.rules = e'.rules)
    (agree : ∀ n ∈ Placeholder.names t.content.toList,
      e.binding? (String.ofList n) = e'.binding? (String.ofList n)) :
    t.render e = t.render e' := by
  have filled : t.filled e = t.filled e' := by
    unfold filled
    rw [substitute_eq_of_agree fun n among => agree n (Placeholder.mem_names.2 among)]
  have ruled : e.ruled = e'.ruled := by
    funext text
    unfold Environment.ruled
    rw [rules]
  rw [render_eq_filled, render_eq_filled, filled, ruled, name]

/-- A template that declares one name more than it marks. -/
def oneMark : Template :=
  { (default : Template) with
    content := "A=${a}\n"
    schema := .ofList [("a", ⟨.string, true, none⟩), ("b", ⟨.string, false, some "0"⟩)] }

/-- An environment whose rule inserts that name. -/
def appending (bindings : List (String × String)) : Environment :=
  { name := "prod", bindings := .ofList bindings, rules := [.append "B=${b}\n"] }

/-- The rule's name gets its default, whether it is bound or not. -/
theorem render_eq_of_agree_appending :
    let e := appending [("a", "1")]
    let e' := appending [("a", "1"), ("b", "2")]
    (e.name = e'.name ∧ e.rules = e'.rules ∧ e.binding? "b" ≠ e'.binding? "b" ∧
      ∀ n ∈ Placeholder.names oneMark.content.toList,
        e.binding? (String.ofList n) = e'.binding? (String.ofList n)) ∧
      oneMark.render e = oneMark.render e' ∧
      oneMark.render e = .ok ⟨oneMark.id, "prod", oneMark.kind, "A=1\nB=0\n", []⟩ := by
  have agree : ∀ n ∈ Placeholder.names oneMark.content.toList,
      (appending [("a", "1")]).binding? (String.ofList n) =
        (appending [("a", "1"), ("b", "2")]).binding? (String.ofList n) := by decide +kernel
  have rendered : oneMark.render (appending [("a", "1")]) =
      .ok ⟨oneMark.id, "prod", oneMark.kind, "A=1\nB=0\n", []⟩ := by decide +kernel
  have same : oneMark.render (appending [("a", "1")]) =
      oneMark.render (appending [("a", "1"), ("b", "2")]) := render_eq_of_agree oneMark rfl rfl agree
  exact ⟨⟨rfl, rfl, by decide +kernel, agree⟩, same, rendered⟩

end Template

end Stencil
