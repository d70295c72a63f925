import Stencil.Proofs.Script.Keeps
import Stencil.Script.Quoted

/-!
# Strings begin as they are written

The reader of a string opens it in the source, and puts its first text right behind the opening.
-/

namespace Stencil.Script

open Std.Do

set_option mvcgen.warning false

variable {source : Source} {d : Deeper}

/-- The parsers one level down keep to the source; what is read as an interpolation is one. -/
class Deeper.Sound (source : outParam Source) (d : Deeper) : Prop where
  parse : ∀ g, KeepsNode source (d.parse g)
  interpolation : Keeps source (d.parse .interpolation) fun n =>
    n.WellQuoted source ∧ n.form = .interpolation

namespace Deeper

@[spec]
theorem contents_spec (q : Quoting) (n : Nat) (fresh : Bool) : KeepsNodes source (contents q n fresh) := by
  induction n generalizing fresh with
  | zero => mvcgen [contents]
  | succ n ih =>
    mvcgen [contents, ih]
    case vc1 plain _ => exact Cursor.On.skipWhile ‹_› _
    all_goals simp_all

variable [sound : d.Sound source]

attribute [spec] Sound.parse

@[spec]
theorem stringParts_spec (q : Quoting) (n : Nat) :
    KeepsNodes source (d.stringParts q n) := by
  have interpolation := sound.interpolation
  induction n with
  | zero => mvcgen [stringParts]
  | succ n ih =>
    mvcgen [stringParts, ih, interpolation]
    all_goals simp_all +zetaDelta
    all_goals grind

/-- What is in front of other parts: a text, unless it is empty. -/
theorem begins_append {text : Node} (content : text.form = .stringContent)
    (well : text.WellQuoted source) (p : Prop) [Decidable p] {rest : List Node}
    (others : ∀ n ∈ rest, n.WellQuoted source) (begins : BeginsAt text.start rest) :
    (∀ n ∈ (if p then [text] else []) ++ rest, n.WellQuoted source) ∧
      BeginsAt text.start ((if p then [text] else []) ++ rest) := by
  split
  · exact ⟨List.forall_mem_cons.2 ⟨well, others⟩, text, rest, rfl, .inl ⟨content, rfl⟩⟩
  · exact ⟨others, begins⟩

theorem stringParts_begins (q : Quoting) (n offset : Nat) :
    ⦃fun cur => ⌜cur.On source ∧ cur.offset = offset⌝⦄ d.stringParts q n
    ⦃⇓? parts => fun cur =>
      ⌜cur.On source ∧ (∀ p ∈ parts, p.WellQuoted source) ∧ BeginsAt offset parts⌝⦄ := by
  have interpolation := sound.interpolation
  cases n with
  | zero => mvcgen [stringParts, -stringParts_spec]
  | succ n =>
    rw [stringParts]
    mvcgen [Parse.offset, Parse.node, interpolation, -Sound.parse, -Parse.node_spec, -Parse.offset_spec]
    case vc3 _ place _ _ facts _ _ =>
      obtain ⟨-, rfl⟩ := place
      obtain ⟨on, escapes⟩ := facts
      refine ⟨by simp [on], begins_append rfl (Node.wellQuoted_of ?_ escapes) _ (by simp)
        ⟨_, _, rfl, .inr (.inr ⟨rfl, rfl⟩)⟩⟩
      decide
    case vc6 _ place _ _ facts _ _ _ _ inner _ _ others =>
      obtain ⟨-, rfl⟩ := place
      refine ⟨others.1, begins_append rfl (Node.wellQuoted_of ?_ facts.2) _
        (List.forall_mem_cons.2 ⟨inner.2.1, others.2⟩) ⟨_, _, rfl, .inr (.inl inner.2.2)⟩⟩
      decide
    all_goals simp_all

theorem quoted_spec {cur : Cursor} (on : cur.On source) :
    KeepsNode source (d.quoted cur) := by
  cases found : Quoting.ofText? cur.rest with
  | none => mvcgen [quoted, found]
  | some opening =>
    obtain ⟨q, n⟩ := opening
    have begins := stringParts_begins (d := d) q d.bound (cur.skip n).offset
    unfold quoted
    rw [found]
    dsimp only
    mvcgen [Parse.offset, Parse.node, -Parse.node_spec, -Parse.offset_spec, -stringParts_spec, begins]
    case vc1 => simp [on]
    case vc2 parts _ facts =>
      obtain ⟨on', well, begins⟩ := facts
      obtain ⟨before, whole, place⟩ := on
      obtain ⟨letters, rest, stop⟩ := Cursor.exists_of_skip n cur
      refine ⟨on', Node.wellQuoted_mk.2 ⟨fun _ => ?_, ?_⟩⟩
      · refine ⟨_, parts, before, letters, (cur.skip n).rest, rfl, ?_, place, ?_, begins⟩
        · rw [whole, rest]
        · rw [Text.byteSize_append, ← place]
          exact stop
      · exact List.forall_mem_cons.2 ⟨by simp, well⟩

attribute [spec] quoted_spec

@[spec]
theorem strings_spec (a : Around) {cur : Cursor} (on : cur.On source) :
    KeepsNode source (d.strings a cur) := by
  mvcgen [strings] <;> simp_all

@[spec]
theorem specification_spec (n : Nat) : KeepsNodes source (d.specification n) := by
  induction n with
  | zero => mvcgen [specification]
  | succ n ih =>
    mvcgen [specification, ih] <;> simp_all +zetaDelta

end Deeper

end Stencil.Script
