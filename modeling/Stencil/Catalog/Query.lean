import Stencil.Record

/-!
# Queries

What is asked of a catalog. A field that is not given asks for nothing.
-/

namespace Stencil.Catalog

structure Query where
  category : Option Category := none
  environment : Option String := none
  beginning : Option String := none
  deriving Repr, DecidableEq, Inhabited

def Query.accepts (q : Query) (t : Template) : Bool :=
  q.category.all (t.category == ·) && q.environment.all t.fits &&
    q.beginning.all fun b => b.toList.isPrefixOf t.name.toList

def Query.ofJson? (j : Json) : Option Query := do
  let j ← j.asRecord? ["category", "environment", "name_prefix"]
  return {
    category := ← j.optional "category" Category.ofJson?,
    environment := ← j.optional "environment" Json.asString?,
    beginning := ← j.optional "name_prefix" Json.asString? }

structure RecordQuery where
  template : Option Identifier := none
  environment : Option String := none
  deriving Repr, DecidableEq, Inhabited

def RecordQuery.accepts (q : RecordQuery) (r : Record) : Bool :=
  q.template.all (r.template == ·) && q.environment.all (r.environment == ·)

def RecordQuery.ofJson? (j : Json) : Option RecordQuery := do
  let j ← j.asRecord? ["template_id", "environment"]
  return {
    template := ← j.optional "template_id" Identifier.ofJson?,
    environment := ← j.optional "environment" Json.asString? }

@[simp] theorem Query.accepts_all (t : Template) : ({} : Query).accepts t = true := rfl

@[simp] theorem RecordQuery.accepts_all (r : Record) : ({} : RecordQuery).accepts r = true := rfl

def listed (ts : List Template) : List Template := ts.mergeSort fun a b => (a.order b).isLE

def chronicle (rs : List Record) : List Record := rs.mergeSort fun a b => (a.order b).isLE

theorem mem_listed {t : Template} {ts : List Template} : t ∈ listed ts ↔ t ∈ ts :=
  List.mem_mergeSort

theorem mem_chronicle {r : Record} {rs : List Record} : r ∈ chronicle rs ↔ r ∈ rs :=
  List.mem_mergeSort

end Stencil.Catalog
