import Stencil.Categorization
import Stencil.Proofs.Text.Cut

/-!
# What decides a category

The rules on the file name stand in front of all others, and no rule gives the general category. So a name that
decides by itself decides whatever else is known, and a configuration always has a category of its own
(`categorize_agrees`).
-/

namespace Stencil.Categorization

variable {e e' : Evidence} {t : Test}

theorem passes_of_isOnName (onName : t.isOnName = true) (tokens : e.nameTokens = e'.nameTokens) :
    t.passes e = t.passes e' := by
  cases t with
  | nameToken keywords => simp only [Test.passes, tokens]
  | stepNumber => simp only [Test.passes, tokens]
  | content keywords => cases onName
  | tag tag => cases onName
  | configuration => cases onName

theorem passes_congr (tokens : e.nameTokens = e'.nameTokens) (front : e.front = e'.front)
    (tags : ∀ t, t ∈ e.tags ↔ t ∈ e'.tags) (config : e.isConfig = e'.isConfig) :
    t.passes e = t.passes e' := by
  cases t with
  | nameToken keywords => simp only [Test.passes, tokens]
  | stepNumber => simp only [Test.passes, tokens]
  | content keywords => simp only [Test.passes, front]
  | tag tag =>
    rw [Test.passes, Test.passes, Bool.eq_iff_iff, List.contains_iff_mem, List.contains_iff_mem]
    exact tags tag
  | configuration => exact config

/-! ### The table of rules -/

theorem names_first : rules.Pairwise fun r s => s.1.isOnName = true → r.1.isOnName = true := by decide

theorem category_ne_generalPurpose : ∀ r ∈ rules, r.2 ≠ .generalPurpose := by decide

/-- Where the eligible members of a list stand in front, the first of them that is hit is the first of all. -/
theorem find?_of_find?_filter {α : Type} {eligible hit hit' : α → Bool} {l : List α} {r : α}
    (ahead : l.Pairwise fun r s => eligible s = true → eligible r = true)
    (same : ∀ s, eligible s = true → hit s = hit' s)
    (found : (l.filter eligible).find? hit = some r) : l.find? hit' = some r := by
  induction l with
  | nil => cases found
  | cons d l ih =>
    obtain ⟨first, later⟩ := List.pairwise_cons.1 ahead
    by_cases chosen : eligible d = true
    · rw [List.filter_cons_of_pos chosen, List.find?_cons, same d chosen] at found
      rw [List.find?_cons]
      cases here : hit' d with
      | true => simpa [here] using found
      | false =>
        rw [here] at found
        exact ih later found
    · have none : l.filter eligible = [] :=
        List.filter_eq_nil_iff.2 fun s among able => chosen (first s among able)
      rw [List.filter_cons_of_neg chosen, none] at found
      cases found

theorem firstMatch_of_find? {rs : List (Test × Category)} {r : Test × Category}
    (found : rs.find? (fun r => r.1.passes e) = some r) : firstMatch e rs = r.2 := by
  rw [firstMatch, found]
  rfl

theorem exists_of_firstMatch {rs : List (Test × Category)} (special : firstMatch e rs ≠ .generalPurpose) :
    ∃ r, rs.find? (fun r => r.1.passes e) = some r := by
  cases found : rs.find? fun r => r.1.passes e with
  | none =>
    rw [firstMatch, found] at special
    exact absurd rfl special
  | some r => exact ⟨r, rfl⟩

theorem firstMatch_ne_generalPurpose {r : Test × Category} (among : r ∈ rules)
    (passed : r.1.passes e = true) : firstMatch e rules ≠ .generalPurpose := by
  have some : (rules.find? fun r => r.1.passes e).isSome = true := List.find?_isSome.2 ⟨r, among, passed⟩
  obtain ⟨first, found⟩ := Option.isSome_iff_exists.1 some
  rw [firstMatch_of_find? found]
  exact category_ne_generalPurpose first (List.mem_of_find?_eq_some found)

theorem firstMatch_names (tokens : e.nameTokens = e'.nameTokens)
    (special : firstMatch e (rules.filter fun r => r.1.isOnName) ≠ .generalPurpose) :
    firstMatch e' rules = firstMatch e (rules.filter fun r => r.1.isOnName) := by
  obtain ⟨r, found⟩ := exists_of_firstMatch special
  have first : rules.find? (fun r => r.1.passes e') = some r :=
    find?_of_find?_filter names_first (fun s onName => passes_of_isOnName onName tokens) found
  rw [firstMatch_of_find? found, firstMatch_of_find? first]

/-! ### Artifacts -/

theorem nameTokens_congr {a b : Artifact} (name : a.name = b.name) (tags tags' : List String) :
    (evidence a tags).nameTokens = (evidence b tags').nameTokens := by
  rw [evidence, evidence, name]

/-- A name that decides by itself decides for every artifact of that name; a configuration never has the general
category; and of the content and the analysis nothing counts but the front and the tags. -/
theorem categorize_agrees :
    (∀ (a b : Artifact) (tags : List String), a.name = b.name →
      categorizeByName a ≠ .generalPurpose → categorize b tags = categorizeByName a) ∧
    (∀ (a : Artifact) (tags : List String), a.kind.isScript = false →
      categorize a tags ≠ .generalPurpose) ∧
    ∀ (a b : Artifact) (tags tags' : List String) (front : List Char), a.name = b.name →
      a.kind = b.kind → Text.IsFront 2048 a.content.toList front →
      Text.IsFront 2048 b.content.toList front → (∀ t, t ∈ tags ↔ t ∈ tags') →
      categorize a tags = categorize b tags' := by
  refine ⟨?names, ?configurations, ?fronts⟩
  case names =>
    intro a b tags name special
    exact firstMatch_names (nameTokens_congr name [] tags) special
  case configurations =>
    intro a tags config
    have passed : Test.configuration.passes (evidence a tags) = true := by
      simp [Test.passes, evidence, config]
    exact firstMatch_ne_generalPurpose (r := (.configuration, .configuration)) (by decide) passed
  case fronts =>
    intro a b tags tags' front name kind cut cut' same
    have fronts : Text.takeBytes 2048 a.content.toList = Text.takeBytes 2048 b.content.toList := by
      rw [← cut.eq_takeBytes, ← cut'.eq_takeBytes]
    unfold categorize firstMatch
    have hits : (fun r : Test × Category => r.1.passes (evidence a tags)) =
        fun r => r.1.passes (evidence b tags') := by
      funext r
      refine passes_congr (nameTokens_congr name tags tags') ?_ same ?_
      · exact congrArg Text.lower fronts
      · exact congrArg (fun k : Kind => !k.isScript) kind
    rw [hits]

/-- A script whose bytes 2047 and 2048 are one character. -/
def straddling (tail : String) : Artifact :=
  { path := ⟨"src/sync.py"⟩
    content := String.ofList (List.replicate 2047 '#' ++ 'é' :: tail.toList)
    kind := .script }

theorem takeBytes_straddling (n : Nat) (tail : List Char) :
    Text.takeBytes (n + 1) (List.replicate n '#' ++ 'é' :: tail) = List.replicate n '#' := by
  induction n with
  | zero => rfl
  | succ n ih =>
    have size : '#'.utf8Size = 1 := by decide
    rw [List.replicate_succ, List.cons_append, Text.takeBytes, if_pos (by omega)]
    exact congrArg ('#' :: ·) ih

theorem isFront_straddling (tail : String) :
    Text.IsFront 2048 (straddling tail).content.toList (List.replicate 2047 '#') := by
  have cut := Text.isFront_takeBytes 2048 (List.replicate 2047 '#' ++ 'é' :: tail.toList)
  rw [takeBytes_straddling] at cut
  rw [straddling, String.toList_ofList]
  exact cut

theorem name_straddling (tail tail' : String) : (straddling tail).name = (straddling tail').name := by
  simp only [Artifact.name, straddling]

/-- A name with two keywords, a configuration without any, and contents that differ behind the front. -/
theorem categorize_agrees_straddling :
    let watch : Artifact := { path := ⟨"jobs/health-check.py"⟩, content := "def broken(:", kind := .script }
    let watching : Artifact := { path := ⟨"health-check.py"⟩, content := "import flask\n", kind := .script }
    let app : Artifact := { path := ⟨"app.yaml"⟩, content := "a: 1\n", kind := .config .yaml }
    (watch.name = watching.name ∧ categorizeByName watch ≠ .generalPurpose ∧
      categorize watching ["ENTERPRISE_COMPLIANCE"] = categorizeByName watch) ∧
    (app.kind.isScript = false ∧ categorize app [] ≠ .generalPurpose) ∧
    ((∀ t, t ∈ ["a", "b"] ↔ t ∈ ["b", "a"]) ∧
      categorize (straddling "import sqlite3\n") ["a", "b"] =
        categorize (straddling "import pytest\n") ["b", "a"]) := by
  intro watch watching app
  have name : watch.name = watching.name := by decide +kernel
  have special : categorizeByName watch ≠ .generalPurpose := by decide +kernel
  have tags : ∀ t, t ∈ ["a", "b"] ↔ t ∈ ["b", "a"] := fun t => by simp [or_comm]
  refine ⟨⟨name, special, ?_⟩, ⟨rfl, ?_⟩, tags, ?_⟩
  · exact categorize_agrees.1 watch watching _ name special
  · exact categorize_agrees.2.1 app [] rfl
  · exact categorize_agrees.2.2 _ _ _ _ _ (name_straddling _ _) rfl (isFront_straddling _)
      (isFront_straddling _) tags

end Stencil.Categorization
