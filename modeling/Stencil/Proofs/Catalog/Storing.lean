import Stencil.Proofs.Catalog.Mirrors
import Stencil.Proofs.Template

/-!
# What a catalog in tables gives back

A template that is put into tables is answered as it was put, but for its times, and with every use counted, as
long as its document can be read and its count has a place in a word with sign. A count beyond that is read as
none. `put_comesBack_iff` says that nothing else is lost.
-/

namespace Stencil

theorem Decimal.isSignedWord_iff {i : Int} : isSignedWord 64 i = true ↔ -2 ^ 63 ≤ i ∧ i < 2 ^ 63 := by
  have half : Nat.pow 2 (64 - 1) = 2 ^ 63 := rfl
  unfold isSignedWord
  rw [half]
  split <;> rw [decide_eq_true_iff] <;> omega

/-! ### Counters -/

namespace Catalog.Counter

theorem iterate_next {k : Int} (low : -2 ^ 63 ≤ k) (high : k < 2 ^ 63) (n : Nat) :
    next^[n] (word k) = if k + n < 2 ^ 63 then word (k + n) else outgrown := by
  induction n with
  | zero => rw [Function.iterate_zero, id, Nat.cast_zero, add_zero, if_pos high]
  | succ n ih =>
    rw [Function.iterate_succ_apply', ih]
    by_cases earlier : k + n < 2 ^ 63
    · rw [if_pos earlier, next, Nat.cast_succ, ← add_assoc]
      refine if_congr ?_ rfl rfl
      rw [Decimal.isSignedWord_iff]
      omega
    · rw [if_neg earlier, if_neg (by push_cast; omega)]
      rfl

/-- A count that is put and used is read back as long as it has a place in a word with sign. -/
theorem usage?_iterate_iff {usage : UInt64} {n : Nat} (bounded : usage.toNat + n < 2 ^ 64) :
    (next^[n] (ofUsage usage)).usage? = some (usage + .ofNat n) ↔ usage.toNat + n < 2 ^ 63 := by
  have sum : (usage + .ofNat n).toNat = usage.toNat + n := by
    rw [UInt64.toNat_add, UInt64.toNat_ofNat', Nat.add_mod_mod]
    exact Nat.mod_eq_of_lt bounded
  have bits : usage.toBitVec.toInt =
      if usage.toNat < 2 ^ 63 then (usage.toNat : Int) else usage.toNat - 2 ^ 64 := by
    rw [BitVec.toInt_eq_toNat_cond]
    show (if 2 * usage.toNat < 2 ^ 64 then (usage.toNat : Int) else usage.toNat - (2 ^ 64 : Nat)) = _
    split <;> split <;> omega
  rw [ofUsage, bits]
  by_cases positive : usage.toNat < 2 ^ 63
  · rw [if_pos positive, iterate_next (by omega) (by omega)]
    by_cases fits : usage.toNat + n < 2 ^ 63
    · rw [if_pos (by exact_mod_cast fits), usage?]
      refine iff_of_true (congrArg some ?_) fits
      rw [← UInt64.toNat_inj, sum, ← Nat.cast_add, Int.toNat_natCast, UInt64.toNat_ofNat']
      exact Nat.mod_eq_of_lt bounded
    · rw [if_neg (by exact_mod_cast fits)]
      exact iff_of_false (fun same => by cases same) fits
  · -- The count is read as a negative word and stays below zero.
    rw [if_neg positive, iterate_next (by omega) (by omega), if_pos (by omega), usage?]
    refine iff_of_false (fun same => ?_) (by omega)
    have none : (usage.toNat : Int) - 2 ^ 64 + n < 0 := by omega
    rw [Int.toNat_of_nonpos none.le, Option.some.injEq, ← UInt64.toNat_inj, sum] at same
    have zero : (UInt64.ofNat 0).toNat = 0 := rfl
    omega

end Catalog.Counter

/-! ### Scores -/

namespace Decimal

open Float.Model (UnpackedFloat)

theorem compare_self {a : UnpackedFloat} (number : a.isNaN = false) : a.compare a = some .eq := by
  have parts : ∀ (e : Int) (m : Nat), (compare e e).then (compare m m) = .eq := fun e m =>
    Ordering.then_eq_eq.2 ⟨Std.ReflCmp.compare_self, Std.ReflCmp.compare_self⟩
  rcases a with (_ | _) | _ | _ | ⟨_ | _, m, e, _⟩
  case notANumber => cases number
  case finite.negative => exact congrArg (fun order => some order.swap) (parts e m)
  case finite.positive => exact congrArg some (parts e m)
  all_goals rfl

theorem isNaN_of_inPercent {x : Float} (h : inPercent x = true) : x.isNaN = false := by
  rw [inPercent, Bool.and_eq_true, decide_eq_true_iff] at h
  have low := le_iff.1 h.1
  cases unpacked : x.toModel.unpack with
  | notANumber =>
    rw [Float.Model.compare, unpacked] at low
    cases low
  | _ =>
    show x.toModel.unpack.isNaN = false
    rw [unpacked]
    rfl

end Decimal

theorem Catalog.storedScore_beq {score : Float} (number : score.isNaN = false) :
    (storedScore score == score) = true := by
  unfold storedScore
  split
  · next zero =>
    have equal := Decimal.beq_iff.1 zero
    rw [Float.Model.compare] at equal
    rw [Decimal.beq_iff, Float.Model.compare, Decimal.compare_swap, equal]
    rfl
  · exact Decimal.beq_iff.2 (Decimal.compare_self number)

/-- Templates that differ in their times only, where scores are compared as numbers. -/
structure Template.Equals (u t : Template) : Prop where
  plain : u.plain = t.plain
  usage : u.usage = t.usage
  complexity : (u.complexity == t.complexity) = true
  effectiveness : (u.effectiveness == t.effectiveness) = true

/-- A template whose document can be read and says its complexity. -/
def Template.Rereads (t : Template) : Prop :=
  ∃ j u, t.toJson? = some j ∧ ofJson? j.reread = some u ∧ (u.complexity == t.complexity) = true

namespace Catalog

/-! ### A row and its uses -/

/-- A row after some uses, perhaps touched in between. -/
structure TemplateRow.Used (first row : TemplateRow) (n : Nat) : Prop where
  face : row.face = first.face
  effectiveness : row.effectiveness = first.effectiveness
  usage : row.usage = Counter.next^[n] first.usage
  updatedAt : Instant.ofStamp? row.updatedAt ≠ none
  lastUsed : n = 0 ∧ row.lastUsed = first.lastUsed ∨
    n ≠ 0 ∧ ∃ time : Instant, time.Legible ∧ row.lastUsed = some time.stamp

namespace TemplateRow

variable {first row : TemplateRow} {n : Nat} {t : Template} {body : Json} {now : Instant}

theorem used_of (legible : now.Legible) : Used (.of t body now) (.of t body now) 0 where
  face := rfl
  effectiveness := rfl
  usage := rfl
  updatedAt := legible
  lastUsed := .inl ⟨rfl, rfl⟩

theorem Used.touch (h : first.Used row n) (legible : now.Legible) :
    first.Used { row with updatedAt := now.stamp } n :=
  { h with updatedAt := legible }

theorem Used.use (h : first.Used row n) (legible : now.Legible) :
    first.Used { row with usage := row.usage.next, lastUsed := some now.stamp } (n + 1) :=
  { h with
    usage := by rw [h.usage, Function.iterate_succ_apply']
    lastUsed := .inr ⟨n.succ_ne_zero, now, legible, rfl⟩ }

/-- What was put is read back with its uses iff nothing of it is lost. -/
theorem Used.read?_iff (h : (TemplateRow.of t body now).Used row n) (kept : encode t.toJson? = .ok body)
    (valid : t.validate = .ok ()) (bounded : t.usage.toNat + n < 2 ^ 64) :
    (∃ u, row.read? = some u ∧ u.Equals { t with usage := t.usage + .ofNat n }) ↔
      t.usage.toNat + n < 2 ^ 63 ∧ t.Rereads ∧ (n = 0 → ∀ time, t.lastUsed = some time → time.Legible) := by
  obtain ⟨j, written, rfl⟩ := exists_of_encode kept
  have body : row.body = j.reread := Except.ok.inj (congrArg (·.2.2) h.face)
  have counted : row.usage.usage? = some (t.usage + .ofNat n) ↔ t.usage.toNat + n < 2 ^ 63 := by
    rw [h.usage]
    exact Counter.usage?_iterate_iff bounded
  constructor
  · rintro ⟨_, read, same⟩
    obtain ⟨usage, counts, read⟩ := read?_eq_some_iff.1 read
    obtain ⟨u, updatedAt, lastUsed, document, -, used, rfl⟩ := template_eq_ok_iff.1 read
    have usage' : usage = t.usage + .ofNat n := same.usage
    refine ⟨counted.1 (usage' ▸ counts), ⟨j, u, written, body ▸ document, same.complexity⟩,
      fun unused time last => ?_⟩
    rcases h.lastUsed with ⟨-, unchanged⟩ | ⟨nonzero, -⟩
    · have stamp : row.lastUsed = t.lastUsed.map Instant.stamp := unchanged
      rw [stamp, last, Option.map_some, Option.map_some] at used
      intro lost
      rw [lost] at used
      cases lastUsed <;> cases used
    · exact absurd unused nonzero
  · rintro ⟨fits, ⟨j', u, written', document, complexity⟩, readable⟩
    obtain rfl := Option.some.inj (written.symm.trans written')
    obtain ⟨updatedAt, updated⟩ := Option.ne_none_iff_exists'.1 h.updatedAt
    obtain ⟨lastUsed, used⟩ : ∃ lastUsed : Option Instant,
        row.lastUsed.map Instant.ofStamp? = lastUsed.map some := by
      refine exists_stamp fun text last => ?_
      rcases h.lastUsed with ⟨unused, unchanged⟩ | ⟨-, time, legible, stamp⟩
      · rw [unchanged] at last
        obtain ⟨time, same, rfl⟩ := Option.map_eq_some_iff.1 last
        exact readable unused time same
      · rw [stamp] at last
        exact Option.some.inj last ▸ legible
    have stored : Template.ofJson? row.body = some u := by rw [body, document]
    have read : row.template (t.usage + .ofNat n) = .ok { u with
        effectiveness := row.effectiveness, usage := t.usage + .ofNat n, updatedAt, lastUsed } :=
      template_eq_ok_iff.2 ⟨u, updatedAt, lastUsed, stored, updated, used, rfl⟩
    refine ⟨_, read?_eq_some_iff.2 ⟨_, counted.2 fits, read⟩, ?_, rfl, complexity, ?_⟩
    · show u.plain = t.plain
      exact Template.plain_eq_of_reread written document
    · rw [h.effectiveness]
      exact storedScore_beq (Decimal.isNaN_of_inPercent (Template.valid_of_validate valid).effectiveness)

end TemplateRow

/-! ### Calls -/

namespace Relational

variable {r : Relational} {first row : TemplateRow} {id : Identifier} {n : Nat}

theorem find?_map_id {f : TemplateRow → TemplateRow} (ids : ∀ row, (f row).id = row.id)
    (found : (r.templates.find? fun row => row.id == id) = some row) :
    ((r.templates.map f).find? fun row => row.id == id) = some (f row) := by
  have same : ((fun row : TemplateRow => row.id == id) ∘ f) = fun row => row.id == id :=
    funext fun row => by rw [Function.comp_apply, ids]
  rw [List.find?_map, same, found]
  rfl

def usesIn (id : Identifier) (xs : List (Call × Instant)) : Nat := xs.countP fun x => x.1 == .recordUsage id

/-- A call touches a row, or counts a use of it, or leaves it alone, unless it gives it a new score. -/
theorem find?_perform (found : (r.templates.find? fun row => row.id == id) = some row)
    (used : first.Used row n) {call : Call} {now : Instant} (legible : now.Legible)
    (unscored : ∀ score, call ≠ .updateEffectiveness id score) :
    ∃ row', ((perform call now r).2.templates.find? fun row => row.id == id) = some row' ∧
      first.Used row' (n + usesIn id [(call, now)]) := by
  have named : row.id = id := by simpa using List.find?_some found
  by_cases counts : call = .recordUsage id
  · subst counts
    have held : (r.templates.any fun row => row.id == id) = true :=
      List.any_eq_true.2 ⟨row, List.mem_of_find?_eq_some found, beq_iff_eq.2 named⟩
    have one : usesIn id [(.recordUsage id, now)] = 1 := by simp [usesIn]
    refine ⟨_, ?_, one ▸ used.use legible⟩
    show ((recordUsage id now r).2.templates.find? _) = _
    rw [recordUsage, change, held]
    refine (find?_map_id (fun row => by split <;> rfl) found).trans ?_
    rw [if_pos named]
  · have none : usesIn id [(call, now)] = 0 := by simp [usesIn, counts]
    rw [none, Nat.add_zero]
    have change := change_perform call now r
    generalize (perform call now r).1 = reply, (perform call now r).2 = r' at change ⊢
    cases change with
    | refused e => exact ⟨row, found, used⟩
    | asked call asks answer => exact ⟨row, found, used⟩
    | @touched t body old kept held =>
      refine ⟨_, find?_map_id (fun row => by split <;> rfl) found, ?_⟩
      split
      · exact used.touch legible
      · exact used
    | stored kept new free => exact ⟨row, by rw [List.find?_append, found]; rfl, used⟩
    | @used id' held =>
      have other : row.id ≠ id' := fun same => counts (by rw [← named, same])
      refine ⟨_, find?_map_id (fun row => by split <;> rfl) found, ?_⟩
      rw [if_neg other]
      exact used
    | @rescored id' score number held =>
      have other : row.id ≠ id' := fun same => unscored score (by rw [← named, same])
      refine ⟨_, find?_map_id (fun row => by split <;> rfl) found, ?_⟩
      rw [if_neg other]
      exact used
    | environment valid => exact ⟨row, found, used⟩
    | recorded kept new => exact ⟨row, found, used⟩

theorem find?_run {xs : List (Call × Instant)} (found : (r.templates.find? fun row => row.id == id) = some row)
    (used : first.Used row n) (legible : ∀ x ∈ xs, x.2.Legible)
    (unscored : ∀ x ∈ xs, ∀ score, x.1 ≠ .updateEffectiveness id score) :
    ∃ row', ((run xs r).2.templates.find? fun row => row.id == id) = some row' ∧
      first.Used row' (n + usesIn id xs) := by
  induction xs generalizing r row n with
  | nil => exact ⟨row, found, used⟩
  | cons x xs ih =>
    obtain ⟨row', found', used'⟩ :=
      find?_perform found used (legible x List.mem_cons_self) (unscored x List.mem_cons_self)
    obtain ⟨last, found, used⟩ := ih found' used' (fun y among => legible y (List.mem_cons_of_mem x among))
      fun y among => unscored y (List.mem_cons_of_mem x among)
    refine ⟨last, found, ?_⟩
    have sum : usesIn id (x :: xs) = usesIn id [x] + usesIn id xs := by
      rw [usesIn, usesIn, usesIn, ← List.countP_append, List.singleton_append]
    rwa [sum, ← Nat.add_assoc]

/-- A new template is stored under its own identifier, unless its path is no text. After calls that give it no new
score it is answered as it was put, with its uses counted, iff its document can be read and says its complexity, the
count has a place in a word with sign, and some use was counted or the first one can be read. -/
theorem put_comesBack_iff {t : Template} {now : Instant} (valid : t.validate = .ok ())
    (newId : ∀ row ∈ r.templates, row.id ≠ t.id) (newKey : ∀ row ∈ r.templates, row.key ≠ t.key)
    (legible : now.Legible) :
    (¬ t.path.IsText → perform (.put t) now r = (.error unwritable, r)) ∧
    (t.path.IsText → ∃ r', perform (.put t) now r = (.ok t.id, r') ∧
      ∀ xs : List (Call × Instant), (∀ x ∈ xs, x.2.Legible) →
        (∀ x ∈ xs, ∀ score, x.1 ≠ .updateEffectiveness t.id score) →
        t.usage.toNat + usesIn t.id xs < 2 ^ 64 → ∀ later : Instant,
          ((∃ u, (perform (.get t.id) later (run xs r').2).1 = .ok u ∧
              u.Equals { t with usage := t.usage + .ofNat (usesIn t.id xs) }) ↔
            t.usage.toNat + usesIn t.id xs < 2 ^ 63 ∧ t.Rereads ∧
              (usesIn t.id xs = 0 → ∀ time, t.lastUsed = some time → time.Legible))) := by
  refine ⟨fun other => put_of_not_isText valid other now r, fun spelled => ?_⟩
  obtain ⟨body, kept⟩ := exists_encode spelled
  have absent : (r.templates.find? fun row => row.key == t.key) = none :=
    List.find?_eq_none.2 fun row among same => newKey row among (beq_iff_eq.1 same)
  have vacant : (r.templates.find? fun row => row.id == t.id) = none :=
    List.find?_eq_none.2 fun row among same => newId row among (beq_iff_eq.1 same)
  have free : (r.templates.any fun row => row.id == t.id) = false := by
    rw [← List.isSome_find?, vacant]
    rfl
  have stored : perform (.put t) now r =
      (.ok t.id, { r with templates := r.templates ++ [.of t body now] }) := by
    show put t now r = _
    unfold put
    simp only [templateDocument_eq valid, kept, absent, free]
    rfl
  refine ⟨_, stored, fun xs times unscored bounded later => ?_⟩
  have first : ((r.templates ++ [TemplateRow.of t body now]).find? fun row => row.id == t.id) =
      some (.of t body now) := by
    rw [List.find?_append, vacant, Option.none_or]
    exact List.find?_cons_of_pos (beq_self_eq_true t.id)
  obtain ⟨row, found, used⟩ := find?_run (r := { r with templates := r.templates ++ [.of t body now] }) first
    (TemplateRow.used_of legible) times unscored
  rw [Nat.zero_add] at used
  rw [← used.read?_iff kept valid bounded]
  refine exists_congr fun u => and_congr_left fun _ => ?_
  show (Relational.get t.id _).1 = .ok u ↔ _
  rw [get_eq_ok_iff, found]
  exact ⟨fun ⟨_, same, read⟩ => Option.some.inj same ▸ read, fun read => ⟨row, rfl, read⟩⟩

/-! ### A count that is lost -/

/-- A template with the first count that has no place in a word with sign. -/
def wornOut : Template := { Template.blank default "a" with usage := 9223372036854775808 }

/-- It is stored, and answered without its count. -/
theorem put_wornOut :
    wornOut.validate = .ok () ∧
      ∃ r', perform (.put wornOut) default ({} : Relational) = (.ok wornOut.id, r') ∧
        ∃ u, (perform (.get wornOut.id) default r').1 = .ok u ∧ u.usage = 0 ∧ ¬u.Equals wornOut := by
  have valid : wornOut.validate = .ok () := Template.validate_blank default (by decide)
  let row : TemplateRow := .of wornOut (wornOut.jsonAt (.str "")).reread default
  have read : row.read? = some { wornOut with usage := 0 } := by decide +kernel
  refine ⟨valid, { templates := [row] }, ?_, { wornOut with usage := 0 }, ?_, rfl, ?_⟩
  · show put wornOut default {} = _
    rw [put, templateDocument_eq valid]
    rfl
  · exact get_eq_ok_iff.2 ⟨row, rfl, read⟩
  · exact fun same => absurd same.usage (by decide)

/-- A template that can be used once more. -/
def wellUsed : Template := { Template.blank default "a" with usage := 9223372036854775806 }

theorem put_comesBack_iff_wellUsed :
    wellUsed.validate = .ok () ∧ (default : Instant).Legible ∧
      ∃ r', perform (.put wellUsed) default ({} : Relational) = (.ok wellUsed.id, r') ∧
        ∃ u, (perform (.get wellUsed.id) default
            (run [(.recordUsage wellUsed.id, default)] r').2).1 = .ok u ∧
          u.Equals { wellUsed with usage := 9223372036854775807 } := by
  have valid : wellUsed.validate = .ok () := Template.validate_blank default (by decide)
  have legible : (default : Instant).Legible := (Instant.legible_iff (by decide)).2 (by decide)
  have once : usesIn wellUsed.id [(.recordUsage wellUsed.id, default)] = 1 := by simp [usesIn]
  have rereads : wellUsed.Rereads :=
    ⟨wellUsed.jsonAt (.str ""), wellUsed, rfl, by decide +kernel, by decide +kernel⟩
  obtain ⟨r', stored, answered⟩ := (put_comesBack_iff (r := {}) (t := wellUsed) valid
    (fun row among => by cases among) (fun row among => by cases among) legible).2 ⟨"", rfl⟩
  have counted := answered [(.recordUsage wellUsed.id, default)]
    (fun x among => by obtain rfl := List.mem_singleton.1 among; exact legible)
    (fun x among score => by obtain rfl := List.mem_singleton.1 among; nofun)
    (by rw [once]; decide) default
  rw [once] at counted
  exact ⟨valid, legible, r', stored, counted.2 ⟨by decide, rereads, nofun⟩⟩

end Relational

end Catalog

end Stencil
