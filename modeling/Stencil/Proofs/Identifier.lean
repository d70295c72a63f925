import Stencil.Identifier
import Mathlib.Data.Nat.Digits.Defs

/-!
# Identifiers and their texts

The digits of an identifier, cut into groups, are read as the same identifier.
-/

namespace Stencil

namespace Text

variable {p : Char → Bool} {w : List Char}

theorem splitBy_of_all_not (word : ∀ c ∈ w, p c = false) : splitBy p w = [w] := by
  induction w with
  | nil => rfl
  | cons c w ih =>
    have rest := ih fun d among => word d (List.mem_cons_of_mem c among)
    simp [splitBy, word c List.mem_cons_self, rest]

theorem splitBy_append_cons (word : ∀ c ∈ w, p c = false) {c : Char} (separator : p c = true)
    (cs : List Char) : splitBy p (w ++ c :: cs) = w :: splitBy p cs := by
  induction w with
  | nil => simp [splitBy, separator]
  | cons d w ih =>
    have rest := ih fun e among => word e (List.mem_cons_of_mem d among)
    simp [splitBy, word d List.mem_cons_self, rest]

end Text

namespace Json

theorem mapM_map {α β : Type} {read : β → Option α} {write : α → β} {as : List α}
    (inverse : ∀ a ∈ as, read (write a) = some a) : (as.map write).mapM read = some as := by
  induction as with
  | nil => rfl
  | cons a as ih =>
    have rest := ih fun b among => inverse b (List.mem_cons_of_mem a among)
    simp [inverse a List.mem_cons_self, rest]

theorem hexValue?_hexDigit {n : Nat} (small : n < 16) : hexValue? (hexDigit n) = some n := by
  have all : ∀ m : Fin 16, hexValue? (hexDigit m) = some m.val := by decide
  exact all ⟨n, small⟩

theorem hexDigit_ne_dash {n : Nat} (small : n < 16) : (hexDigit n == '-') = false := by
  have all : ∀ m : Fin 16, (hexDigit m == '-') = false := by decide
  exact all ⟨n, small⟩

end Json

namespace Identifier

def hexPlaces (x n : Nat) : List Nat := (List.range n).map fun k => x / 16 ^ (n - 1 - k) % 16

theorem hexPlaces_succ (x n : Nat) : hexPlaces x (n + 1) = x / 16 ^ n % 16 :: hexPlaces x n := by
  rw [hexPlaces, List.range_succ_eq_map, List.map_cons, List.map_map, hexPlaces]
  congr 1
  refine List.map_congr_left fun k _ => ?_
  show x / 16 ^ (n + 1 - 1 - (k + 1)) % 16 = x / 16 ^ (n - 1 - k) % 16
  congr 3
  omega

theorem lt_of_mem_hexPlaces {x n d : Nat} (h : d ∈ hexPlaces x n) : d < 16 := by
  obtain ⟨k, -, rfl⟩ := List.mem_map.1 h
  exact Nat.mod_lt _ (by decide)

theorem foldl_hexPlaces (x n front : Nat) :
    (hexPlaces x n).foldl (fun m d => 16 * m + d) front = front * 16 ^ n + x % 16 ^ n := by
  induction n generalizing front with
  | zero => simp [hexPlaces, Nat.mod_one]
  | succ n ih =>
    rw [hexPlaces_succ, List.foldl_cons, ih, Nat.mod_pow_succ, Nat.pow_succ]
    ring

theorem digits_eq (i : Identifier) : i.digits = (hexPlaces i.bits.toNat 32).map Json.hexDigit := by
  rw [digits, hexPlaces, List.map_map]
  rfl

theorem length_digits (i : Identifier) : i.digits.length = 32 := by
  rw [digits, List.length_map, List.length_range]

theorem ofDigits?_digits (i : Identifier) : ofDigits? i.digits = some i := by
  have values : i.digits.mapM Json.hexValue? = some (hexPlaces i.bits.toNat 32) := by
    rw [digits_eq]
    exact Json.mapM_map fun d place => Json.hexValue?_hexDigit (lt_of_mem_hexPlaces place)
  have inside : i.bits.toNat % 16 ^ 32 = i.bits.toNat := Nat.mod_eq_of_lt i.bits.isLt
  rw [ofDigits?, if_pos i.length_digits, values, Option.map_some, foldl_hexPlaces, Nat.zero_mul,
    Nat.zero_add, inside, BitVec.ofNat_toNat]
  rfl

def group (i : Identifier) (start size : Nat) : List Char := (i.digits.drop start).take size

theorem not_dash_of_mem_group {i : Identifier} {start size : Nat} {c : Char}
    (h : c ∈ i.group start size) : (c == '-') = false := by
  have among := List.mem_of_mem_drop (List.mem_of_mem_take h)
  rw [digits_eq] at among
  obtain ⟨d, place, rfl⟩ := List.mem_map.1 among
  exact Json.hexDigit_ne_dash (lt_of_mem_hexPlaces place)

theorem group_append (i : Identifier) (start size size' : Nat) :
    i.group start size ++ i.group (start + size) size' = i.group start (size + size') := by
  rw [group, group, group, List.take_add, List.drop_drop]

theorem ofText?_text (i : Identifier) : ofText? i.text = some i := by
  have written : i.text.toList = i.group 0 8 ++ '-' :: (i.group 8 4 ++ '-' :: (i.group 12 4 ++
      '-' :: (i.group 16 4 ++ '-' :: i.group 20 12))) := by
    simp [text, group]
  have lengths : ∀ start size, start + size ≤ 32 → (i.group start size).length = size := by
    intro start size inside
    rw [group, List.length_take, List.length_drop, length_digits]
    omega
  have split : Text.splitBy (· == '-') i.text.toList =
      [i.group 0 8, i.group 8 4, i.group 12 4, i.group 16 4, i.group 20 12] := by
    rw [written]
    iterate 4 rw [Text.splitBy_append_cons (fun _ => not_dash_of_mem_group) rfl]
    rw [Text.splitBy_of_all_not fun _ => not_dash_of_mem_group]
  have flat : [i.group 0 8, i.group 8 4, i.group 12 4, i.group 16 4, i.group 20 12].flatten =
      i.digits := by
    have whole : i.group 0 32 = i.digits := List.take_of_length_le (by simp [length_digits])
    simp only [List.flatten_cons, List.flatten_nil, List.append_nil]
    rw [i.group_append 16 4 12, i.group_append 12 4 16, i.group_append 8 4 20,
      i.group_append 0 8 24, whole]
  have long : i.text.toList.length ≠ 32 := by
    rw [written]
    simp [lengths]
  have groups : ofGroups? i.text.toList = some i := by
    simp only [ofGroups?, split, flat, ofDigits?_digits]
    simp [lengths]
  simp [ofText?, ofDigits?, long, groups]

end Identifier

end Stencil
