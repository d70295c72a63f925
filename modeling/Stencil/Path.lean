import Stencil.Json.Fields
import Stencil.Text.Search

/-!
# Paths

What an operating system takes for a name are bytes, and they need not be those of a text. A path is
kept as it was written. Its components are what the file system sees: repeated slashes and dots inside
the path do not count, a leading slash and a leading dot do. Two spellings with the same components are
the same path. A path that is no text can be shown and compared, but it has no JSON form.
-/

namespace Stencil

/-- A name as an operating system has it. -/
structure OsText where
  bytes : List UInt8
  deriving Repr, DecidableEq, Inhabited

namespace OsText

def ofString (s : String) : OsText := ⟨s.toByteArray.data.toList⟩

instance : Coe String OsText := ⟨ofString⟩

instance : Append OsText := ⟨fun a b => ⟨a.bytes ++ b.bytes⟩⟩

instance : Ord OsText := ⟨compareOn bytes⟩

instance : Std.TransOrd OsText := inferInstanceAs (Std.TransCmp (compareOn bytes))

instance : Std.LawfulEqOrd OsText where
  compare_self := Std.ReflOrd.compare_self (α := List UInt8)
  eq_of_compare same := congrArg mk (Std.LawfulEqOrd.eq_of_compare same)

/-- The text that has the bytes, if there is one. -/
def text? (o : OsText) : Option String := String.fromUTF8? ⟨o.bytes.toArray⟩

/-! ### Bytes that are no text -/

/-- The ranges of the bytes that come after the first byte of a character, if it is one. -/
def later? (first : UInt8) : Option (List (UInt8 × UInt8)) :=
  let any : UInt8 × UInt8 := (0x80, 0xBF)
  if first < 0x80 then some []
  else if first < 0xC2 then none
  else if first < 0xE0 then some [any]
  else if first = 0xE0 then some [(0xA0, 0xBF), any]
  else if first = 0xED then some [(0x80, 0x9F), any]
  else if first < 0xF0 then some [any, any]
  else if first = 0xF0 then some [(0x90, 0xBF), any, any]
  else if first < 0xF4 then some [any, any, any]
  else if first = 0xF4 then some [(0x80, 0x8F), any, any]
  else none

/-- How many bytes lie in ranges, one after the other. -/
def fitting : List (UInt8 × UInt8) → List UInt8 → Nat
  | (low, high) :: ranges, b :: bs => if low ≤ b ∧ b ≤ high then fitting ranges bs + 1 else 0
  | _, _ => 0

/-- The character of its first byte and the later ones. -/
def character (first : UInt8) (later : List UInt8) : Char :=
  let lead := if later.isEmpty then first.toNat else first.toNat % Nat.pow 2 (6 - later.length)
  .ofNat (later.foldl (fun n b => 64 * n + b.toNat % 64) lead)

/-- The characters of bytes. Bytes that begin a character and do not end it are one replacement
character, and so is every other byte that is no part of a character. -/
def replaced : List UInt8 → List Char
  | [] => []
  | b :: bs =>
    match later? b with
    | none => '\ufffd' :: replaced bs
    | some ranges =>
      let n := fitting ranges bs
      let c := if n = ranges.length then character b (bs.take n) else '\ufffd'
      c :: replaced (bs.drop n)
termination_by bs => bs.length

/-- The name as it is shown. -/
def display (o : OsText) : String := o.text?.getD (String.ofList (replaced o.bytes))

theorem text?_eq_some_iff {o : OsText} {s : String} : o.text? = some s ↔ o = ofString s := by
  obtain ⟨bytes⟩ := o
  unfold text? String.fromUTF8? ofString
  constructor
  · intro h
    split at h
    · obtain rfl := Option.some.inj h
      rfl
    · cases h
  · intro same
    obtain rfl := OsText.mk.inj same
    have valid : ByteArray.IsValidUTF8 ⟨s.toByteArray.data.toList.toArray⟩ := by
      rw [Array.toArray_toList]
      exact s.isValidUTF8
    rw [dif_pos valid]
    refine congrArg some (String.toByteArray_inj.1 ?_)
    exact congrArg ByteArray.mk Array.toArray_toList

@[simp] theorem text?_ofString (s : String) : (ofString s).text? = some s := text?_eq_some_iff.2 rfl

@[simp] theorem display_ofString (s : String) : (ofString s).display = s := by
  rw [display, text?_ofString, Option.getD_some]

end OsText

/-- A path of a Unix file system, as written. -/
structure Path where
  spelling : OsText
  deriving Repr, DecidableEq, Inhabited

namespace Path

/-- The path as it is shown. -/
def text (p : Path) : String := p.spelling.display

/-- One step of a path; the constructors are in sorting order. -/
inductive Component where
  | root
  | here
  | parent
  | name (spelling : OsText)
  deriving Repr, DecidableEq, Inhabited

def slash : UInt8 := 0x2F

def dot : UInt8 := 0x2E

/-- The steps of a path after its first: empty steps and dots do not count. -/
def laterComponents (parts : List (List UInt8)) : List Component :=
  parts.filterMap fun part =>
    if part = [] ∨ part = [dot] then none
    else if part = [dot, dot] then some .parent
    else some (.name ⟨part⟩)

def components (p : Path) : List Component :=
  match Text.splitBy (· == slash) p.spelling.bytes with
  | [] => []
  | [] :: part :: parts => .root :: laterComponents (part :: parts)
  | part :: parts =>
    if part = [dot] then .here :: laterComponents parts else laterComponents (part :: parts)

def same (p q : Path) : Bool := p.components == q.components

def Component.rank : Component → Nat
  | root => 0
  | here => 1
  | parent => 2
  | name _ => 3

/-- Order of components: by kind, then by name. -/
def Component.compare : Component → Component → Ordering
  | name a, name b => Ord.compare a b
  | a, b => Ord.compare a.rank b.rank

/-- Order of lists of components, from the first on. -/
def compareComponents : List Component → List Component → Ordering
  | [], [] => .eq
  | [], _ :: _ => .lt
  | _ :: _, [] => .gt
  | a :: as, b :: bs => (a.compare b).then (compareComponents as bs)

def compare (p q : Path) : Ordering := compareComponents p.components q.components

def fileName? (p : Path) : Option OsText :=
  match p.components.getLast? with
  | some (.name spelling) => some spelling
  | _ => none

/-- A file name cut at its last dot; a name that begins with its only dot has no extension. -/
def cutExtension (name : OsText) : OsText × Option OsText :=
  let tail := name.bytes.reverse.takeWhile (· != dot)
  match name.bytes.reverse.dropWhile (· != dot) with
  | _ :: before@(_ :: _) => (⟨before.reverse⟩, some ⟨tail.reverse⟩)
  | _ => (name, none)

def fileStem? (p : Path) : Option OsText := p.fileName?.map fun name => (cutExtension name).1

def extension? (p : Path) : Option OsText := p.fileName?.bind fun name => (cutExtension name).2

/-- A path below another; an absolute path replaces it. -/
def join (p : Path) (q : OsText) : Path :=
  let front := p.spelling.bytes
  if q.bytes.head? = some slash ∨ front = [] then ⟨q⟩
  else if front.getLast? = some slash then ⟨p.spelling ++ q⟩
  else ⟨p.spelling ++ ⟨[slash]⟩ ++ q⟩

def Component.spelling : Component → OsText
  | root => "/"
  | here => "."
  | parent => ".."
  | name spelling => spelling

/-- The shortest spelling of a list of steps. -/
def ofComponents (cs : List Component) : Path := cs.foldl (fun p c => p.join c.spelling) ⟨""⟩

/-- The path without its last step, when that is not the root. -/
def parent? (p : Path) : Option Path :=
  match p.components.getLast? with
  | none | some .root => none
  | some _ => some (ofComponents p.components.dropLast)

/-- The steps of a path below another, when it lies there. -/
def relativeTo? (p base : Path) : Option Path :=
  let steps := base.components
  if steps.isPrefixOf p.components then some (ofComponents (p.components.drop steps.length))
  else none

/-- What is said of a path that is no text where it is to be written. -/
def noText : String := "path contains invalid UTF-8 characters"

/-- The JSON form of a path that is a text. -/
def toJson? (p : Path) : Option Json := p.spelling.text?.map Json.str

def ofJson? (j : Json) : Option Path := j.asString?.map fun text => ⟨.ofString text⟩

end Path

end Stencil
