import Stencil.Decimal.Notation
import Stencil.Decimal.Word
import Stencil.Yaml.Event

/-!
# YAML values

The value of a document. A plain scalar without tag is nothing, a truth value or a number when it
reads as one, and a text else. An alias repeats the node that its anchor names. A mapping keeps the
order of its members, and no key comes twice. A tag of the document's own is kept around its value.
-/

namespace Stencil.Yaml

inductive Value where
  | null
  | bool (value : Bool)
  | int (value : Int)
  | float (value : Float)
  | str (text : String)
  | seq (items : List Value)
  | map (members : List (Value × Value))
  | tagged (tag : List Char) (value : Value)
  deriving Repr, Inhabited

namespace Value

mutual

def same : Value → Value → Bool
  | null, null => true
  | bool a, bool b => a == b
  | int a, int b => a == b
  | float a, float b => a == b || (a.isNaN && b.isNaN)
  | str a, str b => a == b
  | seq a, seq b => sameItems a b
  | map a, map b => sameMembers a b
  | tagged s a, tagged t b => s == t && same a b
  | _, _ => false

def sameItems : List Value → List Value → Bool
  | [], [] => true
  | a :: as, b :: bs => same a b && sameItems as bs
  | _, _ => false

def sameMembers : List (Value × Value) → List (Value × Value) → Bool
  | [], [] => true
  | (k, a) :: as, (l, b) :: bs => same k l && same a b && sameMembers as bs
  | _, _ => false

end

end Value

/-! ### Scalars -/

/-- The number of digits of a base; there has to be one. -/
def natOf? (base : Nat) (cs : List Char) : Option Nat :=
  if cs.isEmpty then none
  else (cs.mapM Json.hexValue?).bind fun ds =>
    if ds.all (· < base) then some (ds.foldl (fun n d => n * base + d) 0) else none

def hasLeadingZero (cs : List Char) : Bool :=
  match cs with
  | '+' :: rest | '-' :: rest => check rest
  | _ => check cs
where
  check : List Char → Bool
    | '0' :: d :: rest => (d :: rest).all Char.isDigit
    | _ => false

def basedNat? (cs : List Char) : Option Nat :=
  match cs with
  | '0' :: 'x' :: rest => natOf? 16 rest
  | '0' :: 'o' :: rest => natOf? 8 rest
  | '0' :: 'b' :: rest => natOf? 2 rest
  | _ => none

def integerOf? (cs : List Char) : Option Int :=
  let decimal (cs : List Char) := if hasLeadingZero cs then none else natOf? 10 cs
  match cs with
  | '-' :: rest => ((basedNat? rest).or (decimal rest)).map fun n => -(n : Int)
  | '+' :: rest => ((basedNat? rest).or (decimal rest)).map fun n => (n : Int)
  | _ => ((basedNat? cs).or (decimal cs)).map fun n => (n : Int)

/-- An integer with its range: of 64 bits it is a value, of 128 bits no value has it. -/
inductive Ranged where
  | fits (value : Int)
  | tooLarge

/-- The integer that a scalar writes; beyond 128 bits it is none. -/
def rangedOf? (cs : List Char) : Option Ranged :=
  match integerOf? cs with
  | some i =>
    if Decimal.isSignedWord 64 i || Decimal.isWord 64 i then some (.fits i)
    else if Decimal.isSignedWord 128 i || Decimal.isWord 128 i then some .tooLarge
    else none
  | none => none

/-- A decimal number: digits with at most one point, and perhaps an exponent. -/
def decimalOf? (cs : List Char) : Option Float :=
  let (negative, cs) := match cs with
    | '-' :: rest => (true, rest)
    | '+' :: rest => (false, rest)
    | _ => (false, cs)
  let whole := cs.takeWhile Char.isDigit
  let (places, rest) := match cs.dropWhile Char.isDigit with
    | '.' :: rest => (rest.takeWhile Char.isDigit, rest.dropWhile Char.isDigit)
    | rest => ([], rest)
  let exponent : Option Int := match rest with
    | [] => some 0
    | c :: rest =>
      if c = 'e' ∨ c = 'E' then
        match rest with
        | '-' :: rest => (natOf? 10 rest).map fun n => -(n : Int)
        | '+' :: rest => (natOf? 10 rest).map fun n => (n : Int)
        | _ => (natOf? 10 rest).map fun n => (n : Int)
      else none
  if whole.isEmpty ∧ places.isEmpty then none
  else exponent.bind fun e => do
    let n ← natOf? 10 (whole ++ places)
    let x := Decimal.toFloat n (e - places.length)
    if x.isInf then none else some (if negative then -x else x)

def floatOf? (cs : List Char) : Option Float :=
  let s := String.ofList cs
  if ["+.inf", "+.Inf", "+.INF", ".inf", ".Inf", ".INF"].contains s then some (1 / 0)
  else if ["-.inf", "-.Inf", "-.INF"].contains s then some (-1 / 0)
  else if [".nan", ".NaN", ".NAN"].contains s then some (0 / 0)
  else match cs with
    | '+' :: '+' :: _ | '+' :: '-' :: _ => none
    | _ => decimalOf? cs

def boolOf? (cs : List Char) : Option Bool :=
  let s := String.ofList cs
  if ["true", "True", "TRUE"].contains s then some true
  else if ["false", "False", "FALSE"].contains s then some false
  else none

def isNull (cs : List Char) : Bool := ["null", "Null", "NULL", "~"].contains (String.ofList cs)

/-- The value of a plain scalar without tag; an integer that no value has is refused. -/
def plainValue? (cs : List Char) : Option Value :=
  if cs.isEmpty || isNull cs then some .null
  else match boolOf? cs with
    | some b => some (.bool b)
    | none =>
      match rangedOf? cs with
      | some (.fits i) => some (.int i)
      | some .tooLarge => none
      | none =>
        match if hasLeadingZero cs then none else floatOf? cs with
        | some x => some (.float x)
        | none => some (.str (String.ofList cs))

def commonTagged? (tag cs : List Char) : Option Value :=
  let s := String.ofList tag
  if s = "tag:yaml.org,2002:bool" then (boolOf? cs).map .bool
  else if s = "tag:yaml.org,2002:int" then
    match rangedOf? cs with
    | some (.fits i) => some (.int i)
    | _ => none
  else if s = "tag:yaml.org,2002:float" then (floatOf? cs).map .float
  else if s = "tag:yaml.org,2002:null" then if isNull cs then some .null else none
  else some (.str (String.ofList cs))

def isOwnTag (tag : List Char) : Bool := tag.head? == some '!'

/-- The name of a tag of the document's own: the mark goes, when something follows it. -/
def ownTagName (tag : List Char) : List Char :=
  match tag with
  | '!' :: c :: rest => c :: rest
  | _ => tag

def scalarValue? (props : Props) (plain : Bool) (cs : List Char) : Option Value :=
  let bare := if plain then plainValue? cs else some (.str (String.ofList cs))
  match props.tag with
  | none => bare
  | some tag =>
    if isOwnTag tag then bare.map (.tagged (ownTagName tag)) else commonTagged? tag cs

/-! ### Nodes -/

/-- The value of a collection under its tag. -/
def underTag (props : Props) (v : Value) : Value :=
  match props.tag with
  | some tag => if isOwnTag tag then .tagged (ownTagName tag) v else v
  | none => v

/-- A document whose aliases are resolved: its events, and for each alias the place of the event that
it repeats. -/
structure Resolved where
  events : Array Event
  targets : Array (Option Nat)

/-- A value, the place after it, and the number of aliases passed so far. -/
abbrev Read := Option (Value × Nat × Nat)

def readItems (doc : Resolved) (node : Nat → Nat → Read) :
    (fuel : Nat) → List Value → Nat → Nat → Option (List Value × Nat × Nat)
  | 0, _, _, _ => none
  | fuel + 1, acc, pos, jumps =>
    match doc.events[pos]? with
    | some .collectionEnd => some (acc.reverse, pos + 1, jumps)
    | _ => do
      let (v, pos, jumps) ← node pos jumps
      readItems doc node fuel (v :: acc) pos jumps

/-- The members of a mapping from a place on; `acc` holds those before, backwards. -/
def readMembers (doc : Resolved) (node : Nat → Nat → Read) :
    (fuel : Nat) → List (Value × Value) → Nat → Nat → Option (List (Value × Value) × Nat × Nat)
  | 0, _, _, _ => none
  | fuel + 1, acc, pos, jumps =>
    match doc.events[pos]? with
    | some .collectionEnd => some (acc.reverse, pos + 1, jumps)
    | _ => do
      let (k, pos, jumps) ← node pos jumps
      if acc.any fun m => m.1.same k then none
      else
        let (v, pos, jumps) ← node pos jumps
        readMembers doc node fuel ((k, v) :: acc) pos jumps

/-- The value of the node at a place that holds no alias; `depth` collections may be nested. -/
def readPlace (doc : Resolved) (node : Nat → Nat → Read) (deep : Bool) (pos jumps : Nat) : Read :=
  match doc.events[pos]? with
  | some (.scalar props plain text) => (scalarValue? props plain text).map (·, pos + 1, jumps)
  | some (.sequenceStart props) =>
    if deep then none
    else (readItems doc node (doc.events.size + 1) [] (pos + 1) jumps).map
      fun (items, pos, jumps) => (underTag props (.seq items), pos, jumps)
  | some (.mappingStart props) =>
    if deep then none
    else (readMembers doc node (doc.events.size + 1) [] (pos + 1) jumps).map
      fun (members, pos, jumps) => (underTag props (.map members), pos, jumps)
  | _ => none

/-- The value of the node at a place. Aliases may be passed a hundred times as often as there are
events. -/
def readNode (doc : Resolved) : (depth : Nat) → Nat → Nat → Read
  | 0, pos, jumps => follow doc (fun _ _ => none) true pos jumps
  | depth + 1, pos, jumps => follow doc (readNode doc depth) false pos jumps
where
  /-- Reads the node at a place, or the one that an alias there repeats. -/
  follow (doc : Resolved) (node : Nat → Nat → Read) (deep : Bool) (pos jumps : Nat) : Read :=
    match doc.events[pos]? with
    | some (.alias _) =>
      if doc.events.size * 100 < jumps + 1 then none
      else match (doc.targets[pos]?).join with
        | some target =>
          (readPlace doc node deep target (jumps + 1)).map fun (v, _, jumps) => (v, pos + 1, jumps)
        | none => none
    | _ => readPlace doc node deep pos jumps

def maxDepth : Nat := 128

/-- The anchor of an event. -/
def Event.anchor? : Event → Option (List Char)
  | .scalar props _ _ | .sequenceStart props | .mappingStart props => props.anchor
  | _ => none

/-- The number of the anchor that each alias names. Anchors are numbered by how many names are in use,
so that after a name is given again, the next new name shares its number and takes its place. -/
def aliasNumbers : (numbers : List (List Char × Nat)) → List Event → Option (List (Option Nat))
  | _, [] => some []
  | numbers, e :: rest =>
    match e with
    | .alias name => do
      let number ← numbers.lookup name
      let others ← aliasNumbers numbers rest
      return some number :: others
    | _ =>
      match e.anchor? with
      | some name =>
        let numbers := (name, numbers.length) :: numbers.filter (·.1 != name)
        (aliasNumbers numbers rest).map (none :: ·)
      | none => (aliasNumbers numbers rest).map (none :: ·)

/-- The numbers of anchors with their places, the last anchor first. -/
def anchorPlaces : (pos : Nat) → (numbers : List (List Char × Nat)) → List Event → List (Nat × Nat)
  | _, _, [] => []
  | pos, numbers, e :: rest =>
    match e.anchor? with
    | some name =>
      let number := numbers.length
      anchorPlaces (pos + 1) ((name, number) :: numbers.filter (·.1 != name)) rest ++ [(number, pos)]
    | none => anchorPlaces (pos + 1) numbers rest

def Value.ofEvents? (events : List Event) : Option Value := do
  let numbers ← aliasNumbers [] events
  let places := anchorPlaces 0 [] events
  let targets := numbers.map fun n => n.bind fun n => places.lookup n
  let (v, _) ← readNode ⟨events.toArray, targets.toArray⟩ maxDepth 0 0
  return v

/-! ### Texts of values -/

/-- Doubles are written as numbers are, with texts of their own for the infinite ones. -/
def floatStyle : Decimal.Style := ⟨some (-5, 15), true, false, true, ".nan", ".inf"⟩

def describeString (s : String) : List Char :=
  let escape (c : Char) : List Char :=
    match c with
    | '"' => ['\\', '"']
    | '\\' => ['\\', '\\']
    | '\n' => ['\\', 'n']
    | '\r' => ['\\', 'r']
    | '\t' => ['\\', 't']
    | '\x00' => ['\\', '0']
    | c =>
      if c.toNat < 0x20 ∨ c.toNat = 0x7f then
        '\\' :: 'u' :: '{' :: Nat.toDigits 16 c.toNat ++ ['}']
      else [c]
  '"' :: s.toList.flatMap escape ++ ['"']

def commas (parts : List (List Char)) : List Char := [',', ' '].intercalate parts

def boolText (b : Bool) : List Char := (if b then "true" else "false").toList

mutual

/-- The description of a value, which is the text of a collection that is used as a key. -/
def describe : Value → List Char
  | .null => "Null".toList
  | .bool b => "Bool(".toList ++ boolText b ++ [')']
  | .int i => "Number(".toList ++ (toString i).toList ++ [')']
  | .float x => "Number(".toList ++ floatStyle.write x ++ [')']
  | .str s => "String(".toList ++ describeString s ++ [')']
  | .seq items => "Sequence [".toList ++ commas (describeItems items) ++ [']']
  | .map members => "Mapping \x7b".toList ++ commas (describeMembers members) ++ ['}']
  | .tagged tag v =>
    "TaggedValue \x7b tag: !".toList ++ tag ++ ", value: ".toList ++ describe v ++ [' ', '}']

def describeItems : List Value → List (List Char)
  | [] => []
  | v :: vs => describe v :: describeItems vs

/-- The descriptions of the members of a mapping; scalars as keys are written plainly. -/
def describeMembers : List (Value × Value) → List (List Char)
  | [] => []
  | (k, v) :: rest =>
    let key := match k with
      | .bool b => boolText b
      | .int i => (toString i).toList
      | .float x => floatStyle.write x
      | .str s => describeString s
      | _ => describe k
    (key ++ ':' :: ' ' :: describe v) :: describeMembers rest

end

def Value.text : Value → String
  | .null => ""
  | .bool b => String.ofList (boolText b)
  | .int i => toString i
  | .float x => String.ofList (floatStyle.write x)
  | .str s => s
  | v => String.ofList (describe v)

/-! ### Streams -/

/-- The values of the documents of a text; a text without documents has the empty value. -/
def parse (cs : List Char) : Option (List Value) := do
  match ← events? cs with
  | [] => return [.null]
  | docs => docs.mapM Value.ofEvents?

end Stencil.Yaml
