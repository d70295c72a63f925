import Stencil.Toml.Value

/-!
# Tables under construction

The statements of a TOML text fill tables that later statements may add to or not: it depends on how a
table came about. A key path leads from table to table, makes those that are missing, and ends at the
last table of an array of tables.
-/

namespace Stencil.Toml

inductive Origin where
  /-- On the way to a header further down. -/
  | implied
  /-- On the way of a dotted key. -/
  | dotted
  /-- By a header, or as the top. -/
  | defined
  deriving Repr, DecidableEq, Inhabited

/-- A part of a document under construction. -/
inductive Node where
  /-- A value that nothing can be added to. -/
  | value (v : Value)
  | table (origin : Origin) (members : List (String × Node))
  /-- An array of tables, the last one first. -/
  | tables (items : List (List (String × Node)))
  deriving Inhabited

abbrev Members := List (String × Node)

namespace Members

def find? (key : String) (ms : Members) : Option Node := ms.lookup key

def insert (key : String) (n : Node) : Members → Members
  | [] => [(key, n)]
  | (k, m) :: rest =>
    if key < k then (key, n) :: (k, m) :: rest
    else if key = k then (key, n) :: rest
    else (k, m) :: insert key n rest

/-- Changes the table at the end of a path of keys; `how` says how missing tables come about. A dotted
key passes only through tables that no header has defined. -/
def modify (how : Origin) (change : Origin → Members → Option Members) :
    List String → Origin → Members → Option Members
  | [], origin, ms => change origin ms
  | key :: path, _, ms => do
    match ms.find? key with
    | none => return ms.insert key (.table how (← modify how change path how []))
    | some (.table origin inner) =>
      guard (how ≠ .dotted ∨ origin ≠ .defined)
      return ms.insert key (.table origin (← modify how change path origin inner))
    | some (.tables (last :: before)) =>
      guard (how ≠ .dotted)
      return ms.insert key (.tables ((← modify how change path .defined last) :: before))
    | some _ => none

def add (key : String) (v : Value) (ms : Members) : Option Members :=
  match ms.find? key with
  | none => some (ms.insert key (.value v))
  | some _ => none

/-- Puts a value under a dotted key. The table at its end has to be one that dotted keys made; a
plain key may not add to such a table. -/
def assign (path : List String) (key : String) (v : Value) (origin : Origin) (ms : Members) :
    Option Members :=
  modify .dotted
    (fun origin ms => if (origin = .dotted) = (path = []) then none else ms.add key v) path origin ms

def define (path : List String) (key : String) (ms : Members) : Option Members :=
  modify .implied
    (fun _ ms =>
      match ms.find? key with
      | none => some (ms.insert key (.table .defined []))
      | some (.table .implied inner) => some (ms.insert key (.table .defined inner))
      | some _ => none)
    path .defined ms

def begin (path : List String) (key : String) (ms : Members) : Option Members :=
  modify .implied
    (fun _ ms =>
      match ms.find? key with
      | none => some (ms.insert key (.tables [[]]))
      | some (.tables items) => some (ms.insert key (.tables ([] :: items)))
      | some _ => none)
    path .defined ms

end Members

mutual

def Node.finish : Node → Value
  | .value v => v
  | .table _ ms => .table (finishMembers ms)
  | .tables items => .arr (finishTables items).reverse

def finishMembers : List (String × Node) → List (String × Value)
  | [] => []
  | (k, n) :: rest => (k, n.finish) :: finishMembers rest

def finishTables : List (List (String × Node)) → List Value
  | [] => []
  | ms :: rest => .table (finishMembers ms) :: finishTables rest

end

end Stencil.Toml
