import Stencil.Yaml.Token

/-!
# Events of YAML texts

The nodes of each document, in order: a scalar or an alias is one event, and a sequence or a mapping
stands between two. Keys and values of a mapping alternate; one that is left out is an empty scalar.
-/

namespace Stencil.Yaml

structure Props where
  anchor : Option (List Char) := none
  tag : Option (List Char) := none
  deriving Repr, DecidableEq, Inhabited

inductive Event where
  | alias (name : List Char)
  | scalar (props : Props) (plain : Bool) (text : List Char)
  | sequenceStart (props : Props)
  | mappingStart (props : Props)
  | collectionEnd
  deriving Repr, DecidableEq, Inhabited

namespace Event

/-- The empty scalar, which stands for a node that is left out. -/
def empty : Event := .scalar {} true []

/-- The handles of tags that a document knows, with what they stand for. -/
abbrev Handles := List (List Char × List Char)

/-- The handles that every document knows. -/
def commonHandles : Handles := [(['!'], ['!']), (['!', '!'], "tag:yaml.org,2002:".toList)]

def resolve? (handles : Handles) (handle suffix : List Char) : Option (List Char) :=
  if handle.isEmpty then some suffix else (handles.lookup handle).map (· ++ suffix)

/-- The properties before a node: an anchor and a tag in either order. -/
def props? (handles : Handles) : List Token → Option (Props × List Token)
  | .anchor a :: .tag h s :: rest => (resolve? handles h s).map fun t => (⟨some a, some t⟩, rest)
  | .anchor a :: rest => some (⟨some a, none⟩, rest)
  | .tag h s :: .anchor a :: rest => (resolve? handles h s).map fun t => (⟨some a, some t⟩, rest)
  | .tag h s :: rest => (resolve? handles h s).map fun t => (⟨none, some t⟩, rest)
  | rest => some ({}, rest)

/-- A scalar; the tag of a single mark says no more than none. -/
def ofScalar (props : Props) (plain : Bool) (text : List Char) : Event :=
  if props.tag = some ['!'] then .scalar { props with tag := none } plain text
  else .scalar props plain text

/-- Events so far, the last one first, and the tokens that are left. -/
abbrev Step := Option (List Event × List Token)

mutual

def node (handles : Handles) (block indentless : Bool) :
    (fuel : Nat) → List Event → List Token → Step
  | 0, _, _ => none
  | fuel + 1, acc, tokens =>
    match tokens with
    | .alias name :: rest => some (.alias name :: acc, rest)
    | _ => do
      let (props, tokens) ← props? handles tokens
      match tokens with
      | .blockEntry :: _ =>
        if indentless then indentlessItems handles fuel (.sequenceStart props :: acc) tokens
        else absent props acc tokens
      | .scalar plain text :: rest => return (ofScalar props plain text :: acc, rest)
      | .flowSequenceStart :: rest =>
        flowItems handles true fuel (.sequenceStart props :: acc) rest
      | .flowMappingStart :: rest => flowMembers handles true fuel (.mappingStart props :: acc) rest
      | .blockSequenceStart :: rest =>
        if block then blockItems handles fuel (.sequenceStart props :: acc) rest
        else absent props acc tokens
      | .blockMappingStart :: rest =>
        if block then blockMembers handles fuel (.mappingStart props :: acc) rest
        else absent props acc tokens
      | _ => absent props acc tokens
where
  /-- A node that is left out; it needs properties. -/
  absent (props : Props) (acc : List Event) (tokens : List Token) : Step :=
    if props = {} then none else some (.scalar props true [] :: acc, tokens)

def blockItems (handles : Handles) : (fuel : Nat) → List Event → List Token → Step
  | 0, _, _ => none
  | fuel + 1, acc, tokens =>
    match tokens with
    | .blockEntry :: rest =>
      match rest with
      | .blockEntry :: _ | .blockEnd :: _ => blockItems handles fuel (empty :: acc) rest
      | _ => do
        let (acc, rest) ← node handles true false fuel acc rest
        blockItems handles fuel acc rest
    | .blockEnd :: rest => some (.collectionEnd :: acc, rest)
    | _ => none

/-- The rest of a sequence of entries that are not indented below their key. -/
def indentlessItems (handles : Handles) : (fuel : Nat) → List Event → List Token → Step
  | 0, _, _ => none
  | fuel + 1, acc, tokens =>
    match tokens with
    | .blockEntry :: rest =>
      match rest with
      | .blockEntry :: _ | .key :: _ | .value :: _ | .blockEnd :: _ =>
        indentlessItems handles fuel (empty :: acc) rest
      | _ => do
        let (acc, rest) ← node handles true false fuel acc rest
        indentlessItems handles fuel acc rest
    | _ => some (.collectionEnd :: acc, tokens)

def blockMembers (handles : Handles) : (fuel : Nat) → List Event → List Token → Step
  | 0, _, _ => none
  | fuel + 1, acc, tokens =>
    match tokens with
    | .key :: rest =>
      match rest with
      | .key :: _ | .value :: _ | .blockEnd :: _ => blockValue handles fuel (empty :: acc) rest
      | _ => do
        let (acc, rest) ← node handles true true fuel acc rest
        blockValue handles fuel acc rest
    | .blockEnd :: rest => some (.collectionEnd :: acc, rest)
    | _ => none

/-- The value of a member of a mapping of indented lines, and the rest of the mapping. -/
def blockValue (handles : Handles) : (fuel : Nat) → List Event → List Token → Step
  | 0, _, _ => none
  | fuel + 1, acc, tokens =>
    match tokens with
    | .value :: rest =>
      match rest with
      | .key :: _ | .value :: _ | .blockEnd :: _ => blockMembers handles fuel (empty :: acc) rest
      | _ => do
        let (acc, rest) ← node handles true true fuel acc rest
        blockMembers handles fuel acc rest
    | _ => blockMembers handles fuel (empty :: acc) tokens

def flowItems (handles : Handles) (first : Bool) : (fuel : Nat) → List Event → List Token → Step
  | 0, _, _ => none
  | fuel + 1, acc, tokens =>
    match tokens with
    | .flowSequenceEnd :: rest => some (.collectionEnd :: acc, rest)
    | _ => do
      let tokens ← match first, tokens with
        | true, _ => some tokens
        | false, .flowEntry :: rest => some rest
        | false, _ => none
      match tokens with
      | .flowSequenceEnd :: rest => return (.collectionEnd :: acc, rest)
      | .key :: rest =>
        let (acc, rest) ← flowPair handles fuel (.mappingStart {} :: acc) rest
        flowItems handles false fuel acc rest
      | _ =>
        let (acc, rest) ← node handles false false fuel acc tokens
        flowItems handles false fuel acc rest

/-- A mapping of one member inside a sequence in brackets. A key that is left out takes the token
after its mark along. -/
def flowPair (handles : Handles) : (fuel : Nat) → List Event → List Token → Step
  | 0, _, _ => none
  | fuel + 1, acc, tokens => do
    let (acc, tokens) ← match tokens with
      | .value :: rest | .flowEntry :: rest | .flowSequenceEnd :: rest => some (empty :: acc, rest)
      | _ => node handles false false fuel acc tokens
    let (acc, tokens) ← match tokens with
      | .value :: rest =>
        match rest with
        | .flowEntry :: _ | .flowSequenceEnd :: _ => some (empty :: acc, rest)
        | _ => node handles false false fuel acc rest
      | _ => some (empty :: acc, tokens)
    return (.collectionEnd :: acc, tokens)

def flowMembers (handles : Handles) (first : Bool) : (fuel : Nat) → List Event → List Token → Step
  | 0, _, _ => none
  | fuel + 1, acc, tokens =>
    match tokens with
    | .flowMappingEnd :: rest => some (.collectionEnd :: acc, rest)
    | _ => do
      let tokens ← match first, tokens with
        | true, _ => some tokens
        | false, .flowEntry :: rest => some rest
        | false, _ => none
      match tokens with
      | .flowMappingEnd :: rest => return (.collectionEnd :: acc, rest)
      | .key :: rest =>
        let (acc, rest) ← match rest with
          | .value :: _ | .flowEntry :: _ | .flowMappingEnd :: _ => some (empty :: acc, rest)
          | _ => node handles false false fuel acc rest
        let (acc, rest) ← match rest with
          | .value :: rest =>
            match rest with
            | .flowEntry :: _ | .flowMappingEnd :: _ => some (empty :: acc, rest)
            | _ => node handles false false fuel acc rest
          | _ => some (empty :: acc, rest)
        flowMembers handles false fuel acc rest
      | _ =>
        let (acc, rest) ← node handles false false fuel acc tokens
        flowMembers handles false fuel (empty :: acc) rest

end

/-! ### Documents -/

/-- The directives before a document: at most one version, 1.1 or 1.2, and no handle twice. -/
def directives (version : Bool) (handles : Handles) : List Token → Option (Handles × List Token)
  | .version major minor :: rest =>
    if !version && major == 1 && (minor == 1 || minor == 2) then directives true handles rest
    else none
  | .tagHandle handle start :: rest =>
    if (handles.lookup handle).isSome then none
    else directives version ((handle, start) :: handles) rest
  | rest => some (handles ++ commonHandles, rest)

/-- The events of the node of a document, and the tokens after it. -/
def root (handles : Handles) (tokens : List Token) : Option (List Event × List Token) :=
  (node handles true false (2 * tokens.length + 2) [] tokens).map fun (acc, rest) =>
    (acc.reverse, rest)

/-- The events of a document after its mark, which may be empty, and the tokens after it. -/
def content (handles : Handles) (tokens : List Token) : Option (List Event × List Token) :=
  match tokens with
  | .version _ _ :: _ | .tagHandle _ _ :: _ | .documentStart :: _ | .documentEnd :: _
  | .streamEnd :: _ => some ([empty], tokens)
  | _ => root handles tokens

/-- The documents of tokens; only the first one may begin without a mark. -/
def documents (first : Bool) : (fuel : Nat) → List Token → Option (List (List Event))
  | 0, _ => none
  | fuel + 1, tokens =>
    let tokens := if first then tokens else tokens.dropWhile (· == .documentEnd)
    match tokens with
    | [.streamEnd] => some []
    | _ => do
      let bare := match tokens with
        | .version _ _ :: _ | .tagHandle _ _ :: _ | .documentStart :: _ => false
        | _ => first
      let (events, rest) ←
        if bare then root commonHandles tokens
        else do
          let (handles, rest) ← directives false [] tokens
          match rest with
          | .documentStart :: rest => content handles rest
          | _ => none
      let rest := match rest with
        | .documentEnd :: rest => rest
        | rest => rest
      let others ← documents false fuel rest
      return events :: others

end Event

/-- The events of each document of a text, or nothing when it is malformed. -/
def events? (cs : List Char) : Option (List (List Event)) := do
  let tokens ← tokens? cs
  Event.documents true (tokens.length + 1) tokens

end Stencil.Yaml
