import Stencil.Catalog.Query
import Stencil.Decimal.Reading
import Stencil.SortedMap

/-!
# Arguments

What the words of a command line ask for. Some options can stand before and after the name of the
command; of two values for one of them the later one counts, and a value from a variable counts least.
Otherwise no option can be given twice, and a value cannot begin with a dash.
-/

namespace Stencil.Command

/-! ### Requests -/

inductive OutputFormat where
  /-- As for people on a terminal, plain otherwise. -/
  | auto
  | human
  | plain
  | json
  deriving Repr, DecidableEq, Inhabited

/-- The options of all commands. -/
structure Options where
  isVerbose : Bool := false
  isQuiet : Bool := false
  noColor : Bool := false
  setupFile : Option Path := none
  format : OutputFormat := .auto
  logFile : Option Path := none
  deriving Repr, Inhabited

/-- What a batch is asked to do besides what the setup says. -/
structure RunRequest where
  lastPriority : Option UInt8 := none
  category : Option Category := none
  environment : Option String := none
  root : Option Path := none
  workers : Option Nat := none
  details : Bool := false
  deriving Repr, Inhabited

inductive Layout where
  | table
  | names
  | csv
  deriving Repr, DecidableEq, Inhabited

/-- What the program is asked to do. -/
inductive Request where
  | run (request : RunRequest)
  | analyze (file : Path)
  | list (query : Catalog.Query) (layout : Layout)
  | showSetup
  | setupPath
  deriving Repr, Inhabited

/-- Why arguments are no request. -/
inductive Stop where
  | usage
  | help
  | version
  deriving Repr, DecidableEq, Inhabited

/-! ### Options -/

inductive Key where
  | verbose
  | quiet
  | noColor
  | config
  | outputFormat
  | logJson
  | logFile
  | priority
  | category
  | environment
  | root
  | workers
  | details
  | beginning
  | layout
  deriving Repr, DecidableEq, Inhabited

structure Spec where
  key : Key
  long : String
  short : Option Char := none
  takesValue : Bool := true
  deriving Repr, Inhabited

def common : List Spec :=
  [⟨.verbose, "verbose", some 'v', false⟩, ⟨.quiet, "quiet", some 'q', false⟩,
    ⟨.noColor, "no-color", none, false⟩, ⟨.config, "config", some 'c', true⟩,
    ⟨.outputFormat, "output-format", none, true⟩, ⟨.logJson, "log-json", none, false⟩,
    ⟨.logFile, "log-file", none, true⟩]

def ofRun : List Spec :=
  [⟨.priority, "priority", some 'p', true⟩, ⟨.category, "category", some 'k', true⟩,
    ⟨.environment, "environment", some 'e', true⟩, ⟨.root, "root", some 'r', true⟩,
    ⟨.workers, "workers", some 'j', true⟩, ⟨.details, "details", none, false⟩]

def ofList : List Spec :=
  [⟨.category, "category", some 'k', true⟩, ⟨.environment, "environment", some 'e', true⟩,
    ⟨.beginning, "prefix", none, true⟩, ⟨.layout, "format", none, true⟩]

/-- The number of a text, if it is one of 1 to `limit`. -/
def countOf? (limit : Nat) (text : String) : Option Nat :=
  (Decimal.intOf? text.toList).bind fun i => if 1 ≤ i ∧ i ≤ limit then some i.toNat else none

def formatOf? : String → Option OutputFormat
  | "auto" => some .auto
  | "human" => some .human
  | "plain" => some .plain
  | "json" => some .json
  | _ => none

def layoutOf? : String → Option Layout
  | "table" => some .table
  | "list" => some .names
  | "csv" => some .csv
  | _ => none

def Key.accepts (text : String) : Key → Bool
  | .config | .logFile | .root => !text.isEmpty
  | .outputFormat => (formatOf? text).isSome
  | .priority => (countOf? 255 text).isSome
  | .workers => (countOf? 65535 text).isSome
  | .category => (Category.ofText? text).isSome
  | .layout => (layoutOf? text).isSome
  | .noColor => text == "true" || text == "false"
  | .verbose | .quiet | .logJson | .details | .environment | .beginning => true

/-! ### Reading -/

/-- What is read at one level: options, other words, and the command that follows with its arguments. -/
structure Level where
  given : List (Key × String) := []
  words : List String := []
  command : Option (String × List String) := none
  deriving Repr, Inhabited

def Level.with (l : Level) (given : List (Key × String)) : Level :=
  { l with given := given ++ l.given }

/-- The options of letters behind one dash, and the option that still wants a value. -/
def readLetters (specs : List Spec) (isTop : Bool) :
    List Char → Except Stop (List (Key × String) × Option Key)
  | [] => .ok ([], none)
  | c :: cs =>
    match specs.find? fun s => s.short == some c with
    | some s =>
      if s.takesValue then
        match cs with
        | [] => .ok ([], some s.key)
        | '=' :: value | value => .ok ([(s.key, String.ofList value)], none)
      else do
        let (more, wanting) ← readLetters specs isTop cs
        return ((s.key, "true") :: more, wanting)
    | none => .error (if c = 'h' then .help else if c = 'V' && isTop then .version else .usage)

/-- The options of a word behind two dashes, and the option that still wants a value. -/
def readLong (specs : List Spec) (isTop : Bool) (word : List Char) :
    Except Stop (List (Key × String) × Option Key) :=
  let name := String.ofList (word.takeWhile (· != '='))
  match specs.find? fun s => s.long == name, word.dropWhile (· != '=') with
  | some s, [] => .ok (if s.takesValue then ([], some s.key) else ([(s.key, "true")], none))
  | some s, _ :: value =>
    if s.takesValue then .ok ([(s.key, String.ofList value)], none) else .error .usage
  | none, [] => .error (if name = "help" then .help else if name = "version" && isTop then .version
      else .usage)
  | none, _ => .error .usage

/-- Reads a level: `commands` can follow, and `words` other words can stand in it. -/
def readLevel (specs : List Spec) (isTop : Bool) (commands : List String) :
    (words : Nat) → (onlyWords : Bool) → List String → Except Stop Level
  | _, _, [] => .ok {}
  | words, onlyWords, arg :: rest => do
    let word : Except Stop Level :=
      match words with
      | 0 => .error .usage
      | words + 1 => do
        let l ← readLevel specs isTop commands words onlyWords rest
        return { l with words := arg :: l.words }
    let options (read : Except Stop (List (Key × String) × Option Key)) : Except Stop Level := do
      match ← read, rest with
      | (given, none), rest =>
        return (← readLevel specs isTop commands words false rest).with given
      | (_, some _), [] => .error .usage
      | (given, some key), value :: rest =>
        if value.startsWith "-" && value != "-" then .error .usage
        else return (← readLevel specs isTop commands words false rest).with (given ++ [(key, value)])
    if onlyWords then word
    else
      match arg.toList with
      | ['-', '-'] => readLevel specs isTop commands words true rest
      | '-' :: '-' :: name => options (readLong specs isTop name)
      | '-' :: c :: letters => options (readLetters specs isTop (c :: letters))
      | _ =>
        if commands.contains arg then return { command := some (arg, rest) }
        else if commands.isEmpty then word else .error .usage

abbrev Given := List (Key × Bool × String)

/-- The variables that stand for options. -/
def optionVariables : List (Key × String) := [(.noColor, "NO_COLOR"), (.config, "REFORGE_CONFIG")]

/-- The options of a level with those of variables, if all have values that they accept, none is given
twice, and it is not both quiet and verbose. -/
def Level.settle (l : Level) (vars : SortedMap String String) : Except Stop Given :=
  let keys := l.given.map (·.1)
  let once (k : Key) : Bool := k == .verbose || keys.count k ≤ 1
  let fromVariables := optionVariables.filterMap fun (key, name) =>
    if keys.contains key then none else (vars.get? name).map fun text => (key, false, text)
  let all := l.given.map (fun (key, text) => (key, true, text)) ++ fromVariables
  if keys.all once && all.all (fun g => g.1.accepts g.2.2) &&
      !(keys.contains .quiet && keys.contains .verbose) then .ok all
  else .error .usage

def Given.then (first second : Given) : Given :=
  let wins (g : Key × Bool × String) : Bool :=
    match first.lookup g.1 with
    | some (isWritten, _) => g.2.1 || !isWritten
    | none => true
  let winners := second.filter wins
  winners ++ first.filter fun g => !(winners.map (·.1)).contains g.1

def Given.value? (g : Given) (key : Key) : Option String := (g.lookup key).map (·.2)

def Given.has (g : Given) (key : Key) : Bool := g.value? key == some "true"

def Given.options (g : Given) : Options where
  isVerbose := g.has .verbose
  isQuiet := g.has .quiet
  noColor := g.has .noColor
  setupFile := (g.value? .config).map Path.mk
  format := ((g.value? .outputFormat).bind formatOf?).getD .auto
  logFile := (g.value? .logFile).map Path.mk

def Given.runRequest (g : Given) : RunRequest where
  lastPriority := ((g.value? .priority).bind (countOf? 255)).map UInt8.ofNat
  category := (g.value? .category).bind Category.ofText?
  environment := g.value? .environment
  root := (g.value? .root).map Path.mk
  workers := (g.value? .workers).bind (countOf? 65535)
  details := g.has .details

def Given.query (g : Given) : Catalog.Query where
  category := (g.value? .category).bind Category.ofText?
  environment := g.value? .environment
  beginning := g.value? .beginning

def parse (arguments : List String) (vars : SortedMap String String) :
    Except Stop (Options × Request) := do
  let top ← readLevel common true
    ["run", "r", "analyze", "templates", "ls", "config", "help"] 0 false arguments
  let some (name, rest) := top.command | throw .usage
  let below (specs : List Spec) (words : Nat) (rest : List String) : Except Stop (Level × Given) := do
    let level ← readLevel (common ++ specs) false [] words false rest
    return (level, ← level.settle vars)
  let (given, request) ← match name with
    | "run" | "r" => do
      let (_, given) ← below ofRun 0 rest
      pure (given, Request.run given.runRequest)
    | "analyze" => do
      let (level, given) ← below [] 1 rest
      match level.words with
      | [file] => if file.isEmpty then throw .usage else pure (given, Request.analyze ⟨file⟩)
      | _ => throw .usage
    | "templates" | "ls" => do
      let (_, given) ← below ofList 0 rest
      let layout := ((given.value? .layout).bind layoutOf?).getD .table
      pure (given, Request.list given.query layout)
    | "config" => do
      let level ← readLevel common false ["show", "path", "help"] 0 false rest
      let some (name, rest) := level.command | throw .usage
      let (_, inner) ← below [] 0 rest
      let given := (← level.settle vars).then inner
      match name with
      | "show" => pure (given, Request.showSetup)
      | "path" => pure (given, Request.setupPath)
      | _ => throw .help
    | _ => throw .help
  return (((← top.settle vars).then given).options, request)

end Stencil.Command
