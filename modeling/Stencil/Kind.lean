import Stencil.Error
import Stencil.Json.Fields
import Stencil.Text.Blank
import Stencil.Text.Lower

/-!
# Kinds of artifacts

An artifact is a script or a configuration file of one of five formats. The kind follows from the
extension of the path, in any case of its letters; a file named `.env` is an environment file.
-/

namespace Stencil

/-- The format of a configuration file. -/
inductive Format where
  | ini
  | env
  | json
  | yaml
  | toml
  deriving Repr, DecidableEq, Inhabited

namespace Format

def all : List Format := [ini, env, json, yaml, toml]

def name : Format → String
  | ini => "ini"
  | env => "env"
  | json => "json"
  | yaml => "yaml"
  | toml => "toml"

def ofName? (s : String) : Option Format := all.find? fun f => f.name == s

def isLineOriented : Format → Bool
  | ini | env => true
  | _ => false

def isStructured (f : Format) : Bool := !f.isLineOriented

def ofExtension? (ext : String) : Option Format :=
  match Text.asciiLowerString ext with
  | "ini" | "cfg" | "conf" => some ini
  | "env" | "properties" => some env
  | "json" => some json
  | "yaml" | "yml" => some yaml
  | "toml" => some toml
  | _ => none

theorem ofName?_name (f : Format) : ofName? f.name = some f := by cases f <;> rfl

def parse (s : String) : Except Error Format :=
  match ofExtension? s with
  | some f => .ok f
  | none => .error (.unsupported s .unknownFormat)

def toJson (f : Format) : Json := .str f.name

def ofJson? (j : Json) : Option Format := j.asCase?.bind ofName?

end Format

/-- The grammar that an artifact is written in. -/
inductive Kind where
  | script
  | config (format : Format)
  deriving Repr, DecidableEq, Inhabited

namespace Kind

def text : Kind → String
  | script => "script"
  | config f => "config:" ++ f.name

def grammarName : Kind → String
  | script => "python"
  | config f => f.name

def isScript : Kind → Bool
  | script => true
  | config _ => false

def format? : Kind → Option Format
  | script => none
  | config f => some f

def ofPath? (p : Path) : Option Kind := do
  let name ← p.fileName?.bind OsText.text?
  if Text.asciiLowerString name = ".env" then return config .env
  let ext ← p.extension?.bind OsText.text?
  if Text.asciiLowerString ext = "py" then return script
  return config (← Format.ofExtension? ext)

def parse (s : String) : Except Error Kind :=
  let lower := Text.asciiLower (Text.trim s.toList)
  match Text.splitOnce ':' lower with
  | none =>
    if lower = "script".toList then .ok script else .error (.unsupported s .unknownKind)
  | some (front, rest) =>
    if front = "config".toList then (Format.parse (String.ofList rest)).map config
    else .error (.unsupported s .unknownKind)

def toJson : Kind → Json
  | script => .str "script"
  | config f => .obj [("config", f.toJson)]

def ofJson? : Json → Option Kind
  | .str "script" => some script
  | .obj [("script", .null)] => some script
  | .obj [("config", j)] => (Format.ofJson? j).map config
  | _ => none

theorem ofJson?_toJson (k : Kind) : ofJson? k.toJson = some k := by
  cases k with
  | script => rfl
  | config f => cases f <;> rfl

end Kind

end Stencil
