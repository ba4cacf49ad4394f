import PlanningAgents.Json.Reader
import PlanningAgents.Node.Decode
import PlanningAgents.Node.Json
import PlanningAgents.Yaml.Reader

/-!
# PlanningAgents.Files

Values loaded from files.  The ending of a file's name tells its format: `json`, in letters of
either case, is JSON, and everything else is YAML.

Main statements:

* `Files.load_without_text` — where there is no text to read, that is what is reported, whatever is
  wanted of it.
* `Files.loadOr_eq_ok_default` — the default is for paths at which nothing stands.
-/

namespace PlanningAgents

/-- What stands at a path. -/
inductive FileEntry where
  /-- Nothing stands there. -/
  | missing
  /-- Something stands there that holds no text, such as a directory. -/
  | unreadable
  | text (content : String)
  deriving DecidableEq, Repr

/-- What stands at each path. -/
structure Files where
  entry : String → FileEntry

/-- The formats of files. -/
inductive FileFormat where
  | json | yaml
  deriving DecidableEq, Repr

namespace FileFormat

/-- The name of a format. -/
def name : FileFormat → String
  | .json => "JSON"
  | .yaml => "YAML"

/-- What stands behind the last dot of a file's name.  A dot that begins the name does not count. -/
def ending (path : String) : List Char :=
  let name := path.toList.reverse.takeWhile (· ≠ '/')
  if (name.dropWhile (· ≠ '.')).drop 1 = [] then []
  else (name.takeWhile (· ≠ '.')).reverse

/-- The format that a path tells. -/
def ofPath (path : String) : FileFormat :=
  if (ending path).map Char.toLower = ['j', 's', 'o', 'n'] then .json else .yaml

/-- Reads a text of the format. -/
def read : FileFormat → String → Option Document
  | .json, s => (Json.ofString? s).map Document.ofJson
  | .yaml, s => Yaml.read s

end FileFormat

/-- What a file is loaded as. -/
inductive FileRole where
  | config | definitions
  deriving DecidableEq, Repr

/-- The words for what a file is loaded as. -/
def FileRole.name : FileRole → String
  | .config => "AI config"
  | .definitions => "definitions"

/-- Why a file could not be loaded. -/
inductive LoadFault where
  | unreadable
  | invalid (format : FileFormat)
  deriving DecidableEq, Repr

/-- A failed load. -/
structure LoadError where
  role : FileRole
  path : String
  fault : LoadFault
  deriving DecidableEq, Repr

/-- What the error says, from the outermost circumstance to the cause. -/
def LoadError.chain (e : LoadError) : List String :=
  ["Failed to load " ++ e.role.name ++ " from " ++ e.path,
    match e.fault with
    | .unreadable => "Failed to read " ++ e.path
    | .invalid format => "Invalid " ++ format.name ++ " in " ++ e.path]

namespace Files

/-- Loads a value from a file. -/
def load {α : Type} [Decode α] (files : Files) (role : FileRole) (path : String) :
    Except LoadError α :=
  match files.entry path with
  | .missing | .unreadable => .error { role, path, fault := .unreadable }
  | .text content =>
    let format := FileFormat.ofPath path
    match format.read content >>= Document.decode? with
    | none => .error { role, path, fault := .invalid format }
    | some a => .ok a

/-- Loads a value from a file, or gives a default where nothing stands at the path.  What stands
there and cannot be read is still an error. -/
def loadOr {α : Type} [Decode α] (files : Files) (role : FileRole) (path : String) (default : α) :
    Except LoadError α :=
  if files.entry path = .missing then .ok default else files.load role path

/-- Where there is no text to read, that is what is reported, whatever is wanted of it. -/
theorem load_without_text {α : Type} [Decode α] (files : Files) (role : FileRole) (path : String)
    (h : ∀ content, files.entry path ≠ .text content) :
    files.load (α := α) role path = .error { role, path, fault := .unreadable } := by
  rw [load]
  split
  · rfl
  · rfl
  · next content hc => exact absurd hc (h content)

/-- The default is for paths at which nothing stands. -/
theorem loadOr_eq_ok_default {α : Type} [Decode α] (files : Files) (role : FileRole)
    (path : String) (default : α) (h : files.entry path = .missing) :
    files.loadOr role path default = .ok default := by
  simp [loadOr, h]

end Files

end PlanningAgents
