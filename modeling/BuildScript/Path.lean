/-! Paths of files, written with slashes. -/

namespace BuildScript.Path

/-- The steps of a path. -/
inductive Component where
  | root
  | current
  | parent
  | name (name : String)
deriving Repr, DecidableEq, Inhabited

/-- The text of a step. -/
def Component.text : Component → String
  | root => "/"
  | current => "."
  | parent => ".."
  | .name part => part

/-- The step that a part between slashes stands for. -/
def Component.ofPart (part : String) : Component :=
  if part == "." then .current else if part == ".." then .parent else .name part

/-- The parts between slashes. -/
def splitSlashes : List Char → List (List Char)
  | [] => [[]]
  | c :: rest =>
    match splitSlashes rest with
    | [] => [[c]]
    | first :: others => if c == '/' then [] :: first :: others else (c :: first) :: others

/-- Whether a path begins at the root. -/
def isAbsolute (path : String) : Bool := path.toList.head? == some '/'

/-- The steps of a path. Empty parts are no steps, and neither is a dot unless it begins the
path.
-/
def components (path : String) : List Component :=
  let parts := ((splitSlashes path.toList).filter (!·.isEmpty)).map fun part =>
    Component.ofPart (String.ofList part)
  if isAbsolute path then .root :: parts.filter (· != .current)
  else
    match parts with
    | .current :: rest => .current :: rest.filter (· != .current)
    | _ => parts.filter (· != .current)

/-- A path after another one. An absolute path replaces the one before it. -/
def join (base path : String) : String :=
  if isAbsolute path then path
  else if base.isEmpty || base.toList.getLast? == some '/' then base ++ path
  else base ++ "/" ++ path

/-- The steps so far, last first, after one more step. The parent of a name drops it, and the
root is its own parent.
-/
def normalizeStep (reversed : List Component) : Component → List Component
  | .current => reversed
  | .parent =>
    match reversed with
    | [] => [.parent]
    | .parent :: _ => .parent :: reversed
    | .root :: _ => reversed
    | _ :: rest => rest
  | component => component :: reversed

/-- The text of a sequence of steps. -/
def ofComponents (components : List Component) : String :=
  components.foldl (fun path component => join path component.text) ""

/-- The path without the steps that lead nowhere, as far as the text alone can tell. -/
def normalize (path : String) : String :=
  ofComponents ((components path).foldl normalizeStep []).reverse

/-- The path without its last step, if there is one to drop. -/
def parent? (path : String) : Option String :=
  match (components path).reverse with
  | [] => none
  | .root :: _ => none
  | _ :: rest => some (ofComponents rest.reverse)

/-- Whether two paths have the same steps. -/
def same (first second : String) : Bool := components first == components second

end BuildScript.Path
