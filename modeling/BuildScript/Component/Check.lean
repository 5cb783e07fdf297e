import BuildScript.Component.Syntax
import BuildScript.Diagnostic

/-! Components whose properties fit the schema of their kind. -/

namespace BuildScript

/-- The kinds of components. -/
inductive ComponentKind where
  | library
  | executable
deriving Repr, DecidableEq, Inhabited

namespace ComponentKind

/-- The name that declares a component of the kind. -/
def text : ComponentKind → String
  | library => "library"
  | executable => "executable"

/-- The kind that a name declares. -/
def ofName? (name : String) : Option ComponentKind :=
  [library, executable].find? (·.text == name)

end ComponentKind

/-- The values of checked properties. -/
inductive PropertyValue where
  | bool (value : Bool)
  | int (value : Int64)
  | double (value : Float)
  | string (value : String)
  | list (values : List PropertyValue)
deriving Inhabited

namespace PropertyValue

/-- The name of a value's type. That of a list is taken from its first value. -/
def typeName : PropertyValue → String
  | bool _ => "bool"
  | int _ => "int"
  | double _ => "double"
  | string _ => "string"
  | list [] => "list<>"
  | list (first :: _) => "list<" ++ first.typeName ++ ">"

/-- The text of a string. -/
def string? : PropertyValue → Option String
  | string value => some value
  | _ => none

/-- The texts of the strings in a list. -/
def strings : PropertyValue → List String
  | list values => values.filterMap string?
  | _ => []

end PropertyValue

/-- The types that a schema asks for. -/
inductive PropertyType where
  | string
  | stringList
deriving Repr, DecidableEq, Inhabited

namespace PropertyType

/-- The name of the type. -/
def text : PropertyType → String
  | string => "string"
  | stringList => "list<string>"

/-- Whether a value is of the type. The empty list is. -/
def accepts : PropertyType → PropertyValue → Bool
  | string, .string _ => true
  | stringList, .list values => values.all (·.string?.isSome)
  | _, _ => false

end PropertyType

/-- What is known of a property. -/
structure PropertySchema where
  name : String
  type : PropertyType
  required : Bool
deriving Repr, DecidableEq

/-- The properties of every kind of component. -/
def PropertySchema.all : List PropertySchema :=
  [⟨"name", .string, true⟩, ⟨"files", .stringList, true⟩, ⟨"include_dirs", .stringList, false⟩,
    ⟨"compile_definitions", .stringList, false⟩, ⟨"compile_options", .stringList, false⟩,
    ⟨"link_to", .stringList, false⟩]

/-- A component whose properties fit the schema, in the order in which they were first given.
-/
structure Component where
  kind : ComponentKind
  properties : List (String × PropertyValue)
  span : Span
deriving Inhabited

namespace Component

/-- Gives a property its value. A property that is given again keeps its place. -/
def setProperty (name : String) (value : PropertyValue)
    : List (String × PropertyValue) → List (String × PropertyValue)
  | [] => [(name, value)]
  | (key, old) :: rest =>
    if key == name then (name, value) :: rest else (key, old) :: setProperty name value rest

/-- The name of what is built. -/
def name (component : Component) : String :=
  ((component.properties.lookup "name").bind PropertyValue.string?).getD ""

/-- The strings of a property that holds a list. -/
def strings (component : Component) (property : String) : List String :=
  ((component.properties.lookup property).map PropertyValue.strings).getD []

mutual

/-- The value that is written, provided that the values of each list have one type. -/
def checkValue : ValueExpr → Except Diagnostic PropertyValue
  | .bool value _ => .ok (.bool value)
  | .int value _ => .ok (.int value)
  | .double value _ => .ok (.double value)
  | .string value _ => .ok (.string value)
  | .list values span => do
    match ← checkValues values with
    | [] => .ok (.list [])
    | first :: rest =>
      if rest.all (·.typeName == first.typeName) then .ok (.list (first :: rest))
      else .error (Diagnostic.error .propertyListTypeMismatch span)

/-- The values that are written, in order. -/
def checkValues : List ValueExpr → Except Diagnostic (List PropertyValue)
  | [] => .ok []
  | value :: rest => do
    let first ← checkValue value
    let others ← checkValues rest
    return first :: others

end

/-- The properties after one more of them, for a component called `component`. -/
def checkProperty (component : String) (properties : List (String × PropertyValue))
    (decl : PropertyDecl) : Except Diagnostic (List (String × PropertyValue)) :=
  let name := decl.name.value
  match PropertySchema.all.find? (·.name == name) with
  | none => .error (Diagnostic.error (.unknownProperty component name) decl.name.span)
  | some schema => do
    let value ← checkValue decl.value
    if schema.type.accepts value then return setProperty name value properties
    else
      throw (Diagnostic.error (.propertyTypeMismatch name schema.type.text value.typeName)
        decl.value.span)

/-- The component that is written, if it fits the schema, or else the first fault. -/
def check (decl : ComponentDecl) : Except Diagnostic Component :=
  let name := decl.name.value
  match ComponentKind.ofName? name with
  | none => .error (Diagnostic.error (.unknownComponent name) decl.name.span)
  | some kind => do
    let properties ← decl.properties.foldlM (checkProperty name) []
    let missing? := PropertySchema.all.find? fun schema =>
      schema.required && (properties.lookup schema.name).isNone
    match missing? with
    | some schema => throw (Diagnostic.error (.missingProperty name schema.name) decl.span)
    | none => return ⟨kind, properties, decl.span⟩

end Component

end BuildScript
