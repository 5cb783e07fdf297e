import BuildScript.Decimal.Integer
import BuildScript.Text.Lines
import BuildScript.Text.Plain

/-! What the arguments of the command line ask for. -/

namespace BuildScript

namespace CommandLine

/-- What a call asks for: the script, the directory that paths start from, whether to print the
checked script instead of running it, the greatest call depth, and the values and options given
to the script.
-/
structure Request where
  script : String
  sourceRoot : String
  dumps : Bool
  maxCallDepth? : Option Nat
  defines : List (String × String)
  options : List (String × Bool)
deriving Repr, DecidableEq

/-- What is asked for without arguments. -/
def Request.standard : Request :=
  ⟨"CMakeLists.cmsl", ".", false, none, [], []⟩

/-- The settings that a value can be given for. -/
inductive Setting where
  | sourceRoot
  | maxCallDepth
  | define
  | option
deriving Repr, DecidableEq

/-- The way a setting is shown to the user. -/
def Setting.usage : Setting → String
  | sourceRoot => "--source-root <SOURCE_ROOT>"
  | maxCallDepth => "--max-call-depth <MAX_CALL_DEPTH>"
  | define => "-D <DEFINES>"
  | option => "--option <OPTIONS>"

/-- The causes of mistakes in the arguments. -/
inductive UsageError where
  | invalidValue (setting : Setting) (value reason : String)
  | missingValue (setting : Setting)
  | repeated (setting : String)
  | unexpected (argument : String)
deriving Repr, DecidableEq

/-- What a mistake is, in parts that stand out from each other. -/
def UsageError.parts : UsageError → List String
  | invalidValue setting value reason =>
    ["invalid value '", value, "' for '", setting.usage, "': " ++ reason]
  | missingValue setting =>
    ["a value is required for '", setting.usage, "' but none was supplied"]
  | repeated setting => ["the argument '", setting, "' cannot be used multiple times"]
  | unexpected argument => ["unexpected argument '", argument, "' found"]

/-- The advice that ends each message, which follows on the last part before it. -/
def advise : List String → List String
  | [] => []
  | [part] => [part ++ "\n\nFor more information, try '", "--help", "'.\n"]
  | part :: rest => part :: advise rest

/-- The message about a mistake. Arguments show as plain text, and an escape sequence in one ends
with the part of the message that it is in.
-/
def UsageError.message (mistake : UsageError) : String :=
  String.join ("error: " :: (advise mistake.parts).map Text.plain)

/-- The first line of the message about a mistake. -/
def UsageError.headline (mistake : UsageError) : String :=
  String.ofList (Text.firstLineContent mistake.message.toList)

/-- The name and the value around the first equals sign. -/
def splitAssignment? (argument : String) : Option (String × String) :=
  let text := argument.toList
  let name := text.takeWhile (· != '=')
  match text.dropWhile (· != '=') with
  | [] => none
  | _ :: value => some (String.ofList name, String.ofList value)

/-- The name and the value that an argument gives. -/
def readAssignment (argument : String) : Except String (String × String) :=
  match splitAssignment? argument with
  | some assignment => .ok assignment
  | none => .error ("expected NAME=VALUE, got '" ++ argument ++ "'")

/-- The name and the truth that an argument gives. -/
def readOption (argument : String) : Except String (String × Bool) := do
  let (name, value) ← readAssignment argument
  let word := String.ofList (value.toList.map Char.toUpper)
  if ["ON", "TRUE", "YES", "1"].contains word then return (name, true)
  else if ["OFF", "FALSE", "NO", "0"].contains word then return (name, false)
  else throw ("expected ON or OFF for '" ++ name ++ "', got '" ++ value ++ "'")

/-- The number that an argument gives. -/
def readDepth (argument : String) : Except String Nat :=
  let digits :=
    match argument.toList with
    | '+' :: digits => digits
    | digits => digits
  if argument.isEmpty then .error "cannot parse integer from empty string"
  else
    match Decimal.readNat? digits with
    | none => .error "invalid digit found in string"
    | some depth =>
      if depth < UInt64.size then .ok depth else .error "number too large to fit in target type"

/-- The request with a value for a setting. -/
def Request.give (request : Request) (setting : Setting) (value : String)
    : Except UsageError Request :=
  let invalid {α : Type} : Except String α → Except UsageError α :=
    Except.mapError (UsageError.invalidValue setting value)
  match setting with
  | .sourceRoot => return { request with sourceRoot := value }
  | .maxCallDepth => do
    let depth ← invalid (readDepth value)
    return { request with maxCallDepth? := some depth }
  | .define => do
    let define ← invalid (readAssignment value)
    return { request with defines := request.defines ++ [define] }
  | .option => do
    let option ← invalid (readOption value)
    return { request with options := request.options ++ [option] }

/-- The setting of a long name. -/
def longSetting? (name : String) : Option Setting :=
  [("source-root", Setting.sourceRoot), ("max-call-depth", .maxCallDepth),
    ("option", .option)].lookup name

/-- The setting of a letter. -/
def letterSetting? (letter : Char) : Option Setting :=
  [('D', Setting.define), ('O', .option)].lookup letter

/-- What a single argument is. -/
inductive Argument where
  | script (name : String)
  | dump
  | assignment (setting : Setting) (value? : Option String)
  | unknown
deriving Repr, DecidableEq

/-- What an argument is: a value can be part of it, after an equals sign or right after the
letter.
-/
def Argument.ofText (text : String) : Argument :=
  match text.toList with
  | '-' :: '-' :: name =>
    let argument := (splitAssignment? (String.ofList name)).map fun (name, value) =>
      (name, some value)
    let (name, value?) := argument.getD (String.ofList name, none)
    match longSetting? name with
    | some setting => .assignment setting value?
    | none => if name == "dump-sema" && value?.isNone then .dump else .unknown
  | '-' :: letter :: value =>
    match letterSetting? letter, value with
    | some setting, [] => .assignment setting none
    | some setting, '=' :: value => .assignment setting (some (String.ofList value))
    | some setting, value => .assignment setting (some (String.ofList value))
    | none, _ => .unknown
  | _ => .script text

/-- Whether an argument can be the value of the setting before it. -/
def canBeValue (argument : String) : Bool :=
  !(argument.toList.head? == some '-') || argument == "-"

/-- A setting that counts only once. -/
def Setting.isSingle : Setting → Bool
  | sourceRoot | maxCallDepth => true
  | define | option => false

/-- The arguments that were seen and that count only once. -/
structure Seen where
  script : Bool
  dump : Bool
  settings : List Setting

/-- The request that arguments make. After two dashes there are only scripts. -/
def readFrom (request : Request) (seen : Seen) : List String → Except UsageError Request
  | [] => .ok request
  | "--" :: rest =>
    match rest with
    | [] => .ok request
    | [script] =>
      if seen.script then .error (.unexpected script) else .ok { request with script }
    | _ :: extra :: _ => .error (.unexpected extra)
  | argument :: rest =>
    match Argument.ofText argument with
    | .unknown => .error (.unexpected argument)
    | .dump =>
      if seen.dump then .error (.repeated "--dump-sema")
      else readFrom { request with dumps := true } { seen with dump := true } rest
    | .script script =>
      if seen.script then .error (.unexpected script)
      else readFrom { request with script } { seen with script := true } rest
    | .assignment setting given? =>
      if setting.isSingle && seen.settings.contains setting then
        .error (.repeated setting.usage)
      else
        let seen := { seen with settings := setting :: seen.settings }
        match given?, rest with
        | some value, rest => do readFrom (← request.give setting value) seen rest
        | none, value :: rest =>
          if canBeValue value then do readFrom (← request.give setting value) seen rest
          else .error (.missingValue setting)
        | none, [] => .error (.missingValue setting)

/-- The request that the arguments make. -/
def read (arguments : List String) : Except UsageError Request :=
  readFrom Request.standard ⟨false, false, []⟩ arguments

end CommandLine

end BuildScript
