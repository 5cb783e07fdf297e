import BuildScript.BuildSystem.Call
import BuildScript.Version

/-! A build system that carries nothing out: it keeps every request in order and answers
questions from what it was told.
-/

namespace BuildScript

/-- The state of a build system: the requests so far, the root of the sources, the directories
that were entered, innermost last, what was defined on the command line, the variables that
were set, and whether a fatal error was reported.
-/
structure BuildSystem where
  calls : Array BuildCall
  rootSourceDir : String
  directories : List String
  defines : List (String × String)
  options : List (String × Bool)
  settings : List (String × String)
  failed : Bool
deriving Inhabited

namespace BuildSystem

/-- A build system for the sources below a directory. -/
def ofRoot (rootSourceDir : String) : BuildSystem :=
  ⟨#[], rootSourceDir, [], [], [], [], false⟩

/-- Defines a value on the command line. The last definition of a name counts. -/
def define (system : BuildSystem) (name value : String) : BuildSystem :=
  { system with defines := (name, value) :: system.defines }

/-- Sets an option on the command line. The last value of a name counts. -/
def setOption (system : BuildSystem) (name : String) (value : Bool) : BuildSystem :=
  { system with options := (name, value) :: system.options }

/-! ## Requests -/

/-- What a request changes, apart from being kept. -/
def effect (system : BuildSystem) : BuildCall → BuildSystem
  | .fatalError _ => { system with failed := true }
  | .enterDirectory directory =>
    { system with directories := system.directories ++ [directory] }
  | .leaveDirectory => { system with directories := system.directories.dropLast }
  | .setVariable name value => { system with settings := (name, value) :: system.settings }
  | _ => system

/-- Makes a request. -/
def request (system : BuildSystem) (call : BuildCall) : BuildSystem :=
  effect { system with calls := system.calls.push call } call

/-! ## Questions -/

/-- The version of the build system. -/
def version : Version := ⟨3, 16, 0, 0⟩

/-- The command that runs the tests. -/
def ctestCommand : String := "ctest"

/-- The compilers that a build system can use. -/
inductive Compiler where
  | clang
  | gcc
  | msvc
deriving Repr, DecidableEq, Inhabited

/-- The name of a compiler. -/
def Compiler.text : Compiler → String
  | clang => "clang"
  | gcc => "gcc"
  | msvc => "msvc"

/-- The operating systems that a build system can run on. -/
inductive Platform where
  | windows
  | unix
deriving Repr, DecidableEq, Inhabited

/-- The name of an operating system. -/
def Platform.text : Platform → String
  | windows => "windows"
  | unix => "unix"

/-- The compiler in use. -/
def compiler : Compiler := .clang

/-- The operating system in use. -/
def platform : Platform := .unix

/-- A directory below a root, the way it was entered. -/
def below (root : String) (directories : List String) : String :=
  directories.foldl (fun path directory => path ++ "/" ++ directory) root

/-- The directory of the sources in use. -/
def currentSourceDir (system : BuildSystem) : String :=
  below system.rootSourceDir system.directories

/-- The directory in which the sources in use are built. -/
def currentBinaryDir (system : BuildSystem) : String :=
  below (system.rootSourceDir ++ "/build") system.directories

/-- The value defined for a name on the command line. -/
def definedValue? (system : BuildSystem) (name : String) : Option String :=
  system.defines.lookup name

/-- The value given to an option on the command line. -/
def optionValue? (system : BuildSystem) (name : String) : Option Bool := system.options.lookup name

/-- The value that a variable was set to last. -/
def variableValue? (system : BuildSystem) (name : String) : Option String :=
  system.settings.lookup name

/-- The texts of the plain messages, in order. -/
def messages (system : BuildSystem) : List String :=
  system.calls.toList.filterMap fun
    | .message text => some text
    | _ => none

end BuildSystem

end BuildScript
