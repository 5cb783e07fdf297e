/-! What scripts ask of a build system. -/

namespace BuildScript

/-- Who sees what is added to a target. -/
inductive Visibility where
  | privately
  | publicly
  | interfaceOnly
deriving Repr, DecidableEq, Inhabited

/-- The visibility of an enumerator. -/
def Visibility.ofEnumerator : Nat → Visibility
  | 1 => .publicly
  | 2 => .interfaceOnly
  | _ => .privately

/-- One request to a build system. -/
inductive BuildCall where
  | message (text : String)
  | warning (text : String)
  | error (text : String)
  | fatalError (text : String)
  | registerProject (name : String)
  | install (target destination : String)
  | addCustomCommand (command : List String) (output : String)
  | addCustomTarget (name : String) (command : List String)
  | makeDirectory (directory : String)
  | addExecutable (name : String) (sources : List String)
  | addLibrary (name : String) (sources : List String)
  | linkLibrary (target : String) (visibility : Visibility) (library : String)
  | includeDirectories (target : String) (visibility : Visibility) (directories : List String)
  | compileDefinitions (target : String) (visibility : Visibility) (definitions : List String)
  | compileOptions (target : String) (visibility : Visibility) (options : List String)
  | addSources (target : String) (visibility : Visibility) (sources : List String)
  | addListfileDirectory (directory : String)
  | enterDirectory (directory : String)
  | leaveDirectory
  | enableCtest
  | addTest (executable : String)
  | setProperty (name value : String)
  | registerOption (name description : String) (value : Bool)
  | setVariable (name value : String)
deriving Repr, DecidableEq, Inhabited

end BuildScript
