import BuildScript.BuildSystem.Call
import BuildScript.Text.Quoted

/-! The lines that tell what was asked of a build system. -/

namespace BuildScript

/-- The word for a visibility. -/
def Visibility.text : Visibility → String
  | privately => "Private"
  | publicly => "Public"
  | interfaceOnly => "Interface"

namespace BuildCall

/-- Quoted texts between square brackets. -/
def quotedList (texts : List String) : String :=
  "[" ++ ", ".intercalate (texts.map Text.quoted) ++ "]"

/-- A name with one quoted text. -/
def withText (name text : String) : String := name ++ "(" ++ Text.quoted text ++ ")"

/-- A name with named fields. -/
def withFields (name : String) (fields : List (String × String)) : String :=
  let shown := fields.map fun field => field.1 ++ ": " ++ field.2
  name ++ " \x7b " ++ ", ".intercalate shown ++ " \x7d"

/-- The line for a request about a target that others may see. -/
def aboutTarget (name target : String) (visibility : Visibility) (field value : String)
    : String :=
  withFields name
    [("target", Text.quoted target), ("visibility", visibility.text), (field, value)]

/-- A target with the files it is made of. -/
def withSources (name target : String) (sources : List String) : String :=
  name ++ "(" ++ target ++ " " ++ " ".intercalate sources ++ ")"

/-- The line for a request. Messages that are not fatal have none. -/
def describe? : BuildCall → Option String
  | message _ => none
  | warning _ => none
  | error _ => none
  | fatalError text => some ("fatal error: " ++ text)
  | registerProject name => some (withText "RegisterProject" name)
  | install target destination =>
    some (withFields "Install"
      [("target", Text.quoted target), ("destination", Text.quoted destination)])
  | addCustomCommand command output =>
    some (withFields "AddCustomCommand"
      [("command", quotedList command), ("output", Text.quoted output)])
  | addCustomTarget name command =>
    some (withFields "AddCustomTarget"
      [("name", Text.quoted name), ("command", quotedList command)])
  | makeDirectory directory => some (withText "MakeDirectory" directory)
  | addExecutable name sources => some (withSources "add_executable" name sources)
  | addLibrary name sources => some (withSources "add_library" name sources)
  | linkLibrary target visibility library =>
    some (aboutTarget "TargetLinkLibrary" target visibility "library" (Text.quoted library))
  | includeDirectories target visibility directories =>
    some (aboutTarget "TargetIncludeDirectories" target visibility "dirs"
      (quotedList directories))
  | compileDefinitions target visibility definitions =>
    some (aboutTarget "TargetCompileDefinitions" target visibility "definitions"
      (quotedList definitions))
  | compileOptions target visibility options =>
    some (aboutTarget "TargetCompileOptions" target visibility "options" (quotedList options))
  | addSources target visibility sources =>
    some (aboutTarget "TargetSources" target visibility "sources" (quotedList sources))
  | addListfileDirectory directory => some (withText "AddSubdirectoryWithOldScript" directory)
  | enterDirectory directory => some (withText "GoIntoSubdirectory" directory)
  | leaveDirectory => some "GoDirectoryUp"
  | enableCtest => some "EnableCtest"
  | addTest executable => some (withText "AddTest" executable)
  | setProperty name value =>
    some (withFields "SetProperty" [("name", Text.quoted name), ("value", Text.quoted value)])
  | registerOption name description value =>
    some (withFields "RegisterOption"
      [("name", Text.quoted name), ("description", Text.quoted description),
        ("value", toString value)])
  | setVariable name value =>
    some (withFields "SetOldStyleVariable"
      [("name", Text.quoted name), ("value", Text.quoted value)])

end BuildCall

end BuildScript
