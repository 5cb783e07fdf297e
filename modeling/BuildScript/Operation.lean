/-! The operations that the language itself provides, one for each signature. -/

namespace BuildScript

/-- The comparisons of ordered values. -/
inductive Comparison where
  | less
  | lessOrEqual
  | greater
  | greaterOrEqual
  | equal
  | notEqual
deriving Repr, DecidableEq, Inhabited

/-- The arithmetic of integers. -/
inductive IntArithmetic where
  | add
  | subtract
  | multiply
  | divide
  | remainder
deriving Repr, DecidableEq, Inhabited

/-- The arithmetic of floating-point numbers. -/
inductive DoubleArithmetic where
  | add
  | subtract
  | multiply
  | divide
deriving Repr, DecidableEq, Inhabited

/-- The operations of `bool`. -/
inductive BoolOperation where
  | default
  | copy
  | ofInt
  | assign
  | equal
  | notEqual
  | and
  | or
  | not
  | text
deriving Repr, DecidableEq, Inhabited

/-- The operations of `int`. -/
inductive IntOperation where
  | default
  | ofBool
  | copy
  | ofDouble
  | text
  | arithmetic (operator : IntArithmetic)
  | negate
  | assign
  | update (operator : IntArithmetic)
  | increment
  | decrement
  | compare (comparison : Comparison)
deriving Repr, DecidableEq, Inhabited

/-- The operations of `double`. -/
inductive DoubleOperation where
  | default
  | copy
  | ofInt
  | arithmetic (operator : DoubleArithmetic)
  | negate
  | assign
  | update (operator : DoubleArithmetic)
  | compare (comparison : Comparison)
  | text
deriving Repr, DecidableEq, Inhabited

/-- The operations of `string`. -/
inductive StringOperation where
  | default
  | copy
  | repeated
  | isEmpty
  | size
  | compare (comparison : Comparison)
  | append
  | assign
  | appendTo
  | clear
  | insert
  | eraseFrom
  | erase
  | startsWith
  | endsWith
  | replace
  | substringFrom
  | substring
  | resize
  | resizeWith
  | find
  | findFrom
  | findNotOf
  | findNotOfFrom
  | findLast
  | findLastNotOf
  | contains
  | lower
  | makeLower
  | upper
  | makeUpper
deriving Repr, DecidableEq, Inhabited

/-- The parts of a version, most significant first. -/
inductive VersionPart where
  | major
  | minor
  | patch
  | tweak
deriving Repr, DecidableEq, Inhabited

/-- The operations of `version`. A version is made of its parts down to `last`. -/
inductive VersionOperation where
  | ofParts (last : VersionPart)
  | assign
  | compare (comparison : Comparison)
  | part (part : VersionPart)
  | text
deriving Repr, DecidableEq, Inhabited

/-- The operations of `list<T>`. Many take one value or a list of values. -/
inductive ListOperation where
  | default
  | pushBack
  | pushBackAll
  | pushFront
  | pushFrontAll
  | popBack
  | popFront
  | at
  | front
  | back
  | insert
  | insertAll
  | eraseAt
  | erase
  | remove
  | removeFirst
  | removeLast
  | clear
  | resize
  | sort
  | reverse
  | min
  | max
  | sublistFrom
  | sublist
  | size
  | isEmpty
  | find
  | findFrom
  | append
  | appendAll
  | appendTo
  | appendAllTo
  | assign
deriving Repr, DecidableEq, Inhabited

/-- The operations of `extern<T>`. -/
inductive ExternalOperation where
  | ofName
  | hasValue
  | value
  | assign
deriving Repr, DecidableEq, Inhabited

/-- The operations of projects. -/
inductive ProjectOperation where
  | ofName
  | name
  | addExecutable
  | addLibrary
  | assign
deriving Repr, DecidableEq, Inhabited

/-- What can be added to a target. -/
inductive TargetProperty where
  | library
  | includeDirectories
  | compileDefinitions
  | compileOptions
  | sources
deriving Repr, DecidableEq, Inhabited

/-- The operations of targets. Properties are added privately or with a given visibility. -/
inductive TargetOperation where
  | name
  | add (property : TargetProperty)
  | addVisibly (property : TargetProperty)
  | assign
deriving Repr, DecidableEq, Inhabited

/-- The operations of enumerations. -/
inductive EnumOperation where
  | assign
  | equal
  | notEqual
  | text
deriving Repr, DecidableEq, Inhabited

/-- The functions that speak to the build system. -/
inductive SystemOperation where
  | message
  | warning
  | error
  | fatalError
  | minimumRequired
  | version
  | install
  | installTo
  | enableCtest
  | addTest
  | currentSourceDir
  | currentBinaryDir
  | rootSourceDir
  | option
  | setVariable
  | getVariable
  | makeDirectory
  | addCustomCommand
  | addCustomTarget
  | setProperty
  | ctestCommand
  | systemName
  | compilerName
deriving Repr, DecidableEq, Inhabited

/-- All operations, by the type they belong to. -/
inductive Operation where
  | bool (operation : BoolOperation)
  | int (operation : IntOperation)
  | double (operation : DoubleOperation)
  | string (operation : StringOperation)
  | version (operation : VersionOperation)
  | list (operation : ListOperation)
  | external (operation : ExternalOperation)
  | project (operation : ProjectOperation)
  | target (operation : TargetOperation)
  | enumeration (operation : EnumOperation)
  | assignObject
  | system (operation : SystemOperation)
deriving Repr, DecidableEq, Inhabited

end BuildScript
