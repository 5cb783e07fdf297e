import BuildScript.Proofs.Registry.Growth
import BuildScript.Proofs.Run.OperationRequests
import BuildScript.Workspace.Loader
import Mathlib.Data.List.Forall2
import Mathlib.Data.List.Induction

/-! Components from their properties to the build system. A component is accepted exactly if all its
properties have the shape that the schema asks for and the required ones are there. Then what it
asks of the build system is made of the last values of its properties, and nothing of them is lost.
-/

namespace BuildScript

-----------------------------------------------------------------------------------------
-- Shapes
-----------------------------------------------------------------------------------------

/-- (IsText value text) says that a value is a string with some text. -/
def ValueExpr.IsText (value : ValueExpr) (text : String) : Prop :=
  ∃ span, value = .string text span

/-- (AreTexts value texts) says that a value is a list of strings with some texts, in order. -/
def ValueExpr.AreTexts (value : ValueExpr) (texts : List String) : Prop :=
  ∃ values span, value = .list values span ∧ List.Forall₂ IsText values texts

/-- (Fits decl) says that a property is a name with a text, or one of the others with texts. -/
inductive PropertyDecl.Fits (decl : PropertyDecl) : Prop
  | text {text} (named : decl.name.value = "name") (isText : decl.value.IsText text)
  | texts {texts}
    (named : decl.name.value ∈
      ["files", "include_dirs", "compile_definitions", "compile_options", "link_to"])
    (areTexts : decl.value.AreTexts texts)

namespace ComponentDecl

/-- (Occurs decl name) says that a component has a property of a name. -/
def Occurs (decl : ComponentDecl) (name : String) : Prop :=
  ∃ property ∈ decl.properties, property.name.value = name

/-- (Fits decl) says that a component is a library or an executable, all of whose properties fit,
with a name and files.
-/
structure Fits (decl : ComponentDecl) : Prop where
  kind : decl.name.value = "library" ∨ decl.name.value = "executable"
  properties : ∀ property ∈ decl.properties, property.Fits
  name : decl.Occurs "name"
  files : decl.Occurs "files"

end ComponentDecl

/-- (lastValue? properties name) is what some properties give a name last. -/
def lastValue? (properties : List PropertyDecl) (name : String) : Option ValueExpr :=
  (properties.reverse.find? (·.name.value == name)).map (·.value)

/-- The texts that a component is made of. -/
structure ComponentTexts where
  name : String
  files : List String
  includeDirs : List String
  definitions : List String
  options : List String
  libraries : List String

namespace ComponentTexts

/-- (OfLast properties name texts) says that they are those of the last value of a name, or none
without such a value.
-/
def OfLast (properties : List PropertyDecl) (name : String) (texts : List String) : Prop :=
  match lastValue? properties name with
  | some value => value.AreTexts texts
  | none => texts = []

/-- (Of texts properties) says that the texts are those that the properties of a component have
last.
-/
structure Of (texts : ComponentTexts) (properties : List PropertyDecl) : Prop where
  name : ∃ value, lastValue? properties "name" = some value ∧ value.IsText texts.name
  files : ∃ value, lastValue? properties "files" = some value ∧ value.AreTexts texts.files
  includeDirs : OfLast properties "include_dirs" texts.includeDirs
  definitions : OfLast properties "compile_definitions" texts.definitions
  options : OfLast properties "compile_options" texts.options
  libraries : OfLast properties "link_to" texts.libraries

/-- (requests texts kind) is what a component of a kind asks of the build system. -/
def requests (texts : ComponentTexts) (kind : ComponentKind) : List BuildCall :=
  let target :=
    match kind with
    | .library => .addLibrary texts.name texts.files
    | .executable => .addExecutable texts.name texts.files
  let includeDirs :=
    if texts.includeDirs = [] then []
    else [.includeDirectories texts.name .privately texts.includeDirs]
  let definitions :=
    if texts.definitions = [] then []
    else [.compileDefinitions texts.name .privately texts.definitions]
  let options :=
    if texts.options = [] then [] else [.compileOptions texts.name .privately texts.options]
  let libraries := texts.libraries.map fun library => .linkLibrary texts.name .privately library
  target :: (includeDirs ++ definitions ++ options ++ libraries)

end ComponentTexts

-----------------------------------------------------------------------------------------
-- Values
-----------------------------------------------------------------------------------------

/-- (IsShapeOf type value) says that a value is written the way that a type asks for. -/
def PropertyType.IsShapeOf : PropertyType → ValueExpr → Prop
  | string, value => ∃ text, value.IsText text
  | stringList, value => ∃ texts, value.AreTexts texts

namespace Component

variable {written : ValueExpr} {value : PropertyValue} {type : PropertyType}

/-- A list is checked to its checked values, provided that they have one type. -/
theorem checkValue_list {values : List ValueExpr} {span : Span}
    : checkValue (.list values span) = .ok value ↔
        ∃ found, checkValues values = .ok found ∧ value = .list found
          ∧ ∀ first rest, found = first :: rest →
              rest.all (·.typeName == first.typeName) = true := by
  rw [checkValue]
  cases checkValues values with
  | error diagnostic => simp [bind, Except.bind]
  | ok found =>
      cases found with
      | nil =>
          constructor
          · rintro ⟨⟩
            exact ⟨_, rfl, rfl, by simp⟩
          · rintro ⟨found, ⟨⟩, rfl, -⟩
            rfl
      | cons first rest =>
          by_cases uniform : rest.all (·.typeName == first.typeName) = true
          · simp only [bind, Except.bind, if_pos uniform]
            constructor
            · rintro ⟨⟩
              exact ⟨_, rfl, rfl, by simpa using uniform⟩
            · rintro ⟨found, ⟨⟩, rfl, -⟩
              rfl
          · simp only [bind, Except.bind, if_neg uniform]
            constructor
            · rintro ⟨⟩
            · rintro ⟨found, ⟨⟩, -, every⟩
              exact absurd (every first rest rfl) uniform

/-- Only a string gives a string. -/
theorem checkValue_eq_string {text : String}
    : checkValue written = .ok (.string text) ↔ written.IsText text := by
  constructor
  · intro checked
    cases written with
    | string text span =>
        cases checked
        exact ⟨span, rfl⟩
    | list values span =>
        obtain ⟨found, -, isList, -⟩ := checkValue_list.mp checked
        cases isList
    | bool | int | double => cases checked
  · rintro ⟨span, rfl⟩
    rfl

theorem checkValues_cons {first : ValueExpr} {rest : List ValueExpr} {found : List PropertyValue}
    : checkValues (first :: rest) = .ok found ↔
        ∃ value others,
          checkValue first = .ok value ∧ checkValues rest = .ok others
          ∧ found = value :: others := by
  rw [checkValues]
  cases checkValue first with
  | error diagnostic => simp [bind, Except.bind]
  | ok value =>
      cases checkValues rest with
      | error diagnostic => simp [bind, Except.bind]
      | ok others => simp [bind, Except.bind, pure, Except.pure, eq_comm]

/-- Strings give strings, and only they do, by induction over the values. -/
theorem checkValues_eq_strings {values : List ValueExpr} {texts : List String}
    : checkValues values = .ok (texts.map .string) ↔
        List.Forall₂ ValueExpr.IsText values texts := by
  induction values generalizing texts with
  | nil => cases texts <;> simp [checkValues]
  | cons first rest ih =>
      rw [checkValues_cons]
      cases texts with
      | nil => simp
      | cons text texts =>
          simp only [List.map_cons, List.cons.injEq, List.forall₂_cons, ← ih,
            ← checkValue_eq_string]
          constructor
          · rintro ⟨value, others, isFirst, areOthers, rfl, rfl⟩
            exact ⟨isFirst, areOthers⟩
          · rintro ⟨isFirst, areOthers⟩
            exact ⟨_, _, isFirst, areOthers, rfl, rfl⟩

/-- Of lists only those of strings are accepted, by induction over their values. -/
theorem eq_strings_of_accepts (accepted : PropertyType.stringList.accepts value = true)
    : value = .list (value.strings.map .string) := by
  cases value with
  | list values =>
      induction values with
      | nil => rfl
      | cons first rest ih =>
          simp only [PropertyType.accepts, List.all_cons, Bool.and_eq_true] at accepted ih
          have later := ih accepted.2
          cases first with
          | string text => simpa [PropertyValue.strings, PropertyValue.string?] using later
          | bool | int | double | list => cases accepted.1
  | bool | int | double | string => cases accepted

/-- A list of strings gives a list of strings, since all its values have one type. -/
theorem checkValue_eq_strings {texts : List String}
    : checkValue written = .ok (.list (texts.map .string)) ↔ written.AreTexts texts := by
  constructor
  · intro checked
    cases written with
    | list values span =>
        obtain ⟨found, areFound, same, -⟩ := checkValue_list.mp checked
        cases same
        exact ⟨values, span, rfl, checkValues_eq_strings.mp areFound⟩
    | bool | int | double | string => cases checked
  · rintro ⟨values, span, rfl, areTexts⟩
    refine checkValue_list.mpr ⟨_, checkValues_eq_strings.mpr areTexts, rfl, ?_⟩
    intro first rest isCons
    obtain ⟨text, others, rfl, rfl, rfl⟩ := List.map_eq_cons_iff.mp isCons
    simp [PropertyValue.typeName]

/-- A value is accepted for a type exactly if it is written in the shape of the type. -/
theorem accepts_iff
    : (∃ value, checkValue written = .ok value ∧ type.accepts value = true) ↔
        type.IsShapeOf written := by
  cases type with
  | string =>
      simp only [PropertyType.IsShapeOf, ← checkValue_eq_string]
      constructor
      · rintro ⟨value, checked, accepted⟩
        cases value with
        | string text => exact ⟨text, checked⟩
        | bool | int | double | list => cases accepted
      · rintro ⟨text, checked⟩
        exact ⟨_, checked, rfl⟩
  | stringList =>
      simp only [PropertyType.IsShapeOf, ← checkValue_eq_strings]
      constructor
      · rintro ⟨value, checked, accepted⟩
        rw [eq_strings_of_accepts accepted] at checked
        exact ⟨_, checked⟩
      · rintro ⟨texts, checked⟩
        exact ⟨_, checked, by simp [PropertyType.accepts, PropertyValue.string?]⟩

-----------------------------------------------------------------------------------------
-- Properties
-----------------------------------------------------------------------------------------

/-- Only the value of the property that is given changes. -/
theorem lookup_setProperty (name : String) (value : PropertyValue)
    (properties : List (String × PropertyValue)) (key : String)
    : (setProperty name value properties).lookup key =
        if name == key then some value else properties.lookup key := by
  induction properties with
  | nil =>
      rw [setProperty, List.lookup_cons, Bool.beq_comm]
      split <;> simp_all
  | cons entry rest ih =>
      obtain ⟨first, old⟩ := entry
      by_cases here : first = name
      · subst here
        by_cases same : key = first
        · simp [setProperty, same]
        · have apart : (key == first) = false := beq_eq_false_iff_ne.mpr same
          simp [setProperty, List.lookup_cons, apart, Ne.symm same]
      · by_cases same : key = first
        · subst same
          simp [setProperty, here, Ne.symm here]
        · have apart : (key == first) = false := beq_eq_false_iff_ne.mpr same
          simp [setProperty, List.lookup_cons, here, apart, ih]

/-- (Gives name written value) says that what is written is accepted as the value of a property. -/
def Gives (name : String) (written : ValueExpr) (value : PropertyValue) : Prop :=
  ∃ schema ∈ PropertySchema.all,
    schema.name = name ∧ checkValue written = .ok value ∧ schema.type.accepts value = true

/-- A name is in the schema once. -/
theorem find?_schema {name : String} {schema : PropertySchema}
    : PropertySchema.all.find? (·.name == name) = some schema ↔
        schema ∈ PropertySchema.all ∧ schema.name = name := by
  have once : ∀ schema ∈ PropertySchema.all,
      PropertySchema.all.find? (·.name == schema.name) = some schema := by
    decide
  constructor
  · intro found
    exact ⟨List.mem_of_find?_eq_some found, by simpa using List.find?_some found⟩
  · rintro ⟨among, rfl⟩
    exact once schema among

/-- A property is accepted exactly if it is given an accepted value, which it then has. -/
theorem checkProperty_eq_ok {component : String} {properties after : List (String × PropertyValue)}
    {decl : PropertyDecl}
    : checkProperty component properties decl = .ok after ↔
        ∃ value, Gives decl.name.value decl.value value
          ∧ after = setProperty decl.name.value value properties := by
  rw [checkProperty]
  cases found : PropertySchema.all.find? (·.name == decl.name.value) with
  | none =>
      constructor
      · rintro ⟨⟩
      · rintro ⟨value, ⟨schema, among, named, -⟩, -⟩
        cases found.symm.trans (find?_schema.mpr ⟨among, named⟩)
  | some schema =>
      obtain ⟨among, named⟩ := find?_schema.mp found
      have only : ∀ value, Gives decl.name.value decl.value value ↔
          checkValue decl.value = .ok value ∧ schema.type.accepts value = true := by
        intro value
        constructor
        · rintro ⟨other, otherAmong, otherNamed, checked, accepted⟩
          cases found.symm.trans (find?_schema.mpr ⟨otherAmong, otherNamed⟩)
          exact ⟨checked, accepted⟩
        · rintro ⟨checked, accepted⟩
          exact ⟨schema, among, named, checked, accepted⟩
      simp only [only]
      cases checkValue decl.value with
      | error diagnostic => simp [bind, Except.bind]
      | ok value =>
          simp only [bind, Except.bind]
          split
          · next accepted =>
              constructor
              · rintro ⟨⟩
                exact ⟨value, ⟨rfl, accepted⟩, rfl⟩
              · rintro ⟨given, ⟨⟨⟩, -⟩, rfl⟩
                rfl
          · next refused => simp [refused, throw, throwThe, MonadExceptOf.throw]

/-- The properties of the schema are a name and lists. -/
theorem fits_iff {decl : PropertyDecl}
    : decl.Fits ↔
        ∃ schema ∈ PropertySchema.all,
          schema.name = decl.name.value ∧ schema.type.IsShapeOf decl.value := by
  constructor
  · rintro (⟨named, isText⟩ | ⟨named, areTexts⟩)
    · exact ⟨⟨"name", .string, true⟩, by decide, named.symm, _, isText⟩
    · simp only [List.mem_cons, List.not_mem_nil, or_false] at named
      simp only [PropertySchema.all, List.mem_cons, List.not_mem_nil, or_false]
      rcases named with named | named | named | named | named <;>
        simpa [named, PropertyType.IsShapeOf] using ⟨_, areTexts⟩
  · rintro ⟨schema, among, named, isShape⟩
    simp only [PropertySchema.all, List.mem_cons, List.not_mem_nil, or_false] at among
    rcases among with rfl | rfl | rfl | rfl | rfl | rfl
    · exact .text named.symm isShape.choose_spec
    all_goals exact .texts (by simp [← named]) isShape.choose_spec

theorem exists_gives {decl : PropertyDecl}
    : (∃ value, Gives decl.name.value decl.value value) ↔ decl.Fits := by
  simp only [Gives, fits_iff, ← accepts_iff]
  constructor
  · rintro ⟨value, schema, among, named, checked, accepted⟩
    exact ⟨schema, among, named, value, checked, accepted⟩
  · rintro ⟨schema, among, named, value, checked, accepted⟩
    exact ⟨value, schema, among, named, checked, accepted⟩

/-- (Records decls properties) says that some properties have the values that they were given last.
-/
def Records (decls : List PropertyDecl) (properties : List (String × PropertyValue)) : Prop :=
  ∀ name, Option.Rel (Gives name) (lastValue? decls name) (properties.lookup name)

theorem Records.nil : Records [] [] := fun _ => .none

theorem lastValue?_concat (decls : List PropertyDecl) (decl : PropertyDecl) (name : String)
    : lastValue? (decls ++ [decl]) name =
        if decl.name.value == name then some decl.value else lastValue? decls name := by
  rw [lastValue?, List.reverse_append, List.reverse_singleton, List.singleton_append,
    List.find?_cons]
  split <;> simp_all [lastValue?]

/-- A property that is given an accepted value is recorded with it. -/
theorem Records.concat {decls : List PropertyDecl} {properties : List (String × PropertyValue)}
    {decl : PropertyDecl} {value : PropertyValue} (records : Records decls properties)
    (gives : Gives decl.name.value decl.value value)
    : Records (decls ++ [decl]) (setProperty decl.name.value value properties) := by
  intro name
  rw [lastValue?_concat, lookup_setProperty]
  split
  · next same =>
      rw [← beq_iff_eq.mp same]
      exact .some gives
  · exact records name

theorem foldlM_concat (component : String) (decls : List PropertyDecl) (decl : PropertyDecl)
    : (decls ++ [decl]).foldlM (checkProperty component) [] =
        (decls.foldlM (checkProperty component) [] >>= fun properties =>
          checkProperty component properties decl) := by
  simp

/-- Accepted properties fit and are recorded, by induction over those that come first. -/
theorem fit_of_foldlM {component : String} {decls : List PropertyDecl}
    {properties : List (String × PropertyValue)}
    (accepted : decls.foldlM (checkProperty component) [] = .ok properties)
    : (∀ decl ∈ decls, decl.Fits) ∧ Records decls properties := by
  induction decls using List.reverseRecOn generalizing properties with
  | nil =>
      cases accepted
      exact ⟨by simp, .nil⟩
  | append_singleton decls decl ih =>
      rw [foldlM_concat] at accepted
      cases earlier : decls.foldlM (checkProperty component) [] with
      | error diagnostic =>
          rw [earlier] at accepted
          cases accepted
      | ok before =>
          rw [earlier] at accepted
          obtain ⟨fit, records⟩ := ih earlier
          obtain ⟨value, gives, rfl⟩ := checkProperty_eq_ok.mp accepted
          refine ⟨fun each among => ?_, records.concat gives⟩
          rcases List.mem_append.mp among with early | last
          · exact fit each early
          · rw [List.mem_singleton.mp last]
            exact exists_gives.mp ⟨value, gives⟩

/-- Properties that fit are accepted, by induction over those that come first. -/
theorem foldlM_of_fit {decls : List PropertyDecl} (fit : ∀ decl ∈ decls, decl.Fits)
    (component : String)
    : ∃ properties, decls.foldlM (checkProperty component) [] = .ok properties := by
  induction decls using List.reverseRecOn with
  | nil => exact ⟨[], rfl⟩
  | append_singleton decls decl ih =>
      obtain ⟨before, earlier⟩ := ih fun each among => fit each (List.mem_append_left _ among)
      obtain ⟨value, gives⟩ := exists_gives.mpr (fit decl (by simp))
      rw [foldlM_concat, earlier]
      exact ⟨_, checkProperty_eq_ok.mpr ⟨value, gives, rfl⟩⟩

-----------------------------------------------------------------------------------------
-- Refusals
-----------------------------------------------------------------------------------------

mutual

/-- What refuses a value is an error, by induction over its parts. -/
theorem severity_of_checkValue {written : ValueExpr} {diagnostic : Diagnostic}
    (refused : checkValue written = .error diagnostic)
    : diagnostic.severity = .error := by
  cases written with
  | list values span =>
      rw [checkValue] at refused
      cases outcome : checkValues values with
      | error inner =>
          rw [outcome] at refused
          cases refused
          exact severity_of_checkValues outcome
      | ok found =>
          rw [outcome] at refused
          cases found with
          | nil => cases refused
          | cons first rest =>
              simp only [bind, Except.bind] at refused
              split at refused
              · cases refused
              · cases refused
                rfl
  | bool | int | double | string => cases refused

/-- What refuses one of several values is an error. -/
theorem severity_of_checkValues {written : List ValueExpr} {diagnostic : Diagnostic}
    (refused : checkValues written = .error diagnostic)
    : diagnostic.severity = .error := by
  cases written with
  | nil => cases refused
  | cons first rest =>
      rw [checkValues] at refused
      cases outcome : checkValue first with
      | error inner =>
          rw [outcome] at refused
          cases refused
          exact severity_of_checkValue outcome
      | ok value =>
          cases later : checkValues rest with
          | error inner =>
              rw [outcome, later] at refused
              cases refused
              exact severity_of_checkValues later
          | ok others =>
              rw [outcome, later] at refused
              cases refused

end

theorem severity_of_checkProperty {component : String}
    {properties : List (String × PropertyValue)} {decl : PropertyDecl} {diagnostic : Diagnostic}
    (refused : checkProperty component properties decl = .error diagnostic)
    : diagnostic.severity = .error := by
  rw [checkProperty] at refused
  split at refused
  · cases refused
    rfl
  · cases outcome : checkValue decl.value with
    | error inner =>
        rw [outcome] at refused
        cases refused
        exact severity_of_checkValue outcome
    | ok value =>
        rw [outcome] at refused
        simp only [bind, Except.bind] at refused
        split at refused <;> cases refused
        rfl

theorem severity_of_foldlM {component : String} {decls : List PropertyDecl}
    {properties : List (String × PropertyValue)} {diagnostic : Diagnostic}
    (refused : decls.foldlM (checkProperty component) properties = .error diagnostic)
    : diagnostic.severity = .error := by
  induction decls generalizing properties with
  | nil => cases refused
  | cons decl rest ih =>
      rw [List.foldlM_cons] at refused
      cases outcome : checkProperty component properties decl with
      | error inner =>
          rw [outcome] at refused
          cases refused
          exact severity_of_checkProperty outcome
      | ok after =>
          rw [outcome] at refused
          exact ih refused

-----------------------------------------------------------------------------------------
-- Components
-----------------------------------------------------------------------------------------

variable {decl : ComponentDecl} {component : Component} {decls : List PropertyDecl}
  {properties : List (String × PropertyValue)}

theorem ofName?_eq_some {name : String} {kind : ComponentKind}
    : ComponentKind.ofName? name = some kind ↔ name = kind.text := by
  constructor
  · intro found
    rw [ComponentKind.ofName?] at found
    have same : kind.text = name := by simpa using List.find?_some found
    exact same.symm
  · rintro rfl
    cases kind <;> decide

theorem Records.cases (records : Records decls properties) (name : String)
    : (lastValue? decls name = none ∧ properties.lookup name = none)
      ∨ (∃ written value,
          lastValue? decls name = some written ∧ properties.lookup name = some value
          ∧ Gives name written value) := by
  have related := records name
  generalize lastValue? decls name = last? at related ⊢
  generalize properties.lookup name = recorded? at related ⊢
  cases related with
  | none => exact .inl ⟨rfl, rfl⟩
  | some gives => exact .inr ⟨_, _, rfl, rfl, gives⟩

theorem Records.isSome_lookup (records : Records decls properties) (name : String)
    : (properties.lookup name).isSome = true ↔ ∃ decl ∈ decls, decl.name.value = name := by
  have same : (properties.lookup name).isSome = (lastValue? decls name).isSome := by
    rcases records.cases name with ⟨last, recorded⟩ | ⟨_, _, last, recorded, -⟩ <;>
      rw [last, recorded] <;> rfl
  rw [same, lastValue?]
  simp

theorem missing?_eq_none
    : (PropertySchema.all.find? fun schema =>
          schema.required && (properties.lookup schema.name).isNone) = none ↔
        (properties.lookup "name").isSome = true ∧ (properties.lookup "files").isSome = true := by
  simp [PropertySchema.all, Option.isSome_iff_ne_none]

/-- A component is accepted exactly if its properties are and the required ones are recorded. -/
theorem check_eq_ok
    : check decl = .ok component ↔
        ∃ kind properties,
          decl.name.value = ComponentKind.text kind
          ∧ decl.properties.foldlM (checkProperty decl.name.value) [] = .ok properties
          ∧ ((properties.lookup "name").isSome = true
              ∧ (properties.lookup "files").isSome = true)
          ∧ component = ⟨kind, properties, decl.span⟩ := by
  simp only [← ofName?_eq_some, ← missing?_eq_none, check]
  cases ComponentKind.ofName? decl.name.value with
  | none => simp
  | some kind =>
      cases decl.properties.foldlM (checkProperty decl.name.value) [] with
      | error diagnostic => simp [bind, Except.bind]
      | ok properties =>
          simp only [bind, Except.bind]
          split
          · next schema missing =>
              constructor
              · rintro ⟨⟩
              · rintro ⟨_, _, ⟨⟩, ⟨⟩, complete, -⟩
                cases missing.symm.trans complete
          · next complete =>
              constructor
              · rintro ⟨⟩
                exact ⟨kind, properties, rfl, rfl, complete, rfl⟩
              · rintro ⟨_, _, ⟨⟩, ⟨⟩, -, rfl⟩
                rfl

theorem check_iff_fits : (∃ component, check decl = .ok component) ↔ decl.Fits := by
  simp only [check_eq_ok]
  constructor
  · rintro ⟨component, kind, properties, named, accepted, ⟨name, files⟩, -⟩
    obtain ⟨fit, records⟩ := fit_of_foldlM accepted
    refine ⟨?_, fit, (records.isSome_lookup _).mp name, (records.isSome_lookup _).mp files⟩
    rw [named]
    cases kind with
    | library => exact .inl rfl
    | executable => exact .inr rfl
  · intro fits
    have isKind : ∃ kind : ComponentKind, decl.name.value = kind.text := by
      rcases fits.kind with library | executable
      · exact ⟨.library, library⟩
      · exact ⟨.executable, executable⟩
    obtain ⟨kind, named⟩ := isKind
    obtain ⟨properties, accepted⟩ := foldlM_of_fit fits.properties decl.name.value
    have records := (fit_of_foldlM accepted).2
    exact ⟨_, kind, properties, named, accepted,
      ⟨(records.isSome_lookup _).mpr fits.name, (records.isSome_lookup _).mpr fits.files⟩, rfl⟩

/-- What refuses a component is an error. -/
theorem severity_of_check {diagnostic : Diagnostic} (refused : check decl = .error diagnostic)
    : diagnostic.severity = .error := by
  rw [check] at refused
  cases isKind : ComponentKind.ofName? decl.name.value with
  | none =>
      rw [isKind] at refused
      cases refused
      rfl
  | some kind =>
      rw [isKind] at refused
      cases outcome : decl.properties.foldlM (checkProperty decl.name.value) [] with
      | error inner =>
          rw [outcome] at refused
          cases refused
          exact severity_of_foldlM outcome
      | ok properties =>
          rw [outcome] at refused
          simp only [bind, Except.bind] at refused
          split at refused <;> cases refused
          rfl

-----------------------------------------------------------------------------------------
-- Texts
-----------------------------------------------------------------------------------------

/-- (Gives name written value) determines the type by the name. -/
theorem Gives.of_schema {name : String} {written : ValueExpr} {value : PropertyValue}
    (gives : Gives name written value) (schema : PropertySchema)
    (among : schema ∈ PropertySchema.all) (named : schema.name = name)
    : checkValue written = .ok value ∧ schema.type.accepts value = true := by
  obtain ⟨other, otherAmong, otherNamed, checked, accepted⟩ := gives
  have same : some other = some schema :=
    (find?_schema.mpr ⟨otherAmong, otherNamed⟩).symm.trans (find?_schema.mpr ⟨among, named⟩)
  cases same
  exact ⟨checked, accepted⟩

/-- The texts that a component is made of. -/
def texts (component : Component) : ComponentTexts where
  name := component.name
  files := component.strings "files"
  includeDirs := component.strings "include_dirs"
  definitions := component.strings "compile_definitions"
  options := component.strings "compile_options"
  libraries := component.strings "link_to"

theorem addTexts_eq (property : TargetProperty) (target : String) (texts : List String)
    : addTexts property target texts =
        if texts = [] then [] else [property.call target .privately "" texts] := by
  cases texts <;> rfl

theorem calls_eq (component : Component)
    : component.calls = component.texts.requests component.kind := by
  simp only [calls, addTexts_eq, ComponentTexts.requests, List.cons_append]
  cases component.kind <;> rfl

/-- The name of a component is the text of the last value of its name. -/
theorem Records.name_text (records : Records decls component.properties)
    (named : (component.properties.lookup "name").isSome = true)
    : ∃ value, lastValue? decls "name" = some value ∧ value.IsText component.name := by
  rcases records.cases "name" with ⟨-, recorded⟩ | ⟨written, value, last, recorded, gives⟩
  · simp [recorded] at named
  · obtain ⟨checked, accepted⟩ := gives.of_schema ⟨"name", .string, true⟩ (by decide) rfl
    refine ⟨written, last, ?_⟩
    cases value with
    | string text =>
        simpa [name, recorded, PropertyValue.string?] using checkValue_eq_string.mp checked
    | bool | int | double | list => cases accepted

/-- The strings of a component are the texts of the last value of a property that holds a list. -/
theorem Records.strings_ofLast (records : Records decls component.properties) {name : String}
    (required : Bool) (known : ⟨name, .stringList, required⟩ ∈ PropertySchema.all)
    : ComponentTexts.OfLast decls name (component.strings name) := by
  rw [ComponentTexts.OfLast, strings]
  rcases records.cases name with ⟨last, recorded⟩ | ⟨written, value, last, recorded, gives⟩
  · simp [last, recorded]
  · obtain ⟨checked, accepted⟩ := gives.of_schema _ known rfl
    rw [eq_strings_of_accepts accepted] at checked
    simpa [last, recorded] using checkValue_eq_strings.mp checked

/-- Nothing of an accepted component is lost. -/
theorem texts_of_check (accepted : check decl = .ok component)
    : decl.name.value = component.kind.text ∧ component.texts.Of decl.properties := by
  obtain ⟨kind, properties, named, folded, ⟨hasName, hasFiles⟩, made⟩ := check_eq_ok.mp accepted
  have records : Records decl.properties component.properties := by
    rw [made]
    exact (fit_of_foldlM folded).2
  have files : ∃ value, lastValue? decl.properties "files" = some value
      ∧ value.AreTexts component.texts.files := by
    have texts : ComponentTexts.OfLast decl.properties "files" component.texts.files :=
      records.strings_ofLast true (by decide)
    rw [ComponentTexts.OfLast] at texts
    rcases records.cases "files" with ⟨-, recorded⟩ | ⟨written, -, last, -, -⟩
    · simp only [made] at recorded
      simp [recorded] at hasFiles
    · rw [last] at texts
      exact ⟨written, last, texts⟩
  refine ⟨made ▸ named, ?_⟩
  exact
    { name := records.name_text (made ▸ hasName)
      files
      includeDirs := records.strings_ofLast false (by decide)
      definitions := records.strings_ofLast false (by decide)
      options := records.strings_ofLast false (by decide)
      libraries := records.strings_ofLast false (by decide) }

-----------------------------------------------------------------------------------------
-- Creation
-----------------------------------------------------------------------------------------

/-- Making a component makes its requests in their order, and never fails. -/
theorem create_run (component : Component) (environment : Environment) (store : Store)
    : ∃ target heap,
        component.create environment store =
          (.ok target, ⟨heap, store.system.requestAll component.calls⟩) := by
  rw [create, Effect.run_bind, Effect.run_forM_request]
  exact ⟨_, _, rfl⟩

/-- A component that is read is added with a function that makes it, or else the one error that
refuses it is reported.
-/
theorem buildComponent_eq {source path : String}
    (read : ComponentDecl.ofSource source path = .ok decl) (builtins : BuiltinTypes)
    (workspace : Workspace)
    : Workspace.buildComponent builtins path source workspace =
        match check decl with
        | .ok component =>
          let (creation, registry) := workspace.registry.addComponent builtins component
          (some creation, { workspace with registry })
        | .error diagnostic =>
          (none, { workspace with diagnostics := workspace.diagnostics ++ [diagnostic] }) := by
  simp only [Workspace.buildComponent, read]
  cases check decl <;> rfl

/-- Components reach the build system whole. A component is accepted, without a report, exactly if
it is a library or an executable, each of its properties is one of the schema with a value of its
shape, and a name and files are among them. Otherwise exactly one error is reported. To make an
accepted component is to ask for its target with the last name and files, then for the directories,
definitions and options that there are, and then for each library, all of them private and with the
texts of the last value of each property, in order.
-/
theorem component_reaches_whole (decl : ComponentDecl)
    : ((∃ component, check decl = .ok component) ↔ decl.Fits)
      ∧ (¬ decl.Fits →
          ∃ diagnostic, check decl = .error diagnostic ∧ diagnostic.severity = .error
            ∧ ∀ source path builtins workspace,
                ComponentDecl.ofSource source path = .ok decl →
                Workspace.buildComponent builtins path source workspace =
                  (none, { workspace with diagnostics := workspace.diagnostics ++ [diagnostic] }))
      ∧ (∀ component, check decl = .ok component →
          (∀ source path builtins workspace,
            ComponentDecl.ofSource source path = .ok decl →
            ∃ creation registry,
              Workspace.buildComponent builtins path source workspace =
                (some creation, { workspace with registry })
              ∧ (registry.function creation).body = .component component)
          ∧ decl.name.value = component.kind.text
          ∧ ∃ texts : ComponentTexts, texts.Of decl.properties
              ∧ ∀ environment store, ∃ target heap system,
                  component.create environment store = (.ok target, ⟨heap, system⟩)
                  ∧ system.calls.toList =
                      store.system.calls.toList ++ texts.requests component.kind) := by
  refine ⟨check_iff_fits, fun unfit => ?_, fun component accepted => ⟨?_, ?_⟩⟩
  · cases outcome : check decl with
    | ok component => exact absurd (check_iff_fits.mp ⟨component, outcome⟩) unfit
    | error diagnostic =>
        refine ⟨diagnostic, rfl, severity_of_check outcome, ?_⟩
        intro source path builtins workspace read
        rw [buildComponent_eq read, outcome]
  · intro source path builtins workspace read
    rw [buildComponent_eq read, accepted]
    refine ⟨_, _, rfl, ?_⟩
    exact congrArg FunctionInfo.body
      ((workspace.registry.function_addFunction _ _).trans (if_pos rfl))
  · obtain ⟨named, areLast⟩ := texts_of_check accepted
    refine ⟨named, component.texts, areLast, fun environment store => ?_⟩
    obtain ⟨target, heap, made⟩ := create_run component environment store
    exact ⟨target, heap, _, made, by rw [BuildSystem.requestAll_calls, calls_eq]⟩

/-- A library whose name and libraries are given twice. -/
def repeatedText : String :=
  "library \x7b name = \"a\"; files = [\"x\"]; link_to = [\"c\"]; "
    ++ "name: \"b\"; link_to = [\"d\", \"e\"]; \x7d"

/-- A library without files. -/
def namedText : String := "library \x7b name = \"a\"; \x7d"

/-- Witness: the last name and the last libraries count, and what lacks files is refused. -/
theorem component_reaches_whole_repeated
    : (∃ decl component,
        ComponentDecl.ofSource repeatedText "f" = .ok decl ∧ check decl = .ok component
        ∧ component.calls =
            [.addLibrary "b" ["x"], .linkLibrary "b" .privately "d",
              .linkLibrary "b" .privately "e"]
        ∧ decl.Fits
        ∧ ∃ texts : ComponentTexts, texts.Of decl.properties
            ∧ ∃ target heap system,
                component.create default default = (.ok target, ⟨heap, system⟩)
                ∧ system.calls.toList = texts.requests .library)
      ∧ ∃ decl diagnostic,
          ComponentDecl.ofSource namedText "f" = .ok decl ∧ ¬ decl.Fits
          ∧ (Workspace.buildComponent default "f" namedText default).2.diagnostics =
              [diagnostic] := by
  constructor
  · have calls : ((ComponentDecl.ofSource repeatedText "f").toOption.bind fun decl =>
        (check decl).toOption.map fun component => (component.kind, component.calls)) =
          some (.library, [.addLibrary "b" ["x"], .linkLibrary "b" .privately "d",
            .linkLibrary "b" .privately "e"]) := by
      decide +kernel
    cases read : ComponentDecl.ofSource repeatedText "f" with
    | error fault => simp [read, Except.toOption] at calls
    | ok decl =>
        cases accepted : check decl with
        | error diagnostic => simp [read, accepted, Except.toOption] at calls
        | ok component =>
            simp only [read, accepted, Except.toOption, Option.bind_some, Option.map_some,
              Option.some.injEq, Prod.mk.injEq] at calls
            obtain ⟨fits, -, creates⟩ := component_reaches_whole decl
            obtain ⟨-, -, texts, areLast, create⟩ := creates component accepted
            obtain ⟨target, heap, system, made, requested⟩ := create default default
            rw [calls.1] at requested
            exact ⟨decl, component, rfl, accepted, calls.2, fits.mp ⟨component, accepted⟩, texts,
              areLast, target, heap, system, made, requested⟩
  · have refused : (ComponentDecl.ofSource namedText "f").toOption.map
        (fun decl => (check decl).toOption.isNone) = some true := by
      decide +kernel
    cases read : ComponentDecl.ofSource namedText "f" with
    | error fault => simp [read, Except.toOption] at refused
    | ok decl =>
        have unfit : ¬ decl.Fits := by
          rw [← (component_reaches_whole decl).1]
          rintro ⟨component, accepted⟩
          simp [read, accepted, Except.toOption] at refused
        obtain ⟨diagnostic, -, -, reports⟩ := (component_reaches_whole decl).2.1 unfit
        refine ⟨decl, diagnostic, rfl, unfit, ?_⟩
        rw [reports namedText "f" default default read]
        rfl

end Component

end BuildScript
