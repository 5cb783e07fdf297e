import BuildScript.Proofs.Run.Aftermath
import BuildScript.Proofs.Workspace.WorkspaceLaw

/-! What compilations record. Messages are only ever appended, and texts are only ever put in front
of those that were compiled before. Besides the text that is given, these are texts of files.

Messages with the lines that they are about. A session keeps its messages, and shows each one in
the text that was compiled last at its path. So a message is shown in the text that it is about as
long as no other text is compiled at the same path.
-/

namespace BuildScript

/-- What a compilation records: the messages in the order in which they were given, and the texts
that were compiled by path, newest first.
-/
structure Log where
  diagnostics : List Diagnostic
  texts : List (String × String)

/-- (Records sources given before after) says that the messages and the texts that there were are
kept, and that the texts that were given are added and otherwise only texts of files.
-/
structure Log.Records (sources : Sources) (given : List (String × String)) (before after : Log)
    : Prop where
  diagnostics : before.diagnostics <+: after.diagnostics
  texts : ∃ added, after.texts = added ++ before.texts ∧ given ⊆ added
    ∧ ∀ source ∈ added, source ∈ given ∨ sources source.1 = some source.2

/-- The messages and the texts of a compilation. -/
def Workspace.log (workspace : Workspace) : Log := ⟨workspace.diagnostics, workspace.texts⟩

variable {sources : Sources}

namespace Log.Records

variable {given : List (String × String)} {before middle after : Log}

/-- Messages are appended, and no texts are added. -/
theorem told (told : List Diagnostic) (log : Log)
    : log.Records sources [] ⟨log.diagnostics ++ told, log.texts⟩ :=
  ⟨⟨told, rfl⟩, [], rfl, List.nil_subset _, fun _ absent => by cases absent⟩

theorem refl (log : Log) : log.Records sources [] log :=
  ⟨List.prefix_rfl, [], rfl, List.nil_subset _, fun _ absent => by cases absent⟩

/-- The text of a file is added. -/
theorem file {path text : String} (found : sources path = some text) (log : Log)
    : log.Records sources [] ⟨log.diagnostics, (path, text) :: log.texts⟩ :=
  ⟨List.prefix_rfl, [(path, text)], rfl, List.nil_subset _, fun _ among => .inr (by
    rw [List.mem_singleton.mp among, found])⟩

/-- A text is given. -/
theorem text (source : String × String) (log : Log)
    : log.Records sources [source] ⟨log.diagnostics, source :: log.texts⟩ :=
  ⟨List.prefix_rfl, [source], rfl, List.Subset.refl _, fun _ => .inl⟩

theorem trans {more : List (String × String)} (first : before.Records sources given middle)
    (second : middle.Records sources more after)
    : before.Records sources (given ++ more) after := by
  obtain ⟨added, same, all, known⟩ := first.texts
  obtain ⟨addedToo, sameToo, allToo, knownToo⟩ := second.texts
  refine ⟨first.diagnostics.trans second.diagnostics, addedToo ++ added, ?_, ?_,
    fun source among => ?_⟩
  · rw [sameToo, same, List.append_assoc]
  · exact List.append_subset.mpr ⟨List.Subset.trans all (List.subset_append_right _ _),
      List.Subset.trans allToo (List.subset_append_left _ _)⟩
  · rcases List.mem_append.mp among with late | early
    · exact (knownToo source late).imp_left (List.mem_append_right _)
    · exact (known source early).imp_left (List.mem_append_left _)

end Log.Records

/-- Loading keeps the messages and the texts that there were, and adds texts of files only. -/
def Log.law (sources : Sources) : WorkspaceLaw sources where
  related before after := before.log.Records sources [] after.log
  trans first later := first.trans later
  quiet {before after} sameDiagnostics sameTexts _ _ := by
    have same : after.log = before.log := by
      rw [Workspace.log, Workspace.log, sameDiagnostics, sameTexts]
    rw [same]
    exact .refl _
  told before told := .told told before.log
  read before _ _ found := .file found before.log
  left records := records
  imported records _ := records

theorem Session.build_recording (session : Session) (nesting : Nat) (path source : String)
    (before : Workspace)
    : before.log.Records session.sources [] (session.build nesting path source before).2.log :=
  session.build_keeps (Log.law session.sources) nesting path source before

-----------------------------------------------------------------------------------------
-- Sessions
-----------------------------------------------------------------------------------------

namespace Session

/-- The path at which a text without a file is compiled. -/
def scriptPath (session : Session) : String :=
  Path.normalize (Path.join session.config.sourceRoot session.config.scriptName)

/-- A message with the line that it is about, in the text that was compiled last at its path. -/
def shown (session : Session) (diagnostic : Diagnostic) : String :=
  diagnostic.render ((session.texts.lookup diagnostic.span.file).getD "")

/-- The messages and the texts of a session. -/
def log (session : Session) : Log := ⟨session.diagnostics, session.texts⟩

/-- (Records given session after) says that a session has kept its settings and what it has
recorded, and that it has added the texts that were given and otherwise only texts of files.
-/
structure Records (given : List (String × String)) (session after : Session) : Prop where
  config : after.config = session.config
  sources : after.sources = session.sources
  log : session.log.Records session.sources given after.log

namespace Records

variable {given : List (String × String)} {session middle after : Session}

theorem refl (session : Session) : session.Records [] session := ⟨rfl, rfl, .refl _⟩

theorem trans {more : List (String × String)} (first : session.Records given middle)
    (second : middle.Records more after)
    : session.Records (given ++ more) after :=
  ⟨second.config.trans first.config, second.sources.trans first.sources,
    first.log.trans (first.sources ▸ second.log)⟩

end Records

/-- The text that is compiled is put in front of the earlier ones, and the files that it leads to
in front of it.
-/
theorem compileWithin_records (nesting : Nat) (path source : String) (session : Session)
    : session.Records [(path, source)] (compileWithin nesting path source session).2 := by
  have built := session.build_recording nesting path source (session.workspace path source)
  have log := (Log.Records.text (path, source) session.log).trans built
  rw [compileWithin_eq]
  refine ⟨rfl, rfl, ?_, log.texts⟩
  show session.diagnostics <+: if _ then session.diagnostics else _
  split
  · exact List.prefix_rfl
  · exact log.diagnostics

-----------------------------------------------------------------------------------------
-- Steps
-----------------------------------------------------------------------------------------

namespace Step

/-- The path and the text that a step compiles as its script, if it compiles one. -/
def given? (session : Session) : Step → Option (String × String)
  | compile source | execute source => some (session.scriptPath, source)
  | compileFile name | executeFile name =>
    let path := Path.normalize (Path.join session.config.sourceRoot name)
    (session.sources path).map fun source => (path, source)
  | run .. => none

/-- (Compiled session system path text step) says that a step compiles a text at a path, as its
script or as a file that its script leads to.
-/
def Compiled (session : Session) (system : BuildSystem) (path text : String) (step : Step)
    : Prop :=
  ∃ added, (step.perform session system).2.1.texts = added ++ session.texts
    ∧ (path, text) ∈ added

variable {session after : Session} {system : BuildSystem}

theorem compileFile_records (name : String) (session : Session)
    : session.Records ((compileFile name).given? session).toList
        (Session.compileFile name session).2 := by
  rw [compileFile_eq]
  dsimp only [given?]
  cases session.sources (Path.normalize (Path.join session.config.sourceRoot name)) with
  | some source =>
      have looked : session.Records [] { session with
          consulted := Path.normalize (Path.join session.config.sourceRoot name)
            :: session.consulted
          exhausted := false } :=
        ⟨rfl, rfl, .refl session.log⟩
      exact looked.trans (compileWithin_records nestingLimit _ source _)
  | none => exact ⟨rfl, rfl, .told _ session.log⟩

/-- Running what was compiled leaves the session alone. -/
theorem execute_session (compile : StateM Session (Option Program)) (session : Session)
    (system : BuildSystem)
    : (Session.execute compile system session).2 = (compile session).2 := by
  cases outcome : compile session with
  | mk program? after =>
      simp only [Session.execute, bind, StateT.bind, outcome]
      cases program? <;> rfl

/-- A step records what it gives, by cases on the step. -/
theorem perform_records (step : Step) (session : Session) (system : BuildSystem)
    : session.Records (step.given? session).toList (step.perform session system).2.1 := by
  cases step with
  | compile source => exact compileWithin_records _ _ source session
  | compileFile name => exact compileFile_records name session
  | execute source =>
      have same : (perform session system (execute source)).2.1 =
          (compileSource source session).2 :=
        execute_session (compileSource source) session system
      rw [same]
      exact compileWithin_records _ _ source session
  | executeFile name =>
      have same : (perform session system (executeFile name)).2.1
          = (Session.compileFile name session).2 :=
        execute_session (Session.compileFile name) session system
      rw [same]
      exact compileFile_records name session
  | run program accepted => exact .refl session

/-- What a step gives depends on the settings only. -/
theorem given?_congr (config : after.config = session.config)
    (sources : after.sources = session.sources) (step : Step)
    : step.given? after = step.given? session := by
  unfold given? scriptPath
  rw [config, sources]

/-- Steps record what they give, by induction over them. -/
theorem performAll_records (steps : List Step) (session : Session) (system : BuildSystem)
    : session.Records (steps.flatMap fun step => (step.given? session).toList)
        (performAll session system steps).1 := by
  induction steps generalizing session system with
  | nil => exact .refl session
  | cons step rest ih =>
      have first := step.perform_records session system
      have later := ih (step.perform session system).2.1 (step.perform session system).2.2
      simp only [given?_congr first.config first.sources] at later
      exact first.trans later

/-- What a step gives it compiles. -/
theorem compiled_of_given? (step : Step) {path text : String}
    (given : step.given? session = some (path, text))
    : step.Compiled session system path text := by
  obtain ⟨added, same, all, _⟩ := (step.perform_records session system).log.texts
  rw [given] at all
  exact ⟨added, same, all (.head _)⟩

-----------------------------------------------------------------------------------------
-- Messages
-----------------------------------------------------------------------------------------

/-- A text that is added is found at its path when no other one is added there, whatever there was
before, by induction over what is added.
-/
theorem lookup_of_only {path text : String} {added : List (String × String)}
    (compiled : (path, text) ∈ added) (only : ∀ other, (path, other) ∈ added → other = text)
    (texts : List (String × String))
    : (added ++ texts).lookup path = some text := by
  induction added with
  | nil => cases compiled
  | cons source rest ih =>
      obtain ⟨file, content⟩ := source
      rw [List.cons_append, List.lookup_cons]
      split
      · next same =>
          rw [beq_iff_eq.mp same] at only
          rw [only content (.head _)]
      · next other =>
          have differs : path ≠ file := by simpa using other
          refine ih ?_ fun text among => only text (.tail _ among)
          cases compiled with
          | head => exact absurd rfl differs
          | tail _ among => exact among

/-- A session keeps its messages, and shows a message about a path at which a step has compiled a
text with the line of that text, however many steps come later, if there is no other text in the
file at the path and none is given for the path by the step or by a later one. Witness: the text is
among those that were added since, and it is the only one of them at the path.
-/
theorem shown_as_compiled {step : Step} (later : List Step) {path text : String}
    (compiled : step.Compiled session system path text)
    (file : ∀ other, session.sources path = some other → other = text)
    (given : ∀ next ∈ step :: later, ∀ other,
      next.given? session = some (path, other) → other = text)
    : let reported := (step.perform session system).2.1
      let after := (performAll session system (step :: later)).1
      reported.diagnostics <+: after.diagnostics
      ∧ ∀ diagnostic : Diagnostic, diagnostic.span.file = path →
          after.shown diagnostic = diagnostic.render text := by
  intro reported after
  have first := step.perform_records session system
  have more := performAll_records later reported (step.perform session system).2.2
  refine ⟨more.log.diagnostics, fun diagnostic about => ?_⟩
  obtain ⟨added, same, among⟩ := compiled
  obtain ⟨addedToo, sameToo, _⟩ := more.log.texts
  have texts : after.texts = (addedToo ++ added) ++ session.texts := by
    rw [List.append_assoc, ← same]
    exact sameToo
  have only (other : String) (among : (path, other) ∈ addedToo ++ added) : other = text := by
    obtain ⟨all, sameAll, _, known⟩ := (performAll_records (step :: later) session system).log.texts
    rw [List.append_cancel_right (texts.symm.trans sameAll)] at among
    rcases known _ among with gives | reads
    · obtain ⟨next, present, gives⟩ := List.mem_flatMap.mp gives
      exact given next present other (Option.mem_toList.mp gives)
    · exact file other reads
  have found := lookup_of_only (List.mem_append_right addedToo among) only session.texts
  rw [shown, about, texts, found]
  rfl

/-- A script that returns a name that there is not. -/
def misspeltText : String := "int main() \x7b return x; \x7d"

/-- A script without a fault. -/
def plainText : String := "int main() \x7b return 0; \x7d"

/-- The message about the name that there is not. -/
def misspeltName : Diagnostic :=
  ⟨.error, "'x' identifier not found", ⟨"CMakeLists.cmsl", 20, 21⟩⟩

/-- A message about a text that has no file is shown with its line after a file was compiled. -/
theorem shown_as_compiled_compileFile
    : let session := Session.start Config.standard fun path =>
        if path = "other.cmsl" then some plainText else none
      let after := (performAll session (.ofRoot ".")
        [.compile misspeltText, .compileFile "other.cmsl"]).1
      misspeltName.span.file = session.scriptPath
      ∧ after.shown misspeltName = misspeltName.render misspeltText := by
  intro session after
  have about : misspeltName.span.file = session.scriptPath := by decide
  refine ⟨about, (shown_as_compiled [.compileFile "other.cmsl"]
    (compiled_of_given? (.compile misspeltText) rfl) ?file ?given).2 _ about⟩
  case file =>
    intro other found
    have none : session.sources session.scriptPath = none := by decide +kernel
    rw [none] at found
    cases found
  case given =>
    intro next present other gives
    rcases List.mem_cons.mp present with rfl | present
    · exact (Prod.mk.inj (Option.some.inj gives)).2.symm
    · rw [List.mem_singleton.mp present] at gives
      have other : (compileFile "other.cmsl").given? session = some ("other.cmsl", plainText) := by
        decide +kernel
      rw [other] at gives
      have differs : "other.cmsl" ≠ session.scriptPath := by decide +kernel
      exact absurd (Prod.mk.inj (Option.some.inj gives)).1 differs

set_option maxRecDepth 100000 in
/-- Where a name is misspelt, that is the only message, and the text of the script is the only one
that is compiled. When another text is compiled at the same path, the message is shown with a line
of that text, and so it looks otherwise.
-/
theorem performAll_misspelt
    : let session := Session.start Config.standard fun _ => none
      let reported := ((compile misspeltText).perform session (.ofRoot ".")).2.1
      let after := (performAll session (.ofRoot ".") [.compile misspeltText, .compile plainText]).1
      reported.texts = [(session.scriptPath, misspeltText)]
      ∧ reported.diagnostics = [misspeltName]
      ∧ reported.formatDiagnostics = misspeltName.render misspeltText
      ∧ after.formatDiagnostics = misspeltName.render plainText
      ∧ after.shown misspeltName ≠ misspeltName.render misspeltText := by
  decide +kernel

/-- It is not so that a message is shown with a line of the text in which it was reported, even if
that was the only text that the step compiled.
-/
theorem not_shown_as_compiled
    : ¬ ∀ (session : Session) (system : BuildSystem) (step : Step) (later : List Step)
        (path text : String) (told : List Diagnostic),
        let reported := (step.perform session system).2.1
        let after := (performAll session system (step :: later)).1
        reported.texts = (path, text) :: session.texts →
        reported.diagnostics = session.diagnostics ++ told →
        ∀ diagnostic ∈ told, diagnostic.span.file = path →
          after.shown diagnostic = diagnostic.render text := by
  intro shows
  obtain ⟨texts, told, _, _, differs⟩ := performAll_misspelt
  exact differs (shows _ _ _ [.compile plainText] _ _ [misspeltName] texts told _ (.head _)
    (by decide +kernel))

end Step

end Session

end BuildScript
