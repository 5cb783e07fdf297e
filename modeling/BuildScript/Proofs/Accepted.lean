import BuildScript.Session

/-! Programs that the language accepts. -/

namespace BuildScript

/-- A program is accepted when some text compiles to it, whatever the session is that it is
compiled in and however deep scripts may lead to each other.
-/
def Program.Accepted (program : Program) : Prop :=
  ∃ nesting path source session,
    (Session.compileWithin nesting path source session).1 = some program

/-- The program of a text that leads to no other files. -/
def Program.ofText? (source : String) : Option Program :=
  (Session.compileSource source (Session.start Config.standard fun _ => none)).1

/-- The scripts that a session compiles from texts and from files are accepted programs. -/
theorem Session.compileSource_accepted {source : String} {session : Session} {program : Program}
    (compiled : (Session.compileSource source session).1 = some program)
    : program.Accepted :=
  ⟨_, _, source, session, compiled⟩

/-- A file is compiled as its text is, and if there is no such file, this is the only message. -/
theorem Session.compileFile_eq (name : String) (session : Session)
    : Session.compileFile name session =
        let path := Path.normalize (Path.join session.config.sourceRoot name)
        let looked := { session with consulted := path :: session.consulted, exhausted := false }
        match session.sources path with
        | some source => compileWithin nestingLimit path source looked
        | none => (none, { looked with
            diagnostics := session.diagnostics
              ++ [Diagnostic.error (.sourceNotFound path) Span.unknown] }) := by
  unfold Session.compileFile
  simp only [bind, StateT.bind, get, getThe, MonadStateOf.get, StateT.get, pure]
  cases session.sources (Path.normalize (Path.join session.config.sourceRoot name)) <;> rfl

/-- A file compiles to an accepted program, if there is such a file. -/
theorem Session.compileFile_accepted {name : String} {session : Session} {program : Program}
    (compiled : (Session.compileFile name session).1 = some program)
    : program.Accepted := by
  rw [Session.compileFile_eq] at compiled
  dsimp only at compiled
  split at compiled
  · exact ⟨_, _, _, _, compiled⟩
  · exact nomatch compiled

/-- A text that compiles on its own gives an accepted program. -/
theorem Program.ofText?_accepted {source : String} {program : Program}
    (compiled : Program.ofText? source = some program)
    : program.Accepted :=
  Session.compileSource_accepted compiled

end BuildScript
