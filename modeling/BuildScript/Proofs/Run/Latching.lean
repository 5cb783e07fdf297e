import BuildScript.Proofs.Accepted
import BuildScript.Proofs.Run.Lawfulness

/-! Fatal errors latch. Once a fatal error has been reported, a run asks for nothing more than
to leave the directories that it is in, and it gives no result.
-/

namespace BuildScript

-----------------------------------------------------------------------------------------
-- Records of requests
-----------------------------------------------------------------------------------------

namespace BuildCall

/-- (depthAfter calls depth) is the number of directories that are entered and not left after
some requests, when `depth` of them are before.
-/
def depthAfter : List BuildCall → Nat → Nat
  | [], depth => depth
  | .enterDirectory _ :: rest, depth => depthAfter rest (depth + 1)
  | .leaveDirectory :: rest, depth => depthAfter rest (depth - 1)
  | _ :: rest, depth => depthAfter rest depth

/-- The directories that some requests enter and do not leave. -/
def openDirectories (calls : List BuildCall) : Nat := depthAfter calls 0

/-- The reports of fatal errors among some requests. -/
def fatalErrors (calls : List BuildCall) : List String :=
  calls.filterMap fun
    | .fatalError text => some text
    | _ => none

/-- Depths are counted on through two records, by induction over the first. -/
theorem depthAfter_append (first rest : List BuildCall) (depth : Nat)
    : depthAfter (first ++ rest) depth = depthAfter rest (depthAfter first depth) := by
  induction first generalizing depth with
  | nil => rfl
  | cons call later ih =>
      cases call with
      | enterDirectory | leaveDirectory => exact ih _
      | _ => exact ih depth

/-- Plain requests open no directory and report no fatal error, by induction over them. -/
theorem plain_quiet {calls : List BuildCall} (plain : ∀ call ∈ calls, call.isPlain = true)
    : (∀ depth, depthAfter calls depth = depth) ∧ fatalErrors calls = [] := by
  induction calls with
  | nil => exact ⟨fun _ => rfl, rfl⟩
  | cons call rest ih =>
      obtain ⟨sameDepth, noError⟩ := ih fun later member => plain later (.tail call member)
      have first := plain call List.mem_cons_self
      cases call with
      | fatalError | enterDirectory | leaveDirectory => exact nomatch first
      | _ => exact ⟨fun depth => sameDepth depth, noError⟩

theorem fatalErrors_append (first rest : List BuildCall)
    : fatalErrors (first ++ rest) = fatalErrors first ++ fatalErrors rest :=
  List.filterMap_append

theorem mem_fatalErrors {calls : List BuildCall} {text : String}
    : text ∈ fatalErrors calls ↔ .fatalError text ∈ calls := by
  simp only [fatalErrors, List.mem_filterMap]
  constructor
  · rintro ⟨call, member, read⟩
    cases call with
    | fatalError found =>
        cases read
        exact member
    | _ => exact nomatch read
  · exact fun member => ⟨_, member, rfl⟩

/-- Leaving directories reports no fatal error, by induction on their number. -/
theorem fatalErrors_leave (left : Nat)
    : fatalErrors (List.replicate left .leaveDirectory) = [] := by
  induction left with
  | zero => rfl
  | succ left ih => exact ih

end BuildCall

open BuildCall

/-- A record is settled when it reports no fatal error and leaves every directory that it
enters.
-/
structure Settled (calls : List BuildCall) : Prop where
  noError : fatalErrors calls = []
  balanced : ∀ depth, depthAfter calls depth = depth

/-- A record is latched when one fatal error is reported, and nothing follows but that the
directories are left that were open then.
-/
structure Latched (calls : List BuildCall) : Prop where
  split : ∃ before text left,
    calls = before ++ .fatalError text :: List.replicate left .leaveDirectory
    ∧ fatalErrors before = []
    ∧ ∀ depth, depthAfter before depth = depth + left

/-- Settled records follow each other, by the counting of depths. -/
theorem Settled.append {first rest : List BuildCall} (settled : Settled first)
    (later : Settled rest)
    : Settled (first ++ rest) := by
  refine ⟨?_, fun depth => ?_⟩
  · rw [fatalErrors_append, settled.noError, later.noError, List.append_nil]
  · rw [depthAfter_append, settled.balanced, later.balanced]

/-- A latched record may follow a settled one. -/
theorem Latched.prepend {first rest : List BuildCall} (settled : Settled first)
    (latched : Latched rest)
    : Latched (first ++ rest) := by
  obtain ⟨before, text, left, rfl, noError, opened⟩ := latched.split
  refine ⟨first ++ before, text, left, ?_, ?_, fun depth => ?_⟩
  · rw [List.append_assoc]
  · rw [fatalErrors_append, settled.noError, noError, List.append_nil]
  · rw [depthAfter_append, settled.balanced, opened]

/-- A settled record in a directory is settled. -/
theorem Settled.inDirectory {calls : List BuildCall} (settled : Settled calls) (name : String)
    : Settled (.enterDirectory name :: calls ++ [.leaveDirectory]) := by
  refine ⟨?_, fun depth => ?_⟩
  · rw [fatalErrors_append]
    exact List.append_eq_nil_iff.mpr ⟨settled.noError, rfl⟩
  · rw [depthAfter_append]
    show depthAfter calls (depth + 1) - 1 = depth
    rw [settled.balanced, Nat.add_sub_cancel]

/-- A latched record in a directory is latched: the directory is left last. -/
theorem Latched.inDirectory {calls : List BuildCall} (latched : Latched calls) (name : String)
    : Latched (.enterDirectory name :: calls ++ [.leaveDirectory]) := by
  obtain ⟨before, text, left, rfl, noError, opened⟩ := latched.split
  refine ⟨.enterDirectory name :: before, text, left + 1, ?_, noError, fun depth => ?_⟩
  · rw [List.replicate_succ']
    simp only [List.cons_append, List.append_assoc]
  · show depthAfter before (depth + 1) = depth + (left + 1)
    rw [opened]
    omega

-----------------------------------------------------------------------------------------
-- The law of runs
-----------------------------------------------------------------------------------------

namespace BuildSystem

/-- (Records before after calls) says which requests a build system has got since it was another
one.
-/
def Records (before after : BuildSystem) (calls : List BuildCall) : Prop :=
  after.calls.toList = before.calls.toList ++ calls

theorem Records.refl (system : BuildSystem) : Records system system [] :=
  (List.append_nil _).symm

theorem Records.trans {before middle after : BuildSystem} {first rest : List BuildCall}
    (start : Records before middle first) (later : Records middle after rest)
    : Records before after (first ++ rest) := by
  rw [Records, later, start, List.append_assoc]

/-- A request follows those before it. -/
theorem Records.request {before after : BuildSystem} {calls : List BuildCall}
    (records : Records before after calls) (call : BuildCall)
    : Records before (after.request call) (calls ++ [call]) := by
  rw [Records, request_calls, Array.toList_push, records, List.append_assoc]

/-- Requests in a directory stand between those that enter and leave it. -/
theorem Records.inDirectory {before after : BuildSystem} {calls : List BuildCall} {name : String}
    (inner : Records (before.request (.enterDirectory name)) after calls)
    : Records before (after.request .leaveDirectory)
        (.enterDirectory name :: calls ++ [.leaveDirectory]) :=
  (((Records.refl before).request (.enterDirectory name)).trans inner).request .leaveDirectory

end BuildSystem

open BuildSystem

/-- Fatal errors latch: an action that comes to its end leaves a settled record, and one that
a fatal error stops leaves a latched one.
-/
def Law.latching : Law where
  admits _ := True
  scoping := False
  ended _ before after :=
    before.store.system.failed = false →
      after.store.system.failed = false
      ∧ ∃ calls, Records before.store.system after.store.system calls ∧ Settled calls
  stopped stop before after :=
    stop = .fatal → before.store.system.failed = false →
      ∃ calls, Records before.store.system after.store.system calls ∧ Latched calls
  refl machine clear := ⟨clear, [], .refl _, rfl, fun _ => rfl⟩
  trans := by
    intro ending before middle after first later clear
    obtain ⟨clear, calls, records, settled⟩ := first clear
    obtain ⟨clear, rest, recordsRest, settledRest⟩ := later clear
    exact ⟨clear, _, records.trans recordsRest, settled.append settledRest⟩
  halt := by
    intro stop before middle after first later fatal clear
    obtain ⟨clear, calls, records, settled⟩ := first clear
    obtain ⟨rest, recordsRest, latched⟩ := later fatal clear
    exact ⟨_, records.trans recordsRest, latched.prepend settled⟩
  exhausted _ fatal := nomatch fatal
  statement ended := ended
  resume ended _ := ended
  returning _ machine _ clear := ⟨clear, [], .refl _, rfl, fun _ => rfl⟩
  breaking _ machine _ clear := ⟨clear, [], .refl _, rfl, fun _ => rfl⟩
  broken ended := ended
  scope := by
    intro ending before after ended
    exact ended
  scopeStop stopped := stopped
  frame ended := ended
  frameStop stopped := stopped
  directory := by
    intro name before after ended clear
    obtain ⟨clear, calls, records, settled⟩ := ended clear
    exact ⟨clear, _, records.inDirectory, settled.inDirectory name⟩
  directoryStop := by
    intro stop name before after stopped fatal clear
    obtain ⟨calls, records, latched⟩ := stopped fatal clear
    exact ⟨_, records.inDirectory, latched.inDirectory name⟩
  declared := by
    intro machine index handle clear
    unfold Machine.addVariable
    split <;> exact ⟨clear, [], .refl _, rfl, fun _ => rfl⟩
  outer machine _ _ clear := ⟨clear, [], .refl _, rfl, fun _ => rfl⟩
  plain := by
    intro machine heap calls plain clear
    obtain ⟨balanced, noError⟩ := plain_quiet plain
    exact ⟨(requestAll_plain _ plain).2.trans clear, calls, requestAll_calls _ calls,
      noError, balanced⟩
  fault := by
    intro machine heap calls text plain _ _
    obtain ⟨balanced, noError⟩ := plain_quiet plain
    have records : Records machine.store.system (machine.store.system.requestAll calls) calls :=
      requestAll_calls _ calls
    exact ⟨_, records.request (.fatalError text), calls, text, 0, rfl, noError, balanced⟩
  latched := by
    intro before after ended failed _ clear
    obtain ⟨stillClear, _⟩ := ended clear
    rw [stillClear] at failed
    exact nomatch failed

-----------------------------------------------------------------------------------------
-- Runs of programs
-----------------------------------------------------------------------------------------

/-- A run on a build system without a fatal error leaves a settled record when it comes to its
end, and a latched one when a fault stops it. Witness: the law of latching, which every run
obeys.
-/
theorem Program.run_records (program : Program) (limits : Limits) {system : BuildSystem}
    (clear : system.failed = false) {result : Except Stop Handle} {after : Machine}
    (outcome : program.run limits system = (result, after))
    (terminates : result ≠ .error .exhausted)
    : ∃ calls, Records system after.store.system calls
        ∧ match result with
          | .ok _ => Settled calls
          | .error _ => Latched calls := by
  have obeyed := Run.Obeys.program .latching program (fun scoping => scoping.elim)
    (program.setting limits) trivial (Machine.ofSystem system)
  change Law.Relates .latching .regular _ (program.run limits system) at obeyed
  rw [outcome] at obeyed
  match result with
  | .ok value =>
      obtain ⟨_, calls, records, settled⟩ := obeyed clear
      exact ⟨calls, records, settled⟩
  | .error .fatal => exact obeyed rfl clear
  | .error .exhausted => exact absurd rfl terminates

/-- A run on a build system without a fatal error that is not cut off gives no result if and only
if it reports a fatal error. Then it reports just one, and after that it asks only to leave the
directories that were open, as often as there are such. Witness: the record of the run is settled
or latched.
-/
theorem Session.run_fatalError_latches (session : Session) (program : Program)
    (system : BuildSystem) (clear : system.failed = false)
    (terminates : (program.run session.limits system).1 ≠ .error .exhausted)
    : ∃ recorded,
        (session.run program system).2.calls.toList = system.calls.toList ++ recorded
        ∧ ((session.run program system).1 = none ↔ ∃ text, .fatalError text ∈ recorded)
        ∧ ((session.run program system).1 = none →
            ∃ before text,
              recorded
                = before ++ .fatalError text
                  :: List.replicate (openDirectories before) .leaveDirectory
              ∧ fatalErrors before = []
              ∧ fatalErrors recorded = [text]) := by
  cases outcome : program.run session.limits system with
  | mk result after =>
      obtain ⟨recorded, records, shape⟩ := program.run_records session.limits clear outcome
        (by simpa only [outcome] using terminates)
      have reported (text : String) : .fatalError text ∈ recorded ↔ text ∈ fatalErrors recorded :=
        mem_fatalErrors.symm
      refine ⟨recorded, ?_⟩
      cases result with
      | ok value =>
          have ran : session.run program system
              = (some (after.store.heap.value value.cell).asInt, after.store.system) := by
            rw [Session.run, outcome]
          rw [ran]
          simp only [reported, shape.noError, List.not_mem_nil, exists_false, reduceCtorEq,
            false_implies, and_true, iff_self]
          exact records
      | error stop =>
          have ran : session.run program system = (none, after.store.system) := by
            rw [Session.run, outcome]
          obtain ⟨before, text, left, rfl, noError, opened⟩ := shape.split
          have single : fatalErrors
              (before ++ .fatalError text :: List.replicate left .leaveDirectory) = [text] := by
            rw [fatalErrors_append, noError, List.nil_append]
            exact congrArg (text :: ·) (fatalErrors_leave left)
          have left_eq : left = openDirectories before := by
            rw [openDirectories, opened, Nat.zero_add]
          rw [ran]
          refine ⟨records, ⟨fun _ => ⟨text, by simp⟩, fun _ => rfl⟩, fun _ => ?_⟩
          exact ⟨before, text, by rw [left_eq], noError, single⟩

/-- Whether an outcome is that of a fatal error. -/
def endsFatally {β : Type} : Except Stop β → Bool
  | .error .fatal => true
  | _ => false

theorem eq_of_endsFatally {β : Type} {outcome : Except Stop β} (ends : endsFatally outcome = true)
    : outcome = .error .fatal := by
  unfold endsFatally at ends
  split at ends
  · rfl
  · cases ends

/-- A script that reports a fatal error and goes on. -/
def stoppingText : String :=
  "void main() \x7b cmake::fatal_error(\"stop\"); cmake::message(\"unreachable\"); \x7d"

set_option maxRecDepth 100000 in
/-- Fatal errors latch in a script that goes on after one. Witness: evaluation shows that the
script is accepted and that its run is stopped.
-/
theorem Session.run_fatalError_latches_stoppingText
    : ∃ (session : Session) (program : Program),
        Program.ofText? stoppingText = some program
        ∧ (session.run program (BuildSystem.ofRoot "/")).1 = none
        ∧ ∃ before text,
            (session.run program (BuildSystem.ofRoot "/")).2.calls.toList
              = before ++ .fatalError text
                :: List.replicate (openDirectories before) .leaveDirectory
            ∧ fatalErrors before = [] := by
  let session := Session.start Config.standard fun _ => none
  have stopped : ((Program.ofText? stoppingText).map fun program =>
      endsFatally (program.run session.limits (BuildSystem.ofRoot "/")).1) = some true := by
    decide +kernel
  obtain ⟨program, compiled, fatal⟩ := Option.map_eq_some_iff.mp stopped
  have outcome := eq_of_endsFatally fatal
  obtain ⟨recorded, records, _, latches⟩ := session.run_fatalError_latches program
    (BuildSystem.ofRoot "/") rfl (by simp [outcome])
  have noResult : (session.run program (BuildSystem.ofRoot "/")).1 = none := by
    unfold Session.run
    split
    · simp_all
    · rfl
  obtain ⟨before, text, shape, noError, _⟩ := latches noResult
  exact ⟨session, program, compiled, noResult, before, text, records.trans shape, noError⟩

end BuildScript
