import BuildScript.Proofs.Run.Sites

/-! At every moment of a run of a program whose numbers are distinct, all variables are in their
places. What comes next may declare no variable that a scope of the innermost call has already,
since the variables of a scope are gone before the statement that declares them comes again.

A number denotes one place of storage. At every moment of a run of an accepted program, a
variable is found in the storage of the one site that declares it, in whatever order the places
are searched in which it might be.

Variables outside of functions get their first values in order. They are found as soon as they have
them, and all of them have when `main` is called.
-/

namespace BuildScript

-----------------------------------------------------------------------------------------
-- Variables that are still to be declared
-----------------------------------------------------------------------------------------

/-- (Awaits program pending frame) says that the variables of pending numbers may be declared in a
call: they are those of its function, each of them once, and no scope has them.
-/
structure Frame.Shape.Awaits (program : Program) (pending : List Nat) (frame : Frame.Shape)
    : Prop where
  declared : ∀ index ∈ pending, index ∈ program.numbersAt (.body frame.function)
  distinct : pending.Nodup
  absent : ∀ scope ∈ frame.scopes, scope.Disjoint pending

namespace Machine.Shape

/-- (Awaits program pending shape) says so of the innermost call of a machine. -/
def Awaits (program : Program) (pending : List Nat) (shape : Machine.Shape) : Prop :=
  ∃ frame rest, shape.frames = frame :: rest ∧ frame.Awaits program pending

/-- (InScope shape) says that the innermost call of a machine has a scope. -/
def InScope (shape : Machine.Shape) : Prop :=
  ∃ frame rest, shape.frames = frame :: rest ∧ frame.scopes ≠ []

variable {program : Program} {pending : List Nat}

theorem Awaits.sublist {fewer : List Nat} {shape : Machine.Shape}
    (awaits : shape.Awaits program pending) (sublist : fewer.Sublist pending)
    : shape.Awaits program fewer := by
  obtain ⟨frame, rest, frames, awaits⟩ := awaits
  exact ⟨frame, rest, frames, fun index member => awaits.declared index (sublist.subset member),
    awaits.distinct.sublist sublist, fun scope among =>
      List.disjoint_of_subset_right sublist.subset (awaits.absent scope among)⟩

/-- A machine is in a call when variables are still to be declared. -/
theorem Awaits.inCall {shape : Machine.Shape} (awaits : shape.Awaits program pending)
    : shape.frames ≠ [] := by
  obtain ⟨frame, rest, frames, _⟩ := awaits
  rw [frames]
  exact List.cons_ne_nil _ _

/-- The shape of a machine with a scope opened in its innermost call. -/
def enterScope (shape : Machine.Shape) : Machine.Shape :=
  { shape with
    frames :=
      match shape.frames with
      | [] => []
      | frame :: rest => { frame with scopes := [] :: frame.scopes } :: rest }

theorem Fits.enterScope {shape : Machine.Shape} (fits : shape.Fits program)
    : shape.enterScope.Fits program := by
  refine ⟨fun frame among => ?_, fits.globals, fits.statics⟩
  unfold Shape.enterScope at among
  cases frames : shape.frames with
  | nil =>
      rw [frames] at among
      cases among
  | cons top rest =>
      have known := fits.frames
      rw [frames] at among known
      rcases List.mem_cons.mp among with rfl | below
      · have top := known top List.mem_cons_self
        refine ⟨top.params, fun scope inScopes => ?_, List.pairwise_cons.mpr ⟨?_, top.apart⟩⟩
        · rcases List.mem_cons.mp inScopes with rfl | old
          · exact fun index none => absurd none List.not_mem_nil
          · exact top.scopes scope old
        · exact fun scope _ => List.disjoint_nil_left scope
      · exact known frame (List.mem_cons_of_mem _ below)

theorem Awaits.enterScope {shape : Machine.Shape} (awaits : shape.Awaits program pending)
    : shape.enterScope.Awaits program pending ∧ shape.enterScope.InScope := by
  obtain ⟨frame, rest, frames, awaits⟩ := awaits
  have entered : shape.enterScope.frames = { frame with scopes := [] :: frame.scopes } :: rest := by
    unfold Shape.enterScope
    rw [frames]
  refine ⟨⟨_, rest, entered, awaits.declared, awaits.distinct, fun scope among => ?_⟩,
    _, rest, entered, List.cons_ne_nil _ _⟩
  rcases List.mem_cons.mp among with rfl | old
  · exact List.disjoint_nil_left pending
  · exact awaits.absent scope old

end Machine.Shape

theorem Machine.shape_enterScope (machine : Machine)
    : machine.enterScope.shape = machine.shape.enterScope := by
  obtain ⟨store, frames, globals, statics, returned?, breaking⟩ := machine
  cases frames with
  | nil => rfl
  | cons frame rest => rfl

/-- A scope that is opened has no variables yet. -/
theorem Machine.fits_enterScope {program : Program} {pending : List Nat} {machine : Machine}
    (fits : machine.shape.Fits program) (awaits : machine.shape.Awaits program pending)
    : machine.enterScope.shape.Fits program ∧ machine.enterScope.shape.Awaits program pending
      ∧ machine.enterScope.shape.InScope := by
  rw [shape_enterScope]
  exact ⟨fits.enterScope, awaits.enterScope⟩

/-- A statement adds variables to the innermost scope that were still to be declared, and the
others still are.
-/
theorem Machine.Declares.fits {program : Program} {indices pending later : List Nat}
    {before after : Machine} (declares : Declares indices before after)
    (fits : before.shape.Fits program)
    (awaits : before.shape.Awaits program (pending ++ later)) (inScope : before.shape.InScope)
    (among : indices ⊆ pending)
    : after.shape.Fits program ∧ after.shape.Awaits program later ∧ after.shape.InScope := by
  obtain ⟨frame, rest, frames, awaits⟩ := awaits
  obtain ⟨_, _, same, some⟩ := inScope
  obtain ⟨rfl, rfl⟩ := List.cons.inj (frames.symm.trans same)
  cases scopes : frame.scopes with
  | nil => exact absurd scopes some
  | cons scope outer =>
      obtain ⟨inner, added, ended⟩ := declares frame rest scope outer frames scopes
      have known := fits.frames frame (frames ▸ List.mem_cons_self)
      have new : ∀ index ∈ inner, index ∈ scope ∨ index ∈ pending :=
        fun index member => (added index member).imp id (among ·)
      have frameScopes := known.scopes
      have apart := known.apart
      have absent := awaits.absent
      rw [scopes] at frameScopes apart absent
      have alone := (List.pairwise_cons.mp apart).1
      rw [ended]
      refine ⟨⟨?frames, fits.globals, fits.statics⟩, ⟨_, rest, rfl, ?declared, ?distinct, ?absent⟩,
        _, rest, rfl, List.cons_ne_nil _ _⟩
      case frames =>
        intro other inFrames
        rcases List.mem_cons.mp inFrames with rfl | below
        · refine ⟨known.params, fun bindings inScopes index member => ?_,
            List.pairwise_cons.mpr ⟨fun bindings inOuter index member => ?_,
              (List.pairwise_cons.mp apart).2⟩⟩
          · rcases List.mem_cons.mp inScopes with rfl | inOuter
            · rcases new index member with old | added
              · exact frameScopes scope List.mem_cons_self index old
              · exact awaits.declared index (List.mem_append_left _ added)
            · exact frameScopes bindings (List.mem_cons_of_mem _ inOuter) index member
          · rcases new index member with old | added
            · exact alone bindings inOuter old
            · exact fun inBindings => absent bindings (List.mem_cons_of_mem _ inOuter) inBindings
                (List.mem_append_left _ added)
        · exact fits.frames other (frames ▸ List.mem_cons_of_mem _ below)
      case declared => exact fun index member =>
        awaits.declared index (List.mem_append_right _ member)
      case distinct => exact (List.nodup_append.mp awaits.distinct).2.1
      case absent =>
        intro bindings inScopes index member isLater
        rcases List.mem_cons.mp inScopes with rfl | inOuter
        · rcases new index member with old | added
          · exact absent scope List.mem_cons_self old (List.mem_append_right _ isLater)
          · exact (List.nodup_append.mp awaits.distinct).2.2 index added index isLater rfl
        · exact absent bindings (List.mem_cons_of_mem _ inOuter) member
            (List.mem_append_right _ isLater)

-----------------------------------------------------------------------------------------
-- Activities
-----------------------------------------------------------------------------------------

/-- (Awaited program shape activity) says that what begins may declare its variables. -/
def Activity.Awaited (program : Program) (shape : Machine.Shape) : Activity → Prop
  | execute stmt => shape.Awaits program stmt.declared ∧ shape.InScope
  | executeAll stmts => shape.Awaits program (TypedStmt.allDeclared stmts) ∧ shape.InScope
  | executeBlock block => shape.Awaits program block.declared
  | executeBranches branches otherwise? =>
    shape.Awaits program
      (TypedBranch.allDeclared branches ++ otherwise?.elim [] TypedBlock.declared)
  | loop _ _ body _ => shape.Awaits program body.declared
  | statics decls => ∀ decl ∈ decls, decl.index ∈ program.numbersAt .statics
  | globals decls => ∀ decl ∈ decls, decl.index ∈ program.numbersAt .globals
  | run other => other = program
  | _ => True

/-- The variables that several statements add to their scope are among all in them. -/
theorem TypedStmt.flatMap_declares_subset (stmts : List TypedStmt)
    : stmts.flatMap declares ⊆ allDeclared stmts := by
  induction stmts with
  | nil => exact List.nil_subset _
  | cons first rest ih =>
      intro index member
      rcases List.mem_append.mp member with here | later
      · exact List.mem_append_left _ (declares_subset here)
      · exact List.mem_append_right _ (ih later)

theorem Machine.Gathers.fits {program : Program} {globals statics : List Nat}
    {before after : Machine} (gathers : Gathers globals statics before after)
    (fits : before.shape.Fits program) (inGlobals : globals ⊆ program.numbersAt .globals)
    (inStatics : statics ⊆ program.numbersAt .statics)
    : after.shape.Fits program :=
  ⟨gathers.frames ▸ fits.frames,
    fun index member => (gathers.globals index member).elim (fits.globals index) (inGlobals ·),
    fun index member => (gathers.statics index member).elim (fits.statics index) (inStatics ·)⟩

/-- All variables are in their places when something is done, by cases on what it is. -/
theorem Activity.Changes.fits {program : Program} {activity : Activity} {before after : Machine}
    (changes : activity.Changes before after) (fits : before.shape.Fits program)
    (awaited : activity.Awaited program before.shape)
    : after.shape.Fits program := by
  have same (equal : after.shape = before.shape) : after.shape.Fits program := equal ▸ fits
  cases activity with
  | execute stmt =>
      have awaits := awaited.1
      rw [← List.append_nil stmt.declared] at awaits
      exact (Machine.Declares.fits changes fits awaits awaited.2
        fun _ => TypedStmt.declares_subset).1
  | executeAll stmts =>
      have awaits := awaited.1
      rw [← List.append_nil (TypedStmt.allDeclared stmts)] at awaits
      exact (Machine.Declares.fits changes fits awaits awaited.2
        (TypedStmt.flatMap_declares_subset stmts)).1
  | executeBlock | executeBranches | loop =>
      exact same (changes (Machine.Shape.Awaits.inCall awaited))
  | statics decls =>
      refine Machine.Gathers.fits changes fits (List.nil_subset _) fun index member => ?_
      obtain ⟨decl, among, rfl⟩ := List.mem_map.mp member
      exact awaited decl among
  | globals decls =>
      refine Machine.Gathers.fits changes fits (fun index member => ?_) (List.nil_subset _)
      obtain ⟨decl, among, rfl⟩ := List.mem_map.mp member
      exact awaited decl among
  | run other =>
      cases awaited
      exact Machine.Gathers.fits changes fits (List.Subset.refl _) (List.Subset.refl _)
  | _ => exact same changes

-----------------------------------------------------------------------------------------
-- Moments
-----------------------------------------------------------------------------------------

/-- (Placed program moment) says that all variables are in their places at a moment, and that what
begins may declare its variables.
-/
structure Moment.Placed (program : Program) (moment : Moment) : Prop where
  fits : moment.machine.shape.Fits program
  awaited : moment.activity.Awaited program moment.machine.shape

/-- Parameters that are bound are those that were to be bound, by induction over them. -/
theorem Run.bindParams_indices {setting : RunSetting} {params : List Param}
    {arguments : List Handle} {machine after : Machine} {bindings : Bindings}
    (bound : Run.bindParams params arguments setting machine = (.ok bindings, after))
    : bindings.indices ⊆ params.map (·.index) := by
  induction params generalizing arguments machine bindings with
  | nil =>
      cases bound
      exact List.nil_subset _
  | cons param params ih =>
      cases arguments with
      | nil =>
          cases bound
          exact List.nil_subset _
      | cons argument arguments =>
          rw [Run.bindParams] at bound
          obtain ⟨value, middle, _, bound⟩ := of_bind bound
          obtain ⟨rest, last, later, bound⟩ := of_bind bound
          cases bound
          exact List.cons_subset_cons _ (ih later)

namespace Moment

variable {allowed : Nat → Prop} {program : Program} {limits : Limits} {before after : Moment}

/-- All variables stay in their places when they stay the same. -/
theorem Placed.same (placed : before.Placed program)
    (same : before.machine.SameShape after.machine)
    (awaited : after.activity.Awaited program before.machine.shape)
    : after.Placed program :=
  ⟨Eq.symm same ▸ placed.fits, Eq.symm same ▸ awaited⟩

/-- What leads on in the evaluation of expressions leaves the variables in their places. -/
theorem Evaluates.placed (step : Evaluates (program.setting limits) before after)
    (admitted : (program.setting limits).Admits allowed) (sound : before.Sound allowed)
    (placed : before.Placed program)
    : after.Placed program := by
  refine placed.same (step.sound admitted sound).2 ?_
  cases step <;> exact trivial

/-- What leads on in the execution of statements leaves the variables in their places, by cases on
it. A statement comes again only when the scopes that were opened since are closed.
-/
theorem Executes.placed (step : Executes (program.setting limits) before after)
    (admitted : (program.setting limits).Admits allowed) (sound : before.Sound allowed)
    (placed : before.Placed program)
    : after.Placed program := by
  obtain ⟨sets, sound⟩ := sound
  obtain ⟨fits, awaited⟩ := placed
  have same {before after : Machine} {activity : Activity} {held : List Handle}
      {depth? : Option Nat} (fits : before.shape.Fits program) (same : before.SameShape after)
      (awaited : activity.Awaited program before.shape)
      : Placed program ⟨depth?, activity, after, held⟩ :=
    ⟨Eq.symm same ▸ fits, Eq.symm same ▸ awaited⟩
  cases step with
  | initial given depth? machine held => exact same fits rfl trivial
  | bindInitial given evaluated held =>
      have kept := (Run.Keeps.evaluate .caller _ (sets _ given)).ok admitted sound evaluated
      exact same fits kept.2 trivial
  | bindDefault missing made depth? held =>
      exact same fits ((createInitial _).ok admitted sound made).2 trivial
  | expression | varDecl | returnValue | condition => exact same fits rfl trivial
  | conditional depth? branches otherwise? span machine held =>
      refine same fits rfl ?_
      cases otherwise? with
      | none =>
          show Machine.Shape.Awaits program (TypedBranch.allDeclared branches ++ []) _
          rw [List.append_nil]
          exact awaited.1
      | some body => exact awaited.1
  | branch tested body rest otherwise? held =>
      have kept := (Run.Keeps.test .caller _ sets.1.1).ok admitted sound tested
      refine same fits kept.2 (Machine.Shape.Awaits.sublist awaited ?_)
      exact (List.sublist_append_left _ _).trans (List.sublist_append_left _ _)
  | nextBranch tested body rest otherwise? held =>
      have kept := (Run.Keeps.test .caller _ sets.1.1).ok admitted sound tested
      refine same fits kept.2 (Machine.Shape.Awaits.sublist awaited ?_)
      exact (List.sublist_append_right _ _).append_right _
  | otherwise depth? body machine held => exact same fits rfl awaited
  | whileLoop => exact same fits rfl awaited.1
  | forInitial depth? initial condition? iteration? body span machine held =>
      obtain ⟨fits, awaits, inScope⟩ := Machine.fits_enterScope fits awaited.1
      exact ⟨fits, awaits.sublist (List.sublist_append_left _ _), inScope⟩
  | forLoop depth? condition? iteration? body span machine held =>
      obtain ⟨fits, awaits, _⟩ := Machine.fits_enterScope fits awaited.1
      exact ⟨fits, awaits⟩
  | forLoopAfter executed condition? iteration? body span held =>
      have kept := (Run.Keeps.execute .caller _ sets.1).ok admitted sound.enterScope executed
      obtain ⟨fits, awaits, inScope⟩ := Machine.fits_enterScope fits awaited.1
      obtain ⟨fits, awaits, _⟩ := kept.2.fits fits awaits inScope fun _ =>
        TypedStmt.declares_subset
      exact ⟨fits, awaits⟩
  | loopCondition => exact same fits rfl trivial
  | loopBody holds iteration? body rounds held =>
      have kept := (Run.Keeps.condition .caller _ sets.1).ok admitted sound holds
      exact same fits kept.2 awaited
  | loopStep holds executed stays iteration rounds held =>
      have round := sound.round admitted sets.1 sets.2.2 holds executed stays
      exact same fits (round.2 (Machine.Shape.Awaits.inCall awaited)) trivial
  | loopAgain holds executed stays stepped rounds held =>
      have round := sound.round admitted sets.1 sets.2.2 holds executed stays
      have stepped := ((Run.Keeps.step .caller _ sets.2.1).ok admitted round.1 stepped).2
      have once : Machine.SameShape _ _ := round.2 (Machine.Shape.Awaits.inCall awaited)
      exact same fits (once.trans stepped) awaited
  | block => exact same fits rfl awaited.1
  | body depth? stmts span machine held =>
      obtain ⟨fits, awaits⟩ := Machine.fits_enterScope fits awaited
      exact ⟨fits, awaits⟩
  | first depth? stmt rest machine held =>
      exact same fits rfl ⟨awaited.1.sublist (List.sublist_append_left _ _), awaited.2⟩
  | next executed goesOn rest held =>
      have kept := (Run.Keeps.execute .caller _ sets.1).ok admitted sound executed
      obtain ⟨fits, awaits⟩ := kept.2.fits fits awaited.1 awaited.2 fun _ =>
        TypedStmt.declares_subset
      exact ⟨fits, awaits⟩

/-- A call that begins has the parameters of its function and no variables yet. -/
theorem Calls.placed (step : Calls (program.setting limits) before after)
    (distinct : program.numbers.Nodup) (admitted : (program.setting limits).Admits allowed)
    (sound : before.Sound allowed) (placed : before.Placed program)
    : after.Placed program := by
  obtain ⟨sets, sound⟩ := sound
  have outside (same : before.machine.SameShape after.machine)
      (awaited : after.activity.Awaited program before.machine.shape)
      : after.Placed program :=
    placed.same same awaited
  cases step with
  | within | params | param => exact outside rfl trivial
  | @nextParam param argument value machine after bound depth? params arguments held =>
      have given : machine.Sound allowed ([argument] ++ (arguments ++ held)) := sound
      exact outside ((Run.Keeps.bindIn param.type argument).ok admitted given bound).2 trivial
  | @body function block arguments params machine after scripted bound depth self? held =>
      have given : machine.Sound allowed (arguments ++ (self?.toList ++ held)) := by
        rw [← List.append_assoc]
        exact sound
      have kept := (Run.Keeps.bindParams _ arguments).ok admitted given bound
      have fits : after.shape.Fits program := Eq.symm kept.2 ▸ placed.fits
      have declared : program.numbersAt (.body function) = block.declared :=
        congrArg FunctionBody.declared scripted
      refine ⟨⟨fun frame among => ?_, fits.globals, fits.statics⟩, ⟨_, _, rfl, fun index member =>
        declared ▸ member, declared ▸ Program.numbersAt_nodup distinct (.body function),
        fun scope none => absurd none List.not_mem_nil⟩⟩
      rcases List.mem_cons.mp among with rfl | below
      · exact ⟨Run.bindParams_indices bound, fun scope none => absurd none List.not_mem_nil, .nil⟩
      · exact fits.frames frame below
  | @result depth function block self? returned? arguments params machine before middle after value
      scripted bound executed returned held =>
      have returned : returned?.elim Run.void pure (program.setting limits) middle =
          (.ok value, after) := by
        cases returned? <;> exact returned
      exact outside (sound.returned admitted scripted bound executed returned).2 trivial

/-- What leads on outside of all functions leaves the variables in their places. -/
theorem Prepares.placed (step : Prepares (program.setting limits) before after)
    (admitted : (program.setting limits).Admits allowed) (sound : before.Sound allowed)
    (placed : before.Placed program)
    : after.Placed program := by
  obtain ⟨sets, sound⟩ := sound
  obtain ⟨fits, awaited⟩ := placed
  cases step with
  | statics other machine =>
      cases awaited
      exact ⟨fits, fun decl among => List.mem_map_of_mem among⟩
  | static | global => exact ⟨fits, trivial⟩
  | @nextStatic decl machine after value initial rest =>
      have first := sets decl List.mem_cons_self
      obtain ⟨kept, same⟩ := (Run.Keeps.initialValue .callAny decl first).ok admitted sound initial
      have set := (Run.Keeps.setStatic decl.index value).ok admitted kept rfl
      have whole : Machine.Gathers [] [decl.index] machine _ := (same.gathers [] []).trans set.2
      have among := List.cons_subset.mpr ⟨awaited decl List.mem_cons_self, List.nil_subset _⟩
      exact ⟨whole.fits fits (List.nil_subset _) among, fun other member =>
        awaited other (List.mem_cons_of_mem _ member)⟩
  | @nextGlobal decl machine after value initial rest =>
      have first := sets decl List.mem_cons_self
      obtain ⟨kept, same⟩ := (Run.Keeps.initialValue .callAny decl first).ok admitted sound initial
      have set := (Run.Keeps.setGlobal decl.index value).ok admitted kept rfl
      have whole : Machine.Gathers [decl.index] [] machine _ := (same.gathers [] []).trans set.2
      have among := List.cons_subset.mpr ⟨awaited decl List.mem_cons_self, List.nil_subset _⟩
      exact ⟨whole.fits fits among (List.nil_subset _), fun other member =>
        awaited other (List.mem_cons_of_mem _ member)⟩
  | @globals other machine after prepared =>
      cases awaited
      have kept := (Run.Keeps.initializeStatics _ sets.statics).ok admitted sound prepared
      exact ⟨kept.2.fits fits (List.nil_subset _) (List.Subset.refl _),
        fun decl among => List.mem_map_of_mem among⟩
  | @main other machine after prepared =>
      cases awaited
      have kept := (Run.Keeps.prepare sets).ok admitted sound prepared
      exact ⟨kept.2.fits fits (List.Subset.refl _) (List.Subset.refl _), trivial⟩

/-- Variables are in their places at every moment that one leads to at which they are. -/
theorem Leads.placed (step : Leads (program.setting limits) before after)
    (distinct : program.numbers.Nodup) (admitted : (program.setting limits).Admits allowed)
    (sound : before.Sound allowed) (placed : before.Placed program)
    : after.Placed program := by
  cases step with
  | evaluates step => exact step.placed admitted sound placed
  | executes step => exact step.placed admitted sound placed
  | calls step => exact step.placed distinct admitted sound placed
  | prepares step => exact step.placed admitted sound placed
  | rests step =>
      cases step with
      | ended outcome held =>
          have kept := (Run.Keeps.activity _ sound.sets).ok admitted sound.machine outcome
          exact ⟨kept.2.fits placed.fits placed.awaited, trivial⟩
      | stopped outcome held =>
          have kept := (Run.Keeps.activity _ sound.sets).error admitted sound.machine outcome
          exact ⟨kept.2.fits placed.fits placed.awaited, trivial⟩

end Moment

/-- All variables are in their places at every moment that a run of a program comes to, by
induction over what leads to it.
-/
theorem Program.Reaches.placed {allowed : Nat → Prop} {program : Program} {limits : Limits}
    {system : BuildSystem} {moment : Moment} (reached : program.Reaches limits system moment)
    (distinct : program.numbers.Nodup) (admitted : (program.setting limits).Admits allowed)
    (sets : program.SetsOnly allowed)
    : moment.Placed program := by
  induction reached with
  | refl =>
      exact ⟨⟨fun frame none => absurd none List.not_mem_nil,
        fun index none => absurd none List.not_mem_nil,
        fun index none => absurd none List.not_mem_nil⟩, rfl⟩
  | tail earlier step ih =>
      exact step.placed distinct admitted (Program.Reaches.sound earlier admitted sets) ih

-----------------------------------------------------------------------------------------
-- Accepted programs
-----------------------------------------------------------------------------------------

/-- The members of the object that a call works on have the numbers of its slots. -/
theorem Machine.selfMembers_slots {allowed : Nat → Prop} {machine : Machine} {held : List Handle}
    (sound : machine.Sound allowed held)
    : ∀ index ∈ machine.selfMembers.indices, allowed index := by
  intro index member
  unfold selfMembers at member
  cases called : machine.frames.head?.bind (·.self?) with
  | none =>
      rw [called] at member
      cases member
  | some self =>
      rw [called, Option.elim_some, Bindings.indices, List.map_map] at member
      exact sound.slotted self.cell index member

namespace Program

variable {program : Program} {limits : Limits} {system : BuildSystem} {moment : Moment}

/-- All variables of an accepted program are in their places at every moment of a run. -/
theorem Reaches.fits (reached : program.Reaches limits system moment)
    (accepted : program.Accepted)
    : moment.machine.Fits program := by
  have admitted := accepted.admits limits
  have sets := accepted.setsMembers.2
  exact ⟨(reached.placed accepted.numbers_nodup admitted sets).fits,
    Machine.selfMembers_slots (reached.sound admitted sets).machine⟩

/-- A number denotes one place of storage. At every moment of a run of an accepted program, a
number is bound in at most one of the places in which variables are looked up, so that the same
is found in whatever order they are searched. A number that is found is declared at a site, and a
number that is declared at a site is declared there once, at no other site, and is found in the
storage of that site or not at all.
-/
theorem Reaches.number_denotes_storage (reached : program.Reaches limits system moment)
    (accepted : program.Accepted) (index : Nat)
    : moment.machine.places.countP (fun place => (place.lookup index).isSome) ≤ 1
      ∧ (∀ order : List Bindings, order.Perm moment.machine.places →
          order.findSome? (List.lookup index) = moment.machine.lookup? index)
      ∧ (∀ handle, moment.machine.lookup? index = some handle →
          ∃ site, index ∈ program.numbersAt site)
      ∧ ∀ site, index ∈ program.numbersAt site →
          (program.numbersAt site).count index = 1
          ∧ (∀ other, index ∈ program.numbersAt other → other = site)
          ∧ moment.machine.lookup? index = (moment.machine.storage site).lookup index := by
  have distinct := accepted.numbers_nodup
  have fits := reached.fits accepted
  refine ⟨?once, fun order perm => ?order, fun handle found => fits.declared distinct found,
    fun site declared => ⟨?count, fun other declaredThere =>
      site_unique distinct declaredThere declared, fits.lookup?_eq_storage distinct declared⟩⟩
  case once => exact Machine.countP_lookup_le_one (fits.apart distinct)
  case order =>
    rw [Machine.lookup?_eq]
    exact Machine.findSome?_perm (fits.apart distinct) perm
  case count => exact List.count_eq_one_of_mem (numbersAt_nodup distinct site) declared

/-- The moment of a run at which the first statement of `main` has been executed, if it comes to
its end and is not a `return`.
-/
def insideMain? (program : Program) (limits : Limits) (system : BuildSystem) : Option Moment :=
  match program.prepare (program.setting limits) (Machine.ofSystem system),
    (program.registry.function program.main).body with
  | (.ok _, prepared), .script (some (.mk (first :: rest) _)) =>
    match limits.callDepth - prepared.frames.length with
    | 0 => none
    | depth + 1 =>
      let called := { prepared with frames := ⟨program.main, [], [], none⟩ :: prepared.frames }
      match Run.execute (Run.callWithin depth) first (program.setting limits) called.enterScope with
      | (.ok _, after) =>
        if Run.interrupted after then none else some ⟨some depth, .executeAll rest, after, []⟩
      | _ => none
  | _, _ => none

/-- The call of `main` comes to the moment at which its body begins. Whatever its parameters are,
none of them is bound.
-/
theorem leads_main {prepared : Machine} {block : TypedBlock} {depth : Nat}
    (scripted : (program.registry.function program.main).body = .script (some block))
    (limit : limits.callDepth - prepared.frames.length = depth + 1)
    : Relation.ReflTransGen (Moment.Leads (program.setting limits))
        ⟨none, .call program.main none [], prepared, []⟩
        ⟨some depth, .executeBlock block,
          { prepared with frames := ⟨program.main, [], [], none⟩ :: prepared.frames }, []⟩ := by
  have within : Moment.Leads (program.setting limits) _ _ :=
    .calls (.within program.main none [] prepared [])
  rw [show (program.setting limits).limits = limits from rfl, limit] at within
  have unbound : Run.bindParams (program.registry.function program.main).params []
      (program.setting limits) prepared = (.ok [], prepared) := by
    cases (program.registry.function program.main).params <;> rfl
  exact (Relation.ReflTransGen.single within).tail (.calls (.body scripted unbound depth none []))

/-- A run comes to the moment at which the body of `main` begins. -/
theorem reaches_main {prepared : Machine} {block : TypedBlock} {depth : Nat}
    (outcome : program.prepare (program.setting limits) (Machine.ofSystem system) =
      (.ok (), prepared))
    (scripted : (program.registry.function program.main).body = .script (some block))
    (limit : limits.callDepth - prepared.frames.length = depth + 1)
    : program.Reaches limits system
        ⟨some depth, .executeBlock block,
          { prepared with frames := ⟨program.main, [], [], none⟩ :: prepared.frames }, []⟩ :=
  .head (.prepares (.main outcome)) (leads_main scripted limit)

/-- The call of `main` comes to the moment after its first statement. -/
theorem leads_insideMain (inside : program.insideMain? limits system = some moment)
    : ∃ prepared stmts,
        program.prepare (program.setting limits) (Machine.ofSystem system) = (.ok (), prepared)
        ∧ moment.activity = .executeAll stmts
        ∧ Relation.ReflTransGen (Moment.Leads (program.setting limits))
          ⟨none, .call program.main none [], prepared, []⟩ moment := by
  unfold insideMain? at inside
  split at inside
  · next _ prepared first rest span outcome scripted =>
    split at inside
    · cases inside
    · next depth limit =>
      have called := (leads_main scripted limit).tail (.executes (.body _ _ _ _ _))
      dsimp only at inside
      split at inside
      · next _ after executed =>
        have executed : Run.execute (Run.caller (some depth)) first (program.setting limits) _ =
            (.ok (), after) :=
          executed
        split at inside
        · cases inside
        · next goesOn =>
          cases inside
          have last := Bool.eq_false_iff.mpr goesOn
          exact ⟨prepared, rest, outcome, rfl,
            called.tail (.executes (.next executed last rest []))⟩
      · cases inside
  · cases inside

/-- A run comes to the moment after the first statement of `main`. -/
theorem reaches_insideMain (inside : program.insideMain? limits system = some moment)
    : program.Reaches limits system moment := by
  obtain ⟨prepared, stmts, outcome, begins, leads⟩ := leads_insideMain inside
  exact .head (.prepares (.main outcome)) leads

/-- A script with a variable in its `main` and another one outside of it. -/
def declaringText : String :=
  "int global = 1; int main() \x7b int local = 2; return local + global; \x7d"

set_option maxRecDepth 100000 in
/-- The script above is accepted. When its `main` has declared its variable, there is one. -/
theorem declaring_text
    : ((ofText? declaringText).bind fun program =>
        (program.insideMain? ⟨20, 20⟩ (BuildSystem.ofRoot "/")).bind fun moment =>
          (program.numbersAt (.body program.main)).head?.map fun index =>
            (moment.machine.lookup? index).isSome) = some true := by
  decide +kernel

/-- Witness: the variable that `main` has declared is found in the scopes of the call, in whatever
order the places are searched.
-/
theorem Reaches.number_denotes_storage_declaring
    : ∃ program moment index handle, ofText? declaringText = some program ∧ program.Accepted
        ∧ program.Reaches ⟨20, 20⟩ (BuildSystem.ofRoot "/") moment
        ∧ index ∈ program.numbersAt (.body program.main)
        ∧ moment.machine.lookup? index = some handle
        ∧ (moment.machine.storage (.body program.main)).lookup index = some handle
        ∧ moment.machine.places.reverse.findSome? (List.lookup index) = some handle := by
  obtain ⟨program, compiled, found⟩ := Option.bind_eq_some_iff.mp declaring_text
  obtain ⟨moment, inside, found⟩ := Option.bind_eq_some_iff.mp found
  obtain ⟨index, first, found⟩ := Option.map_eq_some_iff.mp found
  obtain ⟨handle, found⟩ := Option.isSome_iff_exists.mp found
  have accepted := ofText?_accepted compiled
  have reached := reaches_insideMain inside
  have declared := List.mem_of_head? first
  obtain ⟨_, anyOrder, _, stored⟩ := reached.number_denotes_storage accepted index
  refine ⟨program, moment, index, handle, compiled, accepted, reached, declared, found, ?_, ?_⟩
  · rw [← (stored _ declared).2.2]
    exact found
  · rw [anyOrder _ (List.reverse_perm _)]
    exact found

end Program

-----------------------------------------------------------------------------------------
-- First values
-----------------------------------------------------------------------------------------

/-- The numbers of all variables outside of functions, in the order in which they get their first
values: those of the scripts that a program brings in come first.
-/
def Program.outerNumbers (program : Program) : List Nat :=
  program.staticNumbers ++ program.globalNumbers

/-- The numbers of the variables outside of functions that a machine has. -/
def Machine.outer (machine : Machine) : List Nat :=
  machine.statics.indices ++ machine.globals.indices

/-- (Lacks program rest machine) says that a machine has all variables outside of functions but the
last ones.
-/
def Machine.Lacks (program : Program) (rest : List Nat) (machine : Machine) : Prop :=
  ∃ done, program.outerNumbers = done ++ rest ∧ ∀ index, index ∈ machine.outer ↔ index ∈ done

theorem Machine.SameShape.outer {before after : Machine} (same : before.SameShape after)
    : after.outer = before.outer :=
  congrArg (fun shape : Machine.Shape => shape.statics ++ shape.globals) same

namespace Machine.Lacks

variable {program : Program} {rest : List Nat} {index : Nat} {before after machine : Machine}

theorem ofSame (lacks : before.Lacks program rest) (same : after.outer = before.outer)
    : after.Lacks program rest := by
  obtain ⟨done, order, bound⟩ := lacks
  exact ⟨done, order, same ▸ bound⟩

/-- The first variable that a machine lacks is added. -/
theorem add (lacks : before.Lacks program (index :: rest))
    (added : ∀ other, other ∈ after.outer ↔ other = index ∨ other ∈ before.outer)
    : after.Lacks program rest := by
  obtain ⟨done, order, bound⟩ := lacks
  refine ⟨done ++ [index], by rw [order, List.append_assoc]; rfl, fun other => ?_⟩
  rw [added, bound, List.mem_append, List.mem_singleton, or_comm]

theorem setStatic (lacks : machine.Lacks program (index :: rest)) (value : Handle)
    : Lacks program rest { machine with statics := machine.statics.set index value } := by
  refine lacks.add fun other => ?_
  rw [outer, outer, List.mem_append, List.mem_append, Bindings.mem_indices_set, or_assoc]

theorem setGlobal (lacks : machine.Lacks program (index :: rest)) (value : Handle)
    : Lacks program rest { machine with globals := machine.globals.set index value } := by
  refine lacks.add fun other => ?_
  rw [outer, outer, List.mem_append, List.mem_append, Bindings.mem_indices_set, or_left_comm]

end Machine.Lacks

namespace Run

variable {allowed : Nat → Prop} {program : Program} {setting : RunSetting}
  {machine after : Machine} {held : List Handle} {rest : List Nat}

/-- Variables of other scripts get their first values in order, by induction over them. -/
theorem initializeStatics_lacks {decls : List TypedVariable} (admitted : setting.Admits allowed)
    (sets : ∀ decl ∈ decls, decl.SetsOnly allowed) (sound : machine.Sound allowed held)
    (lacks : machine.Lacks program (decls.map (·.index) ++ rest))
    (ended : initializeStatics decls setting machine = (.ok (), after))
    : after.Lacks program rest := by
  induction decls generalizing machine with
  | nil =>
      cases ended
      exact lacks
  | cons decl decls ih =>
      rw [initializeStatics] at ended
      obtain ⟨value, middle, initial, ended⟩ := of_bind ended
      have first := sets decl (.head _)
      obtain ⟨kept, same⟩ := (Keeps.initialValue .callAny decl first).ok admitted sound initial
      have set := (Keeps.setStatic decl.index value).ok admitted kept rfl
      exact ih (fun other among => sets other (.tail _ among)) set.1
        ((lacks.ofSame same.outer).setStatic value) ended

/-- Variables of the script that is run get their first values in order, by induction over them. -/
theorem initializeGlobals_lacks {decls : List TypedVariable} (admitted : setting.Admits allowed)
    (sets : ∀ decl ∈ decls, decl.SetsOnly allowed) (sound : machine.Sound allowed held)
    (lacks : machine.Lacks program (decls.map (·.index) ++ rest))
    (ended : initializeGlobals decls setting machine = (.ok (), after))
    : after.Lacks program rest := by
  induction decls generalizing machine with
  | nil =>
      cases ended
      exact lacks
  | cons decl decls ih =>
      rw [initializeGlobals] at ended
      obtain ⟨value, middle, initial, ended⟩ := of_bind ended
      have first := sets decl (.head _)
      obtain ⟨kept, same⟩ := (Keeps.initialValue .callAny decl first).ok admitted sound initial
      have set := (Keeps.setGlobal decl.index value).ok admitted kept rfl
      exact ih (fun other among => sets other (.tail _ among)) set.1
        ((lacks.ofSame same.outer).setGlobal value) ended

/-- All variables have their first values when a program is prepared. -/
theorem prepare_lacks (admitted : setting.Admits allowed) (sets : program.SetsOnly allowed)
    (sound : machine.Sound allowed held) (lacks : machine.Lacks program program.outerNumbers)
    (ended : program.prepare setting machine = (.ok (), after))
    : after.Lacks program [] := by
  unfold Program.prepare at ended
  rw [forM_initializeStatics] at ended
  obtain ⟨_, middle, statics, globals⟩ := of_bind ended
  have kept := (Keeps.initializeStatics _ sets.statics).ok admitted sound statics
  have lacks := initializeStatics_lacks admitted sets.statics sound lacks statics
  rw [← List.append_nil program.globalNumbers] at lacks
  exact initializeGlobals_lacks admitted sets.globals kept.1 lacks globals

end Run

/-- (Initializes program rest activity) says of the variables outside of functions that are still
to get their first values that these are what begins to give them.
-/
def Activity.Initializes (program : Program) (rest : List Nat) : Activity → Prop
  | statics decls => rest = decls.map (·.index) ++ program.globalNumbers
  | globals decls => rest = decls.map (·.index)
  | run other => other = program ∧ rest = program.outerNumbers
  | _ => True

/-- (Initializes program rest moment) says that when something begins at a moment, the machine has
all variables outside of functions but the last ones.
-/
structure Moment.Initializes (program : Program) (rest : List Nat) (moment : Moment) : Prop where
  lacks : moment.activity.isBeginning = true → moment.machine.Lacks program rest
  begins : moment.activity.Initializes program rest

/-- Statements add no variables outside of functions during a call. -/
theorem Machine.Declares.outer {indices : List Nat} {before after : Machine}
    (declares : Declares indices before after) (inScope : before.shape.InScope)
    : after.outer = before.outer := by
  obtain ⟨frame, below, frames, some⟩ := inScope
  obtain ⟨scope, others, scopes⟩ := List.exists_cons_of_ne_nil some
  obtain ⟨_, _, ended⟩ := declares frame below scope others frames scopes
  exact congrArg (fun shape : Machine.Shape => shape.statics ++ shape.globals) ended

namespace Moment

variable {allowed : Nat → Prop} {program : Program} {limits : Limits} {before after : Moment}
  {rest : List Nat}

/-- What leads on in the execution of statements leaves the variables outside of functions alone, by
cases on it.
-/
theorem Executes.outer (step : Executes (program.setting limits) before after)
    (admitted : (program.setting limits).Admits allowed) (sound : before.Sound allowed)
    (placed : before.Placed program)
    : after.machine.outer = before.machine.outer := by
  obtain ⟨sets, sound⟩ := sound
  have awaited := placed.awaited
  cases step with
  | initial | expression | varDecl | returnValue | conditional | condition | otherwise | whileLoop
  | loopCondition | block | first | forInitial | forLoop | body => rfl
  | bindInitial given evaluated =>
      exact ((Run.Keeps.evaluate .caller _ (sets _ given)).ok admitted sound evaluated).2.outer
  | bindDefault missing made => exact ((createInitial _).ok admitted sound made).2.outer
  | branch tested | nextBranch tested =>
      exact ((Run.Keeps.test .caller _ sets.1.1).ok admitted sound tested).2.outer
  | loopBody holds =>
      exact ((Run.Keeps.condition .caller _ sets.1).ok admitted sound holds).2.outer
  | loopStep holds executed stays =>
      have round := sound.round admitted sets.1 sets.2.2 holds executed stays
      exact Machine.SameShape.outer (round.2 (Machine.Shape.Awaits.inCall awaited))
  | loopAgain holds executed stays stepped =>
      have round := sound.round admitted sets.1 sets.2.2 holds executed stays
      have stepped := ((Run.Keeps.step .caller _ sets.2.1).ok admitted round.1 stepped).2
      have once : Machine.SameShape _ _ := round.2 (Machine.Shape.Awaits.inCall awaited)
      exact (once.trans stepped).outer
  | forLoopAfter executed =>
      have kept := (Run.Keeps.execute .caller _ sets.1).ok admitted sound.enterScope executed
      exact kept.2.outer (Machine.fits_enterScope placed.fits awaited.1).2.2
  | next executed goesOn =>
      exact ((Run.Keeps.execute .caller _ sets.1).ok admitted sound executed).2.outer awaited.2

/-- What leads on in the call of a function leaves the variables outside of functions alone. -/
theorem Calls.outer (step : Calls (program.setting limits) before after)
    (admitted : (program.setting limits).Admits allowed) (sound : before.Sound allowed)
    : after.machine.outer = before.machine.outer := by
  obtain ⟨sets, sound⟩ := sound
  cases step with
  | within | params | param => rfl
  | @nextParam param argument value machine after bound depth? params arguments held =>
      have given : machine.Sound allowed ([argument] ++ (arguments ++ held)) := sound
      exact ((Run.Keeps.bindIn param.type argument).ok admitted given bound).2.outer
  | @body function block arguments params machine after scripted bound depth self? held =>
      have given : machine.Sound allowed (arguments ++ (self?.toList ++ held)) := by
        rw [← List.append_assoc]
        exact sound
      exact ((Run.Keeps.bindParams _ arguments).ok admitted given bound).2.outer
  | @result depth function block self? returned? arguments params machine before middle after value
      scripted bound executed returned held =>
      have returned : returned?.elim Run.void pure (program.setting limits) middle =
          (.ok value, after) := by
        cases returned? <;> exact returned
      exact (sound.returned admitted scripted bound executed returned).2.outer

theorem Initializes.ofSame (initializes : before.Initializes program rest)
    (beginning : before.activity.isBeginning = true)
    (same : after.machine.outer = before.machine.outer)
    (begins : after.activity.Initializes program rest)
    : ∃ fewer, fewer <:+ rest ∧ after.Initializes program fewer :=
  ⟨rest, List.suffix_refl _, fun _ => (initializes.lacks beginning).ofSame same, begins⟩

/-- Variables outside of functions get their first values in order, by cases on what leads on
outside of all functions.
-/
theorem Prepares.initializes (step : Prepares (program.setting limits) before after)
    (admitted : (program.setting limits).Admits allowed) (sound : before.Sound allowed)
    (initializes : before.Initializes program rest)
    : ∃ fewer, fewer <:+ rest ∧ after.Initializes program fewer := by
  obtain ⟨sets, sound⟩ := sound
  obtain ⟨lacks, begins⟩ := initializes
  cases step with
  | statics other machine =>
      obtain ⟨rfl, rfl⟩ := begins
      exact ⟨_, List.suffix_refl _, fun _ => lacks rfl, rfl⟩
  | static | global => exact ⟨_, List.suffix_refl _, fun _ => lacks rfl, trivial⟩
  | @nextStatic decl machine after value initial others =>
      have first := sets decl (.head _)
      have kept := (Run.Keeps.initialValue .callAny decl first).ok admitted sound initial
      cases begins
      exact ⟨_, List.suffix_cons _ _,
        fun _ => ((lacks rfl).ofSame kept.2.outer).setStatic value, rfl⟩
  | @nextGlobal decl machine after value initial others =>
      have first := sets decl (.head _)
      have kept := (Run.Keeps.initialValue .callAny decl first).ok admitted sound initial
      cases begins
      exact ⟨_, List.suffix_cons _ _,
        fun _ => ((lacks rfl).ofSame kept.2.outer).setGlobal value, rfl⟩
  | globals prepared =>
      obtain ⟨rfl, rfl⟩ := begins
      exact ⟨_, List.suffix_append _ _, fun _ => Run.initializeStatics_lacks admitted sets.statics
        sound (lacks rfl) prepared, rfl⟩
  | main prepared =>
      obtain ⟨rfl, rfl⟩ := begins
      exact ⟨[], List.nil_suffix, fun _ =>
        Run.prepare_lacks admitted sets sound (lacks rfl) prepared, trivial⟩

/-- Variables outside of functions get their first values in order, by cases on what leads on. -/
theorem Leads.initializes (step : Leads (program.setting limits) before after)
    (admitted : (program.setting limits).Admits allowed) (sound : before.Sound allowed)
    (placed : before.Placed program) (initializes : before.Initializes program rest)
    : ∃ fewer, fewer <:+ rest ∧ after.Initializes program fewer := by
  cases step with
  | evaluates step =>
      have same := (step.sound admitted sound).2.outer
      cases step with
      | _ => exact initializes.ofSame rfl same trivial
  | executes step =>
      have same := step.outer admitted sound placed
      cases step with
      | _ => exact initializes.ofSame rfl same trivial
  | calls step =>
      have same := step.outer admitted sound
      cases step with
      | _ => exact initializes.ofSame rfl same trivial
  | prepares step => exact step.initializes admitted sound initializes
  | rests step =>
      cases step with
      | ended | stopped =>
          exact ⟨rest, List.suffix_refl _, fun none => Bool.noConfusion none, trivial⟩

end Moment

/-- Bindings bind the numbers that they have. -/
theorem Bindings.lookup_isSome_iff {bindings : Bindings} {index : Nat}
    : (bindings.lookup index).isSome = true ↔ index ∈ bindings.indices := by
  rw [List.lookup_isSome_iff, indices, List.mem_map]
  simp only [beq_iff_eq, @eq_comm _ index]

/-- A variable outside of functions is found when the machine has it, by cases on where it is
declared.
-/
theorem Machine.Fits.lookup?_isSome_iff {program : Program} {machine : Machine}
    (fits : machine.Fits program) (distinct : program.numbers.Nodup) {index : Nat}
    (declared : index ∈ program.outerNumbers)
    : (machine.lookup? index).isSome = true ↔ index ∈ machine.outer := by
  rw [outer, List.mem_append]
  rcases List.mem_append.mp declared with inStatics | inGlobals
  · have inStatics : index ∈ program.numbersAt .statics := inStatics
    rw [fits.lookup?_eq_storage distinct inStatics, storage, Bindings.lookup_isSome_iff]
    refine (or_iff_left fun inGlobals => ?_).symm
    cases Program.site_unique distinct inStatics (fits.shape.globals index inGlobals)
  · have inGlobals : index ∈ program.numbersAt .globals := inGlobals
    rw [fits.lookup?_eq_storage distinct inGlobals, storage, Bindings.lookup_isSome_iff]
    refine (or_iff_right fun inStatics => ?_).symm
    cases Program.site_unique distinct inGlobals (fits.shape.statics index inStatics)

namespace Program

variable {program : Program} {limits : Limits} {system : BuildSystem} {moment start : Moment}
  {rest : List Nat}

/-- Variables outside of functions get their first values in order from one moment of a run on, by
induction over what leads on from there.
-/
theorem Reaches.initializes (reached : program.Reaches limits system start)
    (accepted : program.Accepted) (begins : start.Initializes program rest)
    (leads : Relation.ReflTransGen (Moment.Leads (program.setting limits)) start moment)
    : ∃ fewer, fewer <:+ rest ∧ moment.Initializes program fewer := by
  have admitted := accepted.admits limits
  have sets := accepted.setsMembers.2
  induction leads with
  | refl => exact ⟨rest, List.suffix_refl _, begins⟩
  | tail earlier step ih =>
      obtain ⟨fewer, suffix, initializes⟩ := ih
      have here : program.Reaches limits system _ := reached.trans earlier
      obtain ⟨last, later, initializes⟩ := step.initializes admitted
        (Reaches.sound here admitted sets)
        (Reaches.placed here accepted.numbers_nodup admitted sets) initializes
      exact ⟨last, later.trans suffix, initializes⟩

/-- A run begins without variables. -/
theorem initializes_run (program : Program) (system : BuildSystem)
    : Moment.Initializes program program.outerNumbers
        ⟨none, .run program, Machine.ofSystem system, []⟩ :=
  ⟨fun _ => ⟨[], rfl, fun _ => Iff.rfl⟩, rfl, rfl⟩

/-- All variables have their first values when the run calls `main`. -/
theorem initializes_main (accepted : program.Accepted) {prepared : Machine}
    (outcome : program.prepare (program.setting limits) (Machine.ofSystem system) =
      (.ok (), prepared))
    : Moment.Initializes program [] ⟨none, .call program.main none [], prepared, []⟩ := by
  have admitted := accepted.admits limits
  have sets := accepted.setsMembers.2
  have sound := Reaches.sound (.refl : program.Reaches limits system _) admitted sets
  exact ⟨fun _ => Run.prepare_lacks admitted sets sound.machine
    ((initializes_run program system).lacks rfl) outcome, trivial⟩

/-- No variable outside of functions is declared twice. -/
theorem outerNumbers_nodup (distinct : program.numbers.Nodup) : program.outerNumbers.Nodup := by
  refine List.nodup_append.mpr
    ⟨numbersAt_nodup distinct .statics, numbersAt_nodup distinct .globals,
    fun index inStatics other inGlobals same => ?_⟩
  have inGlobals : index ∈ program.numbersAt .globals := same ▸ inGlobals
  have inStatics : index ∈ program.numbersAt .statics := inStatics
  cases site_unique distinct inStatics inGlobals

/-- Variables outside of functions get their first values in order. When something begins in a run
of an accepted program, the first of these variables are found, those of the scripts that are
brought in before those of the script itself, and the others are not. Once `main` has been called,
all are found.
-/
theorem Reaches.first_values_in_order (reached : program.Reaches limits system moment)
    (accepted : program.Accepted) (beginning : moment.activity.isBeginning = true)
    : ∃ done rest, program.outerNumbers = done ++ rest
        ∧ (∀ index ∈ done, (moment.machine.lookup? index).isSome = true)
        ∧ (∀ index ∈ rest, moment.machine.lookup? index = none)
        ∧ ∀ prepared,
          program.prepare (program.setting limits) (Machine.ofSystem system) = (.ok (), prepared) →
          Relation.ReflTransGen (Moment.Leads (program.setting limits))
            ⟨none, .call program.main none [], prepared, []⟩ moment →
          rest = [] := by
  have distinct := accepted.numbers_nodup
  have found {index : Nat} (declared : index ∈ program.outerNumbers) :=
    (reached.fits accepted).lookup?_isSome_iff distinct declared
  obtain ⟨rest, _, initializes⟩ :=
    Reaches.initializes .refl accepted (initializes_run program system) reached
  obtain ⟨done, order, bound⟩ := initializes.lacks beginning
  have apart := (List.nodup_append.mp (order ▸ outerNumbers_nodup distinct)).2.2
  refine ⟨done, rest, order, fun index among => ?done, fun index among => ?rest,
    fun prepared outcome called => ?called⟩
  case done =>
    exact (found (order ▸ List.mem_append_left _ among)).mpr ((bound index).mpr among)
  case rest =>
    refine Option.not_isSome_iff_eq_none.mp fun present => ?_
    have here := (found (order ▸ List.mem_append_right _ among)).mp present
    exact apart index ((bound index).mp here) index among rfl
  case called =>
    -- When `main` is called, the machine lacks nothing, and it goes on to lack nothing.
    have start : program.Reaches limits system ⟨none, .call program.main none [], prepared, []⟩ :=
      .single (.prepares (.main outcome))
    obtain ⟨_, none, initializes⟩ :=
      Reaches.initializes start accepted (initializes_main accepted outcome) called
    obtain rfl := List.suffix_nil.mp none
    obtain ⟨all, whole, boundAll⟩ := initializes.lacks beginning
    rw [List.append_nil] at whole
    refine List.eq_nil_iff_forall_not_mem.mpr fun index among => ?_
    have here := (boundAll index).mpr (whole ▸ order ▸ List.mem_append_right _ among)
    exact apart index ((bound index).mp here) index among rfl

set_option maxRecDepth 100000 in
/-- The script of above has one variable outside of its `main`, and comes to its second statement.
-/
theorem declaring_outer
    : ((ofText? declaringText).map fun program =>
        (program.outerNumbers.length,
          (program.insideMain? ⟨20, 20⟩ (BuildSystem.ofRoot "/")).isSome)) = some (1, true) := by
  decide +kernel

/-- Witness: the variable outside of `main` is found in the call of it. -/
theorem Reaches.first_values_in_order_declaring
    : ∃ program moment index, ofText? declaringText = some program ∧ program.Accepted
        ∧ program.Reaches ⟨20, 20⟩ (BuildSystem.ofRoot "/") moment
        ∧ program.outerNumbers = [index]
        ∧ (moment.machine.lookup? index).isSome = true := by
  obtain ⟨program, compiled, found⟩ := Option.map_eq_some_iff.mp declaring_outer
  obtain ⟨one, inMain⟩ := Prod.mk.inj found
  obtain ⟨index, only⟩ := List.length_eq_one_iff.mp one
  obtain ⟨moment, inside⟩ := Option.isSome_iff_exists.mp inMain
  obtain ⟨prepared, stmts, outcome, begins, leads⟩ := leads_insideMain inside
  have accepted := ofText?_accepted compiled
  have reached := reaches_insideMain inside
  obtain ⟨done, rest, order, found, _, called⟩ :=
    reached.first_values_in_order accepted (begins ▸ rfl)
  obtain rfl := called prepared outcome leads
  refine ⟨program, moment, index, compiled, accepted, reached, only, found index ?_⟩
  rw [List.append_nil] at order
  rw [← order, only]
  exact .head _

end Program

end BuildScript
