import BuildScript.Path
import Mathlib.Data.List.Basic
import Mathlib.Logic.Relation

/-! Normalised paths. The steps of a path are put on a stack, from which the parent of a name takes
that name. What is left has no dots, and parents only in front of a path that does not begin at the
root. Two paths are normalised to the same path exactly if one can be turned into the other by
dropping and adding steps that lead nowhere, so that what is joined may be normalised before.
-/

namespace BuildScript.Path

-----------------------------------------------------------------------------------------
-- Places
-----------------------------------------------------------------------------------------

/-- (IsCanonical steps) says that some steps lead somewhere: names below the root, or names behind a
run of parents.
-/
inductive IsCanonical : List Component → Prop
  | absolute (names : List String) : IsCanonical (.root :: names.map .name)
  | relative (ups : Nat) (names : List String)
    : IsCanonical (List.replicate ups .parent ++ names.map .name)

/-- (Shortens steps shorter) says that steps that lead nowhere are dropped: a dot, a name together
with its parent, or the parent of the root.
-/
inductive Shortens : List Component → List Component → Prop
  | current (before after : List Component)
    : Shortens (before ++ .current :: after) (before ++ after)
  | name (before : List Component) (part : String) (after : List Component)
    : Shortens (before ++ .name part :: .parent :: after) (before ++ after)
  | root (before after : List Component)
    : Shortens (before ++ .root :: .parent :: after) (before ++ .root :: after)

/-- (SamePlace first second) says that two paths differ in steps that lead nowhere. -/
def SamePlace (first second : String) : Prop :=
  Relation.EqvGen Shortens (components first) (components second)

/-- The steps that are left of some steps, last first. -/
def stack (steps : List Component) : List Component := steps.foldl normalizeStep []

/-- (IsStack reversed) says that some steps, last first, are names above parents or the root. -/
inductive IsStack : List Component → Prop
  | parents (ups : Nat) : IsStack (List.replicate ups .parent)
  | root : IsStack [.root]
  | name {reversed} (part : String) (below : IsStack reversed) : IsStack (.name part :: reversed)

variable {steps shorter reversed : List Component} {step : Component}

-----------------------------------------------------------------------------------------
-- Stacks
-----------------------------------------------------------------------------------------

theorem normalizeStep_name (reversed : List Component) (part : String)
    : normalizeStep (normalizeStep reversed (.name part)) .parent = reversed :=
  rfl

/-- Steps that lead nowhere leave nothing on the stack. -/
theorem Shortens.same_stack (shortens : Shortens steps shorter) : stack steps = stack shorter := by
  cases shortens with
  | current before after => simp [stack, normalizeStep]
  | name before part after => simp [stack, normalizeStep_name]
  | root before after => simp [stack, normalizeStep]

theorem stack_eq_of_eqvGen (same : Relation.EqvGen Shortens steps shorter)
    : stack steps = stack shorter := by
  induction same with
  | rel _ _ shortens => exact shortens.same_stack
  | refl => rfl
  | symm _ _ _ ih => exact ih.symm
  | trans _ _ _ _ _ ih ihLater => exact ih.trans ihLater

theorem mem_of_mem_normalizeStep {other : Component} (among : other ∈ normalizeStep reversed step)
    : other ∈ reversed ∨ other = step ∧ other ≠ .current := by
  cases step with
  | current => exact .inl among
  | root | name =>
      rcases List.mem_cons.mp among with rfl | old
      · exact .inr ⟨rfl, nofun⟩
      · exact .inl old
  | parent =>
      cases reversed with
      | nil =>
          obtain rfl := List.mem_singleton.mp among
          exact .inr ⟨rfl, nofun⟩
      | cons top rest =>
          cases top with
          | parent =>
              rcases List.mem_cons.mp among with rfl | old
              · exact .inr ⟨rfl, nofun⟩
              · exact .inl old
          | root => exact .inl among
          | current | name => exact .inl (List.mem_cons_of_mem _ among)

/-- What is on the stack came there with a step, by induction over the steps. -/
theorem mem_of_mem_foldl {other : Component} (among : other ∈ steps.foldl normalizeStep reversed)
    : other ∈ reversed ∨ other ∈ steps ∧ other ≠ .current := by
  induction steps generalizing reversed with
  | nil => exact .inl among
  | cons step rest ih =>
      rcases ih among with early | ⟨late, solid⟩
      · rcases mem_of_mem_normalizeStep early with old | ⟨rfl, solid⟩
        · exact .inl old
        · exact .inr ⟨List.mem_cons_self, solid⟩
      · exact .inr ⟨List.mem_cons_of_mem _ late, solid⟩

theorem IsStack.next (isStack : IsStack reversed) (inside : step ≠ .root)
    : IsStack (normalizeStep reversed step) := by
  cases step with
  | current => exact isStack
  | root => exact absurd rfl inside
  | name part => exact .name part isStack
  | parent =>
      cases isStack with
      | parents ups =>
          cases ups with
          | zero => exact .parents 1
          | succ ups => exact .parents (ups + 2)
      | root => exact .root
      | name part below => exact below

theorem IsStack.foldl (isStack : IsStack reversed) (inside : .root ∉ steps)
    : IsStack (steps.foldl normalizeStep reversed) := by
  induction steps generalizing reversed with
  | nil => exact isStack
  | cons step rest ih =>
      rw [List.mem_cons, not_or] at inside
      exact ih (isStack.next (Ne.symm inside.1)) inside.2

theorem IsCanonical.concat (canonical : IsCanonical steps) (part : String)
    : IsCanonical (steps ++ [.name part]) := by
  cases canonical with
  | absolute names => simpa using IsCanonical.absolute (names ++ [part])
  | relative ups names => simpa using IsCanonical.relative ups (names ++ [part])

/-- Names may follow, by induction over them. -/
theorem IsCanonical.append {later : List Component} (canonical : IsCanonical steps)
    (names : ∀ step ∈ later, ∃ part, step = .name part)
    : IsCanonical (steps ++ later) := by
  induction later generalizing steps with
  | nil => rwa [List.append_nil]
  | cons step rest ih =>
      obtain ⟨part, rfl⟩ := names step List.mem_cons_self
      rw [List.append_cons]
      exact ih (canonical.concat part) fun step among => names step (List.mem_cons_of_mem _ among)

theorem IsStack.isCanonical (isStack : IsStack reversed) : IsCanonical reversed.reverse := by
  induction isStack with
  | parents ups => simpa using IsCanonical.relative ups []
  | root => exact .absolute []
  | name part below ih =>
      rw [List.reverse_cons]
      exact ih.concat part

theorem foldl_names (names : List String) (reversed : List Component)
    : (names.map Component.name).foldl normalizeStep reversed =
        (names.map Component.name).reverse ++ reversed := by
  induction names generalizing reversed with
  | nil => rfl
  | cons part rest ih => simp [ih, normalizeStep]

theorem stack_parents (ups : Nat)
    : stack (List.replicate ups .parent) = List.replicate ups .parent := by
  induction ups with
  | zero => rfl
  | succ ups ih =>
      rw [List.replicate_succ', stack, List.foldl_append]
      rw [stack] at ih
      rw [ih]
      cases ups with
      | zero => rfl
      | succ ups => simp [List.replicate_succ, normalizeStep, ← List.replicate_succ']

/-- Of steps that lead somewhere all are left. -/
theorem IsCanonical.stack_eq (canonical : IsCanonical steps) : stack steps = steps.reverse := by
  cases canonical with
  | absolute names => simp [stack, normalizeStep, foldl_names]
  | relative ups names =>
      have parents := stack_parents ups
      rw [stack] at parents
      simp [stack, parents, foldl_names]

/-- Some steps can be turned into those that are left of them, by induction over the steps. -/
theorem eqvGen_foldl (clean : .current ∉ reversed)
    : Relation.EqvGen Shortens (reversed.reverse ++ steps)
        (steps.foldl normalizeStep reversed).reverse := by
  induction steps generalizing reversed with
  | nil => simpa using .refl _
  | cons step rest ih =>
      have clear : .current ∉ normalizeStep reversed step := by
        intro among
        rcases mem_of_mem_normalizeStep among with old | ⟨-, solid⟩
        · exact clean old
        · exact solid rfl
      refine .trans _ _ _ ?_ (ih clear)
      cases step with
      | current => exact .rel _ _ (.current _ _)
      | root | name => simpa [normalizeStep] using .refl _
      | parent =>
          cases reversed with
          | nil => exact .refl _
          | cons top below =>
              cases top with
              | parent => simpa [normalizeStep] using .refl _
              | current => simp at clean
              | root => simpa [normalizeStep] using .rel _ _ (.root below.reverse rest)
              | name part => simpa [normalizeStep] using .rel _ _ (.name below.reverse part rest)

/-- Steps can be turned into each other exactly if the same is left of them. -/
theorem eqvGen_iff : Relation.EqvGen Shortens steps shorter ↔ stack steps = stack shorter := by
  constructor
  · exact stack_eq_of_eqvGen
  · intro same
    have first : Relation.EqvGen Shortens steps (stack steps).reverse :=
      eqvGen_foldl List.not_mem_nil
    have second : Relation.EqvGen Shortens shorter (stack shorter).reverse :=
      eqvGen_foldl List.not_mem_nil
    rw [same] at first
    exact first.trans _ _ _ (second.symm _ _)

-----------------------------------------------------------------------------------------
-- Parts
-----------------------------------------------------------------------------------------

/-- The steps between the slashes of a path, the dots among them included. -/
def parts (path : String) : List Component :=
  ((splitSlashes path.toList).filter (!·.isEmpty)).map fun part =>
    .ofPart (String.ofList part)

variable {path base : String} {chars part : List Char}

theorem splitSlashes_ne_nil (chars : List Char) : splitSlashes chars ≠ [] := by
  cases chars with
  | nil => simp [splitSlashes]
  | cons c rest =>
      rw [splitSlashes]
      split
      · simp
      · split <;> simp

/-- A slash parts what is before it from what is behind it, by induction over what is before. -/
theorem splitSlashes_append (before after : List Char)
    : splitSlashes (before ++ '/' :: after) = splitSlashes before ++ splitSlashes after := by
  induction before with
  | nil =>
      cases behind : splitSlashes after with
      | nil => exact absurd behind (splitSlashes_ne_nil after)
      | cons first others => simp [splitSlashes, behind]
  | cons c rest ih =>
      rw [List.cons_append, splitSlashes, ih, splitSlashes]
      cases inside : splitSlashes rest with
      | nil => exact absurd inside (splitSlashes_ne_nil rest)
      | cons first others =>
          dsimp only [List.cons_append]
          split <;> rfl

theorem splitSlashes_clean (clean : '/' ∉ part) : splitSlashes part = [part] := by
  induction part with
  | nil => rfl
  | cons c rest ih =>
      rw [List.mem_cons, not_or] at clean
      rw [splitSlashes, ih clean.2]
      simp [Ne.symm clean.1]

theorem slash_not_mem (among : part ∈ splitSlashes chars) : '/' ∉ part := by
  induction chars generalizing part with
  | nil => simp_all [splitSlashes]
  | cons c rest ih =>
      rw [splitSlashes] at among
      cases inside : splitSlashes rest with
      | nil => exact absurd inside (splitSlashes_ne_nil rest)
      | cons first others =>
          simp only [inside, List.mem_cons, forall_eq_or_imp] at among ih
          split at among
          · rcases List.mem_cons.mp among with rfl | old
            · exact List.not_mem_nil
            · rcases List.mem_cons.mp old with rfl | old
              · exact ih.1
              · exact ih.2 _ old
          · next solid =>
              rcases List.mem_cons.mp among with rfl | old
              · simp [ih.1, Ne.symm (mt beq_iff_eq.mpr solid)]
              · exact ih.2 _ old

theorem text_ofPart (part : String) : (Component.ofPart part).text = part := by
  rw [Component.ofPart]
  split
  · next dot => exact (beq_iff_eq.mp dot).symm
  · split
    · next dots => exact (beq_iff_eq.mp dots).symm
    · rfl

theorem ofPart_ne_root (part : String) : Component.ofPart part ≠ .root := by
  rw [Component.ofPart]
  split
  · nofun
  · split <;> nofun

theorem root_not_mem_parts (path : String) : .root ∉ parts path := by
  intro among
  obtain ⟨part, -, isRoot⟩ := List.mem_map.mp among
  exact ofPart_ne_root _ isRoot

/-- A step between slashes is the only one of its text. -/
theorem parts_text (among : step ∈ parts path)
    : parts step.text = [step] ∧ isAbsolute step.text = false := by
  obtain ⟨part, inside, rfl⟩ := List.mem_map.mp among
  obtain ⟨inside, solid⟩ := List.mem_filter.mp inside
  have clean := slash_not_mem inside
  rw [text_ofPart]
  constructor
  · simp [parts, splitSlashes_clean clean, solid]
  · cases part with
    | nil => cases solid
    | cons c rest =>
        rw [List.mem_cons, not_or] at clean
        simp [isAbsolute, Ne.symm clean.1]

/-- A relative path comes after another one and a slash, unless the other one is empty. -/
theorem join_relative (relative : isAbsolute path = false) (base : String)
    : (base = "" ∧ join base path = path)
      ∨ ∃ before, base ≠ "" ∧ (base.toList = before ∨ base.toList = before ++ ['/'])
          ∧ (join base path).toList = before ++ '/' :: path.toList := by
  rw [join, if_neg (Bool.eq_false_iff.mp relative)]
  by_cases empty : base = ""
  · exact .inl ⟨empty, by simp [empty]⟩
  · refine .inr ?_
    by_cases ends : base.toList.getLast? = some '/'
    · obtain ⟨before, spelled⟩ := List.getLast?_eq_some_iff.mp ends
      exact ⟨before, empty, .inr spelled, by simp [spelled]⟩
    · exact ⟨base.toList, empty, .inl rfl, by simp [empty, ends]⟩

/-- A relative path after another one begins where the other one does. -/
theorem isAbsolute_join (relative : isAbsolute path = false) (base : String)
    : isAbsolute (join base path) = isAbsolute base := by
  rcases join_relative relative base with ⟨rfl, same⟩ | ⟨before, solid, spelled, joined⟩
  · rw [same, relative]
    rfl
  · cases before with
    | nil =>
        rcases spelled with none | one
        · exact absurd (String.toList_inj.mp none) solid
        · simp [isAbsolute, joined, one]
    | cons c rest => rcases spelled with same | same <;> simp [isAbsolute, joined, same]

/-- The parts of a relative path come after those of the path before it. -/
theorem parts_join (relative : isAbsolute path = false) (base : String)
    : parts (join base path) = parts base ++ parts path := by
  rcases join_relative relative base with ⟨rfl, same⟩ | ⟨before, -, spelled, joined⟩
  · rw [same]
    rfl
  · rcases spelled with same | same
    · simp [parts, joined, same, splitSlashes_append]
    · simp [parts, joined, same, splitSlashes_append, splitSlashes]

-----------------------------------------------------------------------------------------
-- Steps
-----------------------------------------------------------------------------------------

/-- The steps of a path are its parts without the dots, behind the root or a dot in front. -/
theorem components_eq (path : String)
    : components path =
        (if isAbsolute path then [.root]
          else if (parts path).head? = some .current then [.current] else [])
        ++ (parts path).filter (· != .current) := by
  rw [components]
  split
  · rfl
  · split
    · next rest inside =>
        have inside : parts path = .current :: rest := inside
        simp [inside]
    · next undotted =>
        cases inside : parts path with
        | nil =>
            rw [parts] at inside
            simp [inside]
        | cons first rest =>
            have solid : first ≠ .current := by
              rintro rfl
              exact undotted rest inside
            rw [parts] at inside
            simp [inside, solid]

theorem head?_ne_current (relative : isAbsolute path = false) (clean : .current ∉ components path)
    : (parts path).head? ≠ some .current := by
  intro dotted
  simp [components_eq, relative, dotted] at clean

theorem foldl_filter (steps reversed : List Component)
    : (steps.filter (· != .current)).foldl normalizeStep reversed =
        steps.foldl normalizeStep reversed := by
  induction steps generalizing reversed with
  | nil => rfl
  | cons step rest ih =>
      by_cases dot : step = .current
      · simp [dot, ih, normalizeStep]
      · simp [dot, ih]

/-- Dots leave nothing, so what is left of a path is what is left of its parts. -/
theorem stack_components (path : String)
    : stack (components path) =
        (parts path).foldl normalizeStep (if isAbsolute path then [.root] else []) := by
  rw [components_eq, stack, List.foldl_append, foldl_filter]
  split
  · rfl
  · split <;> rfl

/-- What is left of a relative path after another one is put on what is left of the other one. -/
theorem stack_join (relative : isAbsolute path = false) (base : String)
    : stack (components (join base path)) =
        (parts path).foldl normalizeStep (stack (components base)) := by
  rw [stack_components, isAbsolute_join relative, parts_join relative, List.foldl_append,
    ← stack_components]

/-- The steps of a path come after those of the path before it, unless it begins with a dot. -/
theorem components_join (relative : isAbsolute path = false) (clean : .current ∉ components path)
    (base : String)
    : components (join base path) = components base ++ components path := by
  have solid := head?_ne_current relative clean
  rw [components_eq (join base path), components_eq base, components_eq path,
    isAbsolute_join relative, parts_join relative, relative]
  cases inside : parts base with
  | nil => simp [solid]
  | cons first rest => by_cases dot : first = .current <;> simp [dot, solid]

/-- A path without dots and parents may come after one that leads somewhere. -/
theorem isCanonical_join (canonical : IsCanonical (components base))
    (plain : ∀ step ∈ components path, step ≠ .current ∧ step ≠ .parent)
    : IsCanonical (components (join base path)) := by
  have clean : .current ∉ components path := fun among => (plain _ among).1 rfl
  have names : ∀ step ∈ (parts path).filter (· != .current), ∃ part, step = .name part := by
    intro step among
    have inside : step ∈ components path := by
      rw [components_eq]
      exact List.mem_append_right _ among
    obtain ⟨solid, down⟩ := plain step inside
    cases step with
    | root => exact absurd (List.mem_of_mem_filter among) (root_not_mem_parts path)
    | current => exact absurd rfl solid
    | parent => exact absurd rfl down
    | name part => exact ⟨part, rfl⟩
  cases relative : isAbsolute path with
  | true =>
      rw [join, if_pos relative, components_eq, if_pos relative]
      exact (IsCanonical.absolute []).append names
  | false =>
      have solid := head?_ne_current relative clean
      rw [components_join relative clean, components_eq path]
      simpa [relative, solid] using canonical.append names

/-- What is left of a path is names above parents or the root. -/
theorem isStack_components (path : String) : IsStack (stack (components path)) := by
  rw [stack_components]
  refine IsStack.foldl ?_ (root_not_mem_parts path)
  split
  · exact .root
  · exact .parents 0

-----------------------------------------------------------------------------------------
-- Normalised paths
-----------------------------------------------------------------------------------------

/-- A step between slashes that is not a dot is read from its text. -/
theorem components_text (among : step ∈ parts path) (solid : step ≠ .current)
    : components step.text = [step] := by
  obtain ⟨alone, relative⟩ := parts_text among
  simp [components_eq, alone, relative, solid]

/-- Steps between slashes are read back from their texts, by induction over them. -/
theorem components_foldl_join (inside : ∀ step ∈ steps, step ∈ parts path ∧ step ≠ .current)
    (base : String)
    : components (steps.foldl (fun path step => join path step.text) base) =
        components base ++ steps := by
  induction steps generalizing base with
  | nil => simp
  | cons step rest ih =>
      obtain ⟨among, solid⟩ := inside step List.mem_cons_self
      have alone := components_text among solid
      rw [List.foldl_cons, ih fun step among => inside step (List.mem_cons_of_mem _ among),
        components_join (parts_text among).2 (by simpa [alone] using Ne.symm solid), alone,
        List.append_assoc, List.singleton_append]

/-- The steps of a normalised path are those that are left of the path. -/
theorem components_normalize (path : String)
    : components (normalize path) = (stack (components path)).reverse := by
  have left : ∀ step ∈ (stack (components path)).reverse,
      step ≠ .root → step ∈ parts path ∧ step ≠ .current := by
    intro step among inside
    rw [List.mem_reverse, stack_components] at among
    rcases mem_of_mem_foldl among with first | later
    · split at first <;> simp_all
    · exact later
  have canonical := (isStack_components path).isCanonical
  rw [normalize, ofComponents, ← stack]
  generalize (stack (components path)).reverse = steps at left canonical ⊢
  cases canonical with
  | absolute names =>
      have root : components (join "" (Component.text .root)) = [.root] := by decide
      rw [List.foldl_cons, components_foldl_join, root, List.singleton_append]
      intro step among
      refine left step (List.mem_cons_of_mem _ among) ?_
      rintro rfl
      simp at among
  | relative ups names =>
      have none : components "" = [] := by decide
      rw [components_foldl_join, none, List.nil_append]
      intro step among
      refine left step among ?_
      rintro rfl
      simp at among

theorem isCanonical_normalize (path : String) : IsCanonical (components (normalize path)) := by
  rw [components_normalize]
  exact (isStack_components path).isCanonical

/-- What is left of a normalised path is what is left of the path. -/
theorem stack_normalize (path : String)
    : stack (components (normalize path)) = stack (components path) := by
  rw [(isCanonical_normalize path).stack_eq, components_normalize, List.reverse_reverse]

/-- Only what is left of a path decides how it is normalised. -/
theorem normalize_eq_iff {first second : String}
    : normalize first = normalize second ↔ SamePlace first second := by
  rw [SamePlace, eqvGen_iff]
  constructor
  · intro same
    rw [← stack_normalize first, same, stack_normalize]
  · intro same
    rw [normalize, ← stack, same]
    rfl

theorem normalize_normalize (path : String) : normalize (normalize path) = normalize path := by
  rw [normalize_eq_iff, SamePlace, eqvGen_iff]
  exact stack_normalize path

/-- A path may be normalised before another one is joined to it. -/
theorem normalize_join (base path : String)
    : normalize (join (normalize base) path) = normalize (join base path) := by
  rw [normalize_eq_iff, SamePlace, eqvGen_iff]
  cases relative : isAbsolute path with
  | true => simp [join, relative]
  | false => rw [stack_join relative, stack_join relative, stack_normalize]

/-- A normalised path has the steps of a path that leads somewhere exactly if both lead to the same
place.
-/
theorem components_normalize_eq_iff {first second : String}
    (canonical : IsCanonical (components second))
    : components (normalize first) = components second ↔ SamePlace first second := by
  rw [components_normalize, SamePlace, eqvGen_iff, canonical.stack_eq, List.reverse_eq_iff]

theorem IsCanonical.components_eq {first second : String}
    (canonical : IsCanonical (components first)) (canonicalToo : IsCanonical (components second))
    (same : SamePlace first second)
    : components first = components second := by
  rw [SamePlace, eqvGen_iff, canonical.stack_eq, canonicalToo.stack_eq] at same
  exact List.reverse_inj.mp same

end BuildScript.Path
