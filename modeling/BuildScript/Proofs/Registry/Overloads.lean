import BuildScript.Proofs.Accepted
import BuildScript.Proofs.Registry.Conversion
import BuildScript.Proofs.Typed.Success
import Mathlib.Data.List.Forall2
import Mathlib.Data.List.Perm.Basic

/-! The choice among functions of one name. It takes no account of the order of the candidates in
a group, nor of the groups behind the first one with a function that takes the arguments. In that
group a function that takes just such arguments is the one that is meant, whatever the others take.
-/

namespace BuildScript.Registry

variable {registry : Registry} {arguments : List TypeId}

/-- (CanTake registry arguments candidate) says that a function takes arguments of some types. -/
def CanTake (registry : Registry) (arguments : List TypeId) (candidate : FunctionId) : Bool :=
  (registry.totalFitness? (registry.function candidate).params arguments).isSome

/-- (FitsExactly registry arguments candidate) says that the parameters of a function have the
types of the arguments, none of which are initialisers without a class.
-/
def FitsExactly (registry : Registry) (arguments : List TypeId) (candidate : FunctionId)
    : Prop :=
  List.Forall₂
    (fun (param : Param) argument => registry.sameType param.type argument = true
      ∧ (registry.type argument).isDesignated = false)
    (registry.function candidate).params arguments

/-- Two choices come out alike when they mean the same function, or when they fail for the same
reason. Candidates among which none is best may be told in another order.
-/
inductive ComesOutAlike
    : Except OverloadFailure FunctionId → Except OverloadFailure FunctionId → Prop where
  | chosen (function : FunctionId) : ComesOutAlike (.ok function) (.ok function)
  | noMatch : ComesOutAlike (.error .noMatch) (.error .noMatch)
  | ambiguous {first second : List FunctionId} (same : first.Perm second)
      : ComesOutAlike (.error (.ambiguous first)) (.error (.ambiguous second))

-----------------------------------------------------------------------------------------
-- How well arguments fit
-----------------------------------------------------------------------------------------

theorem fitness?_le {param argument : TypeId} {fitness : Nat}
    (fits : registry.fitness? param argument = some fitness)
    : fitness ≤ 3 := by
  unfold fitness? at fits
  split at fits
  · split at fits
    · cases fits
      exact Nat.le_succ 2
    · cases fits
  · split at fits
    · cases fits
      exact Nat.le_refl 3
    · split at fits
      · cases fits
        exact Nat.le_succ 2
      · split at fits
        · cases fits
          exact Nat.le_add_left 1 2
        · cases fits

/-- An argument fits best where just its type is taken. -/
theorem fitness?_eq_three {param argument : TypeId}
    : registry.fitness? param argument = some 3 ↔
        registry.sameType param argument = true
          ∧ (registry.type argument).isDesignated = false := by
  unfold fitness?
  split
  · split <;> simp_all
  · split
    · simp_all
    · split
      · simp_all
      · split <;> simp_all

/-- Every argument adds three at most, by induction over the parameters. -/
theorem totalFitness?_le {params : List Param} {total : Nat}
    (fits : registry.totalFitness? params arguments = some total)
    : total ≤ 3 * arguments.length := by
  induction params generalizing arguments total with
  | nil =>
      cases arguments with
      | nil =>
          cases fits
          exact Nat.zero_le _
      | cons argument arguments => cases fits
  | cons param params ih =>
      cases arguments with
      | nil => cases fits
      | cons argument arguments =>
          obtain ⟨own, first, rest⟩ := Option.bind_eq_some_iff.mp fits
          obtain ⟨others, later, rfl⟩ := Option.map_eq_some_iff.mp rest
          have here := fitness?_le first
          have there := ih later
          rw [List.length_cons]
          omega

/-- All arguments together fit best where each of them does, by induction over the parameters:
what one of them lacks, no other one makes up for.
-/
theorem totalFitness?_eq_best {params : List Param}
    : registry.totalFitness? params arguments = some (3 * arguments.length) ↔
        List.Forall₂
          (fun (param : Param) argument => registry.sameType param.type argument = true
            ∧ (registry.type argument).isDesignated = false)
          params arguments := by
  induction params generalizing arguments with
  | nil =>
      cases arguments with
      | nil => simp [totalFitness?]
      | cons argument arguments => simp [totalFitness?]
  | cons param params ih =>
      cases arguments with
      | nil => simp [totalFitness?]
      | cons argument arguments =>
          rw [List.forall₂_cons, ← fitness?_eq_three, ← ih]
          constructor
          · intro fits
            obtain ⟨own, first, rest⟩ := Option.bind_eq_some_iff.mp fits
            obtain ⟨others, later, sum⟩ := Option.map_eq_some_iff.mp rest
            have here := fitness?_le first
            have there := totalFitness?_le later
            rw [List.length_cons] at sum
            obtain rfl : own = 3 := by omega
            obtain rfl : others = 3 * arguments.length := by omega
            exact ⟨first, later⟩
          · rintro ⟨first, later⟩
            rw [totalFitness?, first, Option.bind_some, later, Option.map_some, List.length_cons]
            congr 1
            omega

/-- Functions that take just the same arguments have the same parameters, by induction over those
of the first.
-/
theorem FitsExactly.sameParams {first second : FunctionId}
    (one : registry.FitsExactly arguments first) (other : registry.FitsExactly arguments second)
    : registry.sameParams (registry.function first).params (registry.function second).params =
        true := by
  unfold FitsExactly at one other
  have lengths := one.length_eq.trans other.length_eq.symm
  rw [Registry.sameParams, Bool.and_eq_true, beq_iff_eq]
  refine ⟨lengths, ?_⟩
  generalize (registry.function first).params = params at one lengths
  generalize (registry.function second).params = others at other lengths
  induction one generalizing others with
  | nil => simp
  | cons exact _ ih =>
      cases other with
      | cons exact' rest =>
          rw [List.zip_cons_cons, List.all_cons, Bool.and_eq_true]
          refine ⟨?_, ih _ rest (Nat.succ.inj lengths)⟩
          rw [sameType_iff] at exact exact' ⊢
          exact exact.1.trans exact'.1.symm

-----------------------------------------------------------------------------------------
-- The best of a group
-----------------------------------------------------------------------------------------

/-- What no other number surpasses is found as the largest one. -/
theorem foldl_max_eq {numbers : List Nat} {largest : Nat} (member : largest ∈ numbers)
    (bound : ∀ number ∈ numbers, number ≤ largest)
    : numbers.foldl max 0 = largest := by
  have found : numbers.max? = some largest := List.max?_eq_some_iff.mpr ⟨member, bound⟩
  rw [List.foldl_max, found]
  exact Nat.zero_max largest

/-- Where some functions take the arguments, some of them are best. -/
theorem bestOf_eq_nil {scored : List (FunctionId × Nat)} : bestOf scored = [] ↔ scored = [] := by
  constructor
  · intro none
    by_contra some
    obtain ⟨largest, found⟩ := Option.ne_none_iff_exists'.mp
      (mt List.max?_eq_none_iff.mp (mt List.map_eq_nil_iff.mp some) :
        (scored.map (·.2)).max? ≠ Option.none)
    obtain ⟨member, bound⟩ := List.max?_eq_some_iff.mp found
    obtain ⟨best, among, rfl⟩ := List.mem_map.mp member
    rw [bestOf, foldl_max_eq member bound, List.map_eq_nil_iff, List.filter_eq_nil_iff] at none
    exact none best among (beq_self_eq_true best.2)
  · rintro rfl
    rfl

/-- The best of a group do not depend on its order. -/
theorem bestOf_perm {first second : List (FunctionId × Nat)} (same : first.Perm second)
    : (bestOf first).Perm (bestOf second) := by
  rw [bestOf, bestOf, (same.map (·.2)).foldl_eq 0]
  exact (same.filter _).map _

theorem viable_eq_nil {candidates : List FunctionId}
    : registry.viable candidates arguments = [] ↔
        candidates.any (registry.CanTake arguments) = false := by
  rw [viable, List.filterMap_eq_nil_iff, List.any_eq_false]
  simp [CanTake]

/-- A function that takes just such arguments is the only best one in a group in which no two
functions have the same parameters. The fitness of every other one is less than what all arguments
can add.
-/
theorem bestOf_viable_of_exact {group : List FunctionId} {function : FunctionId}
    (distinct : group.Pairwise fun first second =>
      registry.sameParams (registry.function first).params (registry.function second).params =
        false)
    (member : function ∈ group) (exact : registry.FitsExactly arguments function)
    : bestOf (registry.viable group arguments) = [function] := by
  have best : registry.totalFitness? (registry.function function).params arguments =
      some (3 * arguments.length) :=
    totalFitness?_eq_best.mpr exact
  obtain ⟨before, behind, rfl⟩ := List.append_of_mem member
  have less (others : List FunctionId)
      (apart : ∀ other ∈ others, ¬registry.FitsExactly arguments other)
      : ∀ scored ∈ registry.viable others arguments, scored.2 < 3 * arguments.length := by
    intro scored found
    obtain ⟨other, among, scores⟩ := List.mem_filterMap.mp found
    obtain ⟨total, fits, rfl⟩ := Option.map_eq_some_iff.mp scores
    refine Nat.lt_of_le_of_ne (totalFitness?_le fits) fun same => apart other among ?_
    exact totalFitness?_eq_best.mp (fits.trans (congrArg some same))
  obtain ⟨_, later, across⟩ := List.pairwise_append.mp distinct
  have first := less before fun other among takes =>
    Bool.false_ne_true ((across other among function List.mem_cons_self).symm.trans
      (takes.sameParams exact))
  have last := less behind fun other among takes =>
    Bool.false_ne_true (((List.pairwise_cons.mp later).1 other among).symm.trans
      (exact.sameParams takes))
  have scored : registry.viable (before ++ function :: behind) arguments =
      registry.viable before arguments ++ (function, 3 * arguments.length) ::
        registry.viable behind arguments := by
    rw [viable, List.filterMap_append, List.filterMap_cons, best]
    rfl
  have surpassed {others : List (FunctionId × Nat)}
      (less : ∀ scored ∈ others, scored.2 < 3 * arguments.length)
      : others.filter (·.2 == 3 * arguments.length) = [] :=
    List.filter_eq_nil_iff.mpr fun scored among =>
      mt eq_of_beq (Nat.ne_of_lt (less scored among))
  have largest : ((registry.viable (before ++ function :: behind) arguments).map (·.2)).foldl
      max 0 = 3 * arguments.length := by
    rw [scored]
    refine foldl_max_eq (by simp) fun number among => ?_
    obtain ⟨scored, found, rfl⟩ := List.mem_map.mp among
    rcases List.mem_append.mp found with found | found
    · exact Nat.le_of_lt (first scored found)
    · rcases List.mem_cons.mp found with rfl | found
      · exact Nat.le_refl _
      · exact Nat.le_of_lt (last scored found)
  rw [bestOf, largest, scored, List.filter_append, surpassed first, List.filter_cons,
    beq_self_eq_true, if_pos rfl, surpassed last]
  rfl

-----------------------------------------------------------------------------------------
-- The choice
-----------------------------------------------------------------------------------------

/-- The first group with a function that takes the arguments decides alone, by induction over the
groups.
-/
theorem chooseOverload_eq_find? (registry : Registry) (arguments : List TypeId)
    (groups : List (List FunctionId))
    : registry.chooseOverload arguments groups =
        match groups.find? (·.any (registry.CanTake arguments)) with
        | none => .error .noMatch
        | some first => registry.chooseOverload arguments [first] := by
  induction groups with
  | nil => rfl
  | cons group groups ih =>
      cases takes : group.any (registry.CanTake arguments) with
      | false =>
          rw [chooseOverload, bestOf_eq_nil.mpr (viable_eq_nil.mpr takes), List.find?_cons, takes]
          exact ih
      | true =>
          rw [List.find?_cons, takes]
          simp only [chooseOverload]
          have some : bestOf (registry.viable group arguments) ≠ [] := fun none =>
            Bool.false_ne_true ((viable_eq_nil.mp (bestOf_eq_nil.mp none)).symm.trans takes)
          split
          · next none => exact absurd none some
          · rfl
          · rfl

/-- The choice takes no account of the order of the candidates, by induction over the groups. -/
theorem chooseOverload_perm {groups others : List (List FunctionId)}
    (same : List.Forall₂ List.Perm groups others)
    : ComesOutAlike (registry.chooseOverload arguments groups)
        (registry.chooseOverload arguments others) := by
  induction same with
  | nil => exact .noMatch
  | @cons group other groups others first _ ih =>
      have best := bestOf_perm (first.filterMap fun id =>
        (registry.totalFitness? (registry.function id).params arguments).map (id, ·))
      change (bestOf (registry.viable group arguments)).Perm
        (bestOf (registry.viable other arguments)) at best
      rw [chooseOverload, chooseOverload]
      generalize bestOf (registry.viable group arguments) = winners at best
      generalize bestOf (registry.viable other arguments) = others at best
      cases winners with
      | nil =>
          rw [List.nil_perm.mp best]
          exact ih
      | cons winner more =>
          cases more with
          | nil =>
              rw [← List.singleton_perm.mp best]
              exact .chosen winner
          | cons next rest =>
              obtain ⟨first, remaining, rfl⟩ :=
                List.exists_cons_of_length_eq_add_one best.length_eq.symm
              obtain ⟨second, remaining, rfl⟩ :=
                List.exists_cons_of_length_eq_add_one (Nat.succ.inj best.length_eq.symm)
              exact .ambiguous best

/-- The choice among functions does not depend on the order in which they stand. However the
candidates in each group are ordered, the same function is chosen, or none is for the same reason.
Only the first group with a function that takes the arguments has a part in it. If no two functions
in a group have the same parameters, then one in this group that takes just such arguments is
chosen.
-/
theorem chooseOverload_orderless (registry : Registry) (arguments : List TypeId)
    (groups : List (List FunctionId))
    (distinct : ∀ group ∈ groups, group.Pairwise fun first second =>
      registry.sameParams (registry.function first).params (registry.function second).params =
        false)
    : (∀ others, List.Forall₂ List.Perm groups others →
          ComesOutAlike (registry.chooseOverload arguments groups)
            (registry.chooseOverload arguments others)) ∧
        match groups.find? (·.any (registry.CanTake arguments)) with
        | none => registry.chooseOverload arguments groups = .error .noMatch
        | some first =>
          registry.chooseOverload arguments groups = registry.chooseOverload arguments [first] ∧
            ∀ function ∈ first, registry.FitsExactly arguments function →
              registry.chooseOverload arguments groups = .ok function := by
  refine ⟨fun others same => chooseOverload_perm same, ?_⟩
  have decided := chooseOverload_eq_find? registry arguments groups
  split
  · next none =>
      rw [none] at decided
      exact decided
  · next first found =>
      rw [found] at decided
      refine ⟨decided, fun function member exact => ?_⟩
      have best := bestOf_viable_of_exact (distinct first (List.mem_of_find?_eq_some found))
        member exact
      simp only [decided, chooseOverload, best]

/-- A script with three functions of one name, of which two take a number and a condition. -/
def overloadingText : String :=
  "int f(int& a, bool b) \x7b return 1; \x7d int f(int a, bool b) \x7b return 2; \x7d "
    ++ "int f(bool a, bool b) \x7b return 3; \x7d int main() \x7b return f(4, true); \x7d"

set_option maxRecDepth 100000 in
/-- The script above is accepted. Its functions have different parameters, and the second one takes
just a number and a condition.
-/
theorem overloading_text
    : ((Program.ofText? overloadingText).map fun program =>
        let registry := program.registry
        let group := registry.functionsNamed program.builtins.globalContext "f"
        (decide (group.Pairwise fun first second =>
            registry.sameParams (registry.function first).params
              (registry.function second).params = false),
          group.map fun id => registry.totalFitness? (registry.function id).params
            [program.builtins.int, program.builtins.bool])) =
          some (true, [some 5, some 6, none]) := by
  decide +kernel

/-- Witness: of the three functions the second one is chosen for a number and a condition, and so
it is when they stand the other way round.
-/
theorem chooseOverload_orderless_overloading
    : ∃ program first second third, Program.ofText? overloadingText = some program
        ∧ program.registry.functionsNamed program.builtins.globalContext "f"
            = [first, second, third]
        ∧ program.registry.FitsExactly [program.builtins.int, program.builtins.bool] second
        ∧ program.registry.chooseOverload [program.builtins.int, program.builtins.bool]
            [[first, second, third]] = .ok second
        ∧ program.registry.chooseOverload [program.builtins.int, program.builtins.bool]
            [[third, second, first]] = .ok second := by
  obtain ⟨program, compiled, known⟩ := Option.map_eq_some_iff.mp overloading_text
  obtain ⟨distinct, fits⟩ := Prod.mk.inj known
  generalize named : program.registry.functionsNamed program.builtins.globalContext "f" = group
    at distinct fits
  obtain ⟨first, _, rfl, fitsFirst, fits⟩ := List.map_eq_cons_iff.mp fits
  obtain ⟨second, _, rfl, exact, fits⟩ := List.map_eq_cons_iff.mp fits
  obtain ⟨third, _, rfl, _, fits⟩ := List.map_eq_cons_iff.mp fits
  obtain rfl := List.map_eq_nil_iff.mp fits
  have takes : program.registry.FitsExactly [program.builtins.int, program.builtins.bool] second :=
    totalFitness?_eq_best.mp exact
  obtain ⟨alike, chosen⟩ := program.registry.chooseOverload_orderless
    [program.builtins.int, program.builtins.bool] [[first, second, third]]
    (by simpa using distinct)
  have found : [[first, second, third]].find? (·.any
      (program.registry.CanTake [program.builtins.int, program.builtins.bool])) =
        some [first, second, third] := by
    simp [CanTake, fitsFirst]
  rw [found] at chosen
  have meant := chosen.2 second (by simp) takes
  have reversed := alike [[third, second, first]]
    (.cons (List.reverse_perm [third, second, first]) .nil)
  rw [meant] at reversed
  refine ⟨program, first, second, third, compiled, named, takes, meant, ?_⟩
  generalize program.registry.chooseOverload _ _ = choice at reversed
  cases reversed
  rfl

end BuildScript.Registry
