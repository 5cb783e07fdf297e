import BuildScript.Proofs.Run.Outcomes

/-! Integer operators are total but for divisions by zero. Their results are the ones of unbounded
integers, wrapped around into the words of 64 bits, and a quotient and a remainder belong together.
An operator that updates its variable leaves the same result in it.
-/

namespace BuildScript

-----------------------------------------------------------------------------------------
-- Results
-----------------------------------------------------------------------------------------

namespace IntArithmetic

/-- (unbounded operator a b) is the result of an operator on integers of any size. Quotients are
rounded towards zero.
-/
def unbounded : IntArithmetic → Int → Int → Int
  | .add, a, b => a + b
  | .subtract, a, b => a - b
  | .multiply, a, b => a * b
  | .divide, a, b => a.tdiv b
  | .remainder, a, b => a.tmod b

/-- (Divides operator) says that an operator gives a quotient or a remainder. -/
def Divides (operator : IntArithmetic) : Prop := operator = .divide ∨ operator = .remainder

variable {operator : IntArithmetic} {a b : Int64}

/-- There is no result just if zero divides. -/
theorem apply?_eq_none_iff : operator.apply? a b = none ↔ operator.Divides ∧ b = 0 := by
  cases operator <;> simp [Divides, IntArithmetic.apply?]

/-- A result is the one of integers of any size, wrapped around. -/
theorem toInt_of_apply? {result : Int64} (given : operator.apply? a b = some result)
    : result.toInt = (operator.unbounded a.toInt b.toInt).bmod Int64.size := by
  cases operator with
  | add =>
      cases given
      exact Int64.toInt_add a b
  | subtract =>
      cases given
      exact Int64.toInt_sub a b
  | multiply =>
      cases given
      exact Int64.toInt_mul a b
  | divide =>
      simp only [Option.ite_none_left_eq_some, Option.some.injEq, IntArithmetic.apply?] at given
      obtain ⟨-, rfl⟩ := given
      exact Int64.toInt_div a b
  | remainder =>
      simp only [Option.ite_none_left_eq_some, Option.some.injEq, IntArithmetic.apply?] at given
      obtain ⟨-, rfl⟩ := given
      rw [unbounded, ← Int64.toInt_mod, Int64.toInt_bmod_size]

/-- A quotient and its remainder belong together, also where the quotient wraps around. -/
theorem div_mul_add_mod (a b : Int64) : a / b * b + a % b = a := by
  refine Int64.toInt_inj.mp ?_
  calc (a / b * b + a % b).toInt
      = ((a.toInt.tdiv b.toInt) * b.toInt + a.toInt.tmod b.toInt).bmod (2 ^ 64) := by
        rw [Int64.toInt_add, Int64.toInt_mul, Int64.toInt_div, Int64.toInt_mod, Int.bmod_mul_bmod,
          Int.bmod_add_bmod]
    _ = a.toInt.bmod (2 ^ 64) := by rw [Int.tdiv_mul_add_tmod]
    _ = a.toInt := Int64.toInt_bmod_size a

/-- A remainder is smaller than what divides, and is zero or of the sign of what is divided. -/
theorem mod_bounds (a : Int64) (nonzero : b ≠ 0)
    : (a % b).toInt.natAbs < b.toInt.natAbs
      ∧ ((a % b).toInt = 0 ∨ (a % b).toInt.sign = a.toInt.sign) := by
  have positive : 0 < b.toInt.natAbs :=
    Int.natAbs_pos.mpr fun zero => nonzero (Int64.toInt_inj.mp zero)
  rw [Int64.toInt_mod, Int.natAbs_tmod, Int.sign_tmod, ← Int.dvd_iff_tmod_eq_zero]
  refine ⟨Nat.mod_lt _ positive, ?_⟩
  by_cases divides : b.toInt ∣ a.toInt
  · exact .inl divides
  · exact .inr (if_neg divides)

end IntArithmetic

-----------------------------------------------------------------------------------------
-- Runs
-----------------------------------------------------------------------------------------

/-- (StopsBy fault action setting machine) says that an action does nothing but report a fault,
which stops the run.
-/
def Run.StopsBy {α : Type} (fault : Fault) (action : Run α) (setting : RunSetting)
    (machine : Machine)
    : Prop :=
  action setting machine = (.error .fatal, machine.request (.fatalError fault.message))

namespace IntOperation

open Run (StopsBy)

/-- (act operation x operands result) is the action of a run that performs an operation on an
integer.
-/
def act (operation : IntOperation) (x : Handle) (operands : List Handle) (result : TypeId)
    : Run Handle :=
  Run.perform ((Operation.int operation).perform (some x) operands result)

/-- (Calculates setting machine number action) says that an action of a run gives a new integer and
leaves all else as it was.
-/
def Calculates (setting : RunSetting) (machine : Machine) (number : Int) (action : Run Handle)
    : Prop :=
  ∃ cell store result, action setting machine = (.ok (.owned cell), { machine with store })
    ∧ machine.store.heap.cells.size ≤ cell.index
    ∧ store.heap.value cell = .int result
    ∧ result.toInt = number
    ∧ Store.Keeps machine.store store

/-- (Updates setting machine x number action) says that an action of a run refers to a variable,
which has become an integer, and leaves all else as it was.
-/
def Updates (setting : RunSetting) (machine : Machine) (x : Handle) (number : Int)
    (action : Run Handle)
    : Prop :=
  ∃ store result, action setting machine = (.ok x.toReference, { machine with store })
    ∧ result.toInt = number
    ∧ Store.Sets x (.int result) machine.store store

section

variable {setting : RunSetting} {machine : Machine} {x y : Handle} {a b number : Int64}
  {environment : Environment} {store : Store} {result : TypeId}

theorem calculates_of_gives {effect : Effect Handle}
    (gives : Gives machine.store (.int number) (effect setting.toEnvironment machine.store))
    : Calculates setting machine number.toInt (Run.perform effect) := by
  obtain ⟨cell, store, outcome, new, value, keeps⟩ := gives
  refine ⟨cell, store, number, ?_, new, value, rfl, keeps⟩
  rw [Run.perform_run, outcome]

theorem updates_of_sets {effect : Effect Handle} {after : Store}
    (outcome : effect setting.toEnvironment machine.store = (.ok x.toReference, after))
    (sets : Store.Sets x (.int number) machine.store after)
    : Updates setting machine x number.toInt (Run.perform effect) := by
  refine ⟨after, number, ?_, rfl, sets⟩
  rw [Run.perform_run, outcome]

theorem stopsBy_of_error {effect : Effect Handle} {fault : Fault}
    (failed : effect setting.toEnvironment machine.store = (.error fault, machine.store))
    : StopsBy fault (Run.perform effect) setting machine := by
  rw [StopsBy, Run.perform_run, failed]
  rfl

section

variable (left : store.heap.value x.cell = .int a) (right : store.heap.value y.cell = .int b)

include left right

theorem perform_arithmetic (operator : IntArithmetic)
    : (Operation.int (.arithmetic operator)).perform (some x) [y] result environment store =
        (do Effect.int (← operator.perform a b) : Effect Handle) environment store := by
  have values : (Operation.int (.arithmetic operator)).perform (some x) [y] result environment store
      = (do Effect.int (← operator.perform (store.heap.value x.cell).asInt
          (store.heap.value y.cell).asInt) : Effect Handle) environment store := rfl
  rw [values, left, right]
  rfl

theorem perform_update (operator : IntArithmetic)
    : (Operation.int (.update operator)).perform (some x) [y] result environment store =
        (do Effect.change x (.int (← operator.perform a b)) : Effect Handle) environment store := by
  have values : (Operation.int (.update operator)).perform (some x) [y] result environment store
      = (do Effect.change x (.int (← operator.perform (store.heap.value x.cell).asInt
          (store.heap.value y.cell).asInt)) : Effect Handle) environment store := rfl
  rw [values, left, right]
  rfl

end

theorem perform_negate (left : store.heap.value x.cell = .int a)
    : (Operation.int .negate).perform (some x) [] result environment store =
        Effect.int (-a) environment store := by
  have values : (Operation.int .negate).perform (some x) [] result environment store =
      Effect.int (-(store.heap.value x.cell).asInt) environment store := rfl
  rw [values, left]
  rfl

variable (left : machine.store.heap.value x.cell = .int a)
  (right : machine.store.heap.value y.cell = .int b)

include left right

/-- An operator gives the result if there is one. -/
theorem arithmetic_calculates {operator : IntArithmetic}
    (given : operator.apply? a b = some number)
    : Calculates setting machine number.toInt
        (act (.arithmetic operator) x [y] result) := by
  refine calculates_of_gives ?_
  rw [perform_arithmetic left right, IntArithmetic.perform, given]
  exact Effect.int_gives _

/-- An operator that updates its variable leaves the result in it if there is one. -/
theorem update_updates {operator : IntArithmetic} (given : operator.apply? a b = some number)
    : Updates setting machine x number.toInt (act (.update operator) x [y] result) := by
  have inside := Heap.inside_of_value left (by simp)
  obtain ⟨after, outcome, sets⟩ := Effect.change_sets setting.toEnvironment inside (.int number)
  refine updates_of_sets ?_ sets
  rw [perform_update left right, IntArithmetic.perform, given]
  exact outcome

/-- Where there is no result, the run stops before anything has changed. -/
theorem arithmetic_stops {operator : IntArithmetic} (none : operator.apply? a b = none)
    : StopsBy .divisionByZero (act (.arithmetic operator) x [y] result) setting machine
      ∧ StopsBy .divisionByZero (act (.update operator) x [y] result) setting machine := by
  refine ⟨stopsBy_of_error ?_, stopsBy_of_error ?_⟩
  · rw [perform_arithmetic left right, IntArithmetic.perform, none]
    rfl
  · rw [perform_update left right, IntArithmetic.perform, none]
    rfl

end

/-- The operators of integers calculate as with integers of any size and wrap the results around.
A quotient and a remainder are given unless zero divides, which is reported as a fatal error and
changes nothing. They belong together in words of 64 bits, also where the least integer is divided
by minus one, and the remainder is smaller than what divides and is zero or of the sign of what is
divided. An operator that updates its variable leaves the same result there and refers to it, or is
stopped just as the other one. The two operands may be one variable.
-/
theorem arithmetic_wraps (setting : RunSetting) (machine : Machine) (result : TypeId) {x y : Handle}
    {a b : Int64} (left : machine.store.heap.value x.cell = .int a)
    (right : machine.store.heap.value y.cell = .int b)
    : let calculates (operation : IntOperation) (operands : List Handle) (number : Int) : Prop :=
        Calculates setting machine number (operation.act x operands result)
      let stops (operation : IntOperation) : Prop :=
        StopsBy .divisionByZero (operation.act x [y] result) setting machine
      calculates (.arithmetic .add) [y] ((a.toInt + b.toInt).bmod Int64.size)
      ∧ calculates (.arithmetic .subtract) [y] ((a.toInt - b.toInt).bmod Int64.size)
      ∧ calculates (.arithmetic .multiply) [y] ((a.toInt * b.toInt).bmod Int64.size)
      ∧ calculates .negate [] ((-a.toInt).bmod Int64.size)
      ∧ (b = 0 → stops (.arithmetic .divide) ∧ stops (.arithmetic .remainder))
      ∧ (b ≠ 0 → ∃ quotient remainder : Int64,
          calculates (.arithmetic .divide) [y] quotient.toInt
          ∧ calculates (.arithmetic .remainder) [y] remainder.toInt
          ∧ quotient * b + remainder = a
          ∧ remainder.toInt.natAbs < b.toInt.natAbs
          ∧ (remainder.toInt = 0 ∨ remainder.toInt.sign = a.toInt.sign)
          ∧ quotient.toInt = (a.toInt.tdiv b.toInt).bmod Int64.size)
      ∧ ∀ operator, (stops (.arithmetic operator) ∧ stops (.update operator))
          ∨ ∃ number, calculates (.arithmetic operator) [y] number
            ∧ Updates setting machine x number (act (.update operator) x [y] result) := by
  have given (operator : IntArithmetic) {number : Int64}
      (result? : operator.apply? a b = some number)
      : Calculates setting machine ((operator.unbounded a.toInt b.toInt).bmod Int64.size)
          (act (.arithmetic operator) x [y] result) :=
    IntArithmetic.toInt_of_apply? result? ▸ arithmetic_calculates left right result?
  refine ⟨given .add rfl, given .subtract rfl, given .multiply rfl, ?_, fun zero => ⟨?_, ?_⟩,
    fun nonzero => ?_, fun operator => ?_⟩
  · rw [← show (-a).toInt = (-a.toInt).bmod Int64.size from Int64.toInt_neg a]
    refine calculates_of_gives ?_
    rw [perform_negate left]
    exact Effect.int_gives _
  · exact (arithmetic_stops left right (IntArithmetic.apply?_eq_none_iff.mpr ⟨.inl rfl, zero⟩)).1
  · exact (arithmetic_stops left right (IntArithmetic.apply?_eq_none_iff.mpr ⟨.inr rfl, zero⟩)).1
  · have divided : IntArithmetic.divide.apply? a b = some (a / b) := by
      simp [nonzero, IntArithmetic.apply?]
    have remains : IntArithmetic.remainder.apply? a b = some (a % b) := by
      simp [nonzero, IntArithmetic.apply?]
    obtain ⟨small, signed⟩ := IntArithmetic.mod_bounds a nonzero
    exact ⟨a / b, a % b, arithmetic_calculates left right divided,
      arithmetic_calculates left right remains, IntArithmetic.div_mul_add_mod a b, small, signed,
      Int64.toInt_div a b⟩
  · cases outcome : operator.apply? a b with
    | none => exact .inl (arithmetic_stops left right outcome)
    | some number =>
        exact .inr ⟨number.toInt, arithmetic_calculates left right outcome,
          update_updates left right outcome⟩

/-- A script with the least integer and with minus one. -/
def leastText : String :=
  "int least = -9223372036854775807 - 1; int divisor = -1; int main() \x7b return 0; \x7d"

set_option maxRecDepth 100000 in
/-- The script above is accepted. These are the values of its two variables at the end of a run. -/
theorem least_text
    : ((Program.ofText? leastText).map fun program =>
        let machine := (program.run ⟨20, 20⟩ (BuildSystem.ofRoot "/")).2
        match machine.globals.map fun entry => machine.store.heap.value entry.2.cell with
        | [.int divisor, .int least] => (divisor, least)
        | _ => (0, 0)) = some (-1, Int64.minValue) := by
  decide +kernel

/-- Witness: the least integer divided by minus one wraps around to itself, and nothing remains. -/
theorem arithmetic_wraps_least
    : ∃ program divisor least, Program.ofText? leastText = some program ∧
        let machine := (program.run ⟨20, 20⟩ (BuildSystem.ofRoot "/")).2
        let setting := program.setting ⟨20, 20⟩
        machine.globals.map (·.2) = [divisor, least]
        ∧ machine.store.heap.value least.cell = .int Int64.minValue
        ∧ machine.store.heap.value divisor.cell = .int (-1)
        ∧ Calculates setting machine Int64.minValue.toInt
            (act (.arithmetic .divide) least [divisor] program.builtins.int)
        ∧ Calculates setting machine 0
            (act (.arithmetic .remainder) least [divisor] program.builtins.int)
        ∧ Calculates setting machine 1
            (act (.arithmetic .divide) least [least] program.builtins.int) := by
  obtain ⟨program, compiled, known⟩ := Option.map_eq_some_iff.mp least_text
  dsimp only at known
  generalize ends : (program.run ⟨20, 20⟩ (BuildSystem.ofRoot "/")).2 = machine at known
  split at known
  case h_2 => exact absurd (congrArg Prod.fst known) (by decide)
  case h_1 a b values =>
    simp only [Prod.mk.injEq] at known
    obtain ⟨rfl, rfl⟩ := known
    simp only [List.map_eq_cons_iff, List.map_eq_nil_iff] at values
    obtain ⟨⟨_, divisor⟩, _, globals, minusOne, ⟨_, least⟩, _, rfl, minimum, rfl⟩ := values
    refine ⟨program, divisor, least, compiled, ?_⟩
    rw [ends]
    have wraps := arithmetic_wraps (program.setting ⟨20, 20⟩) machine program.builtins.int
      minimum minusOne
    obtain ⟨-, -, -, -, -, divided, -⟩ := wraps
    obtain ⟨quotient, remainder, divides, remains, -, small, -, rounded⟩ := divided (by decide)
    have itself := arithmetic_wraps (program.setting ⟨20, 20⟩) machine program.builtins.int
      minimum minimum
    obtain ⟨-, -, -, -, -, dividedItself, -⟩ := itself
    obtain ⟨one, _, dividesItself, -, -, -, -, roundedItself⟩ := dividedItself (by decide)
    rw [rounded] at divides
    rw [roundedItself] at dividesItself
    rw [show remainder.toInt = 0 from Int.natAbs_eq_zero.mp (Nat.lt_one_iff.mp small)] at remains
    exact ⟨by rw [globals]; rfl, minimum, minusOne, divides, remains, dividesItself⟩

end IntOperation

end BuildScript
