import BuildScript.Proofs.Run.AcceptedFaults
import BuildScript.Proofs.Run.Outcomes
import BuildScript.Proofs.Text.Slices

/-! What the operations of texts that take places and sizes do. They accept the places at which a
text can be cut, give or leave the bytes around these, and report the first other place. Nothing
changes then. What a search finds is such a place. A text is given a size by cutting it at such a
place or by filling it up with whole characters, so that it may become longer than it is asked to
be.
-/

namespace BuildScript.TextEdit

open Effect Heap Text

variable {environment : Environment} {store : Store} {self place count added : Handle}
  {s t : String} {p n : Int64}

-----------------------------------------------------------------------------------------
-- Computed texts
-----------------------------------------------------------------------------------------

/-- Gives a computed text, or reports the place where there is none. -/
def give (computed : Except Int String) : Effect Handle := do
  string (← ofExcept .stringPosition computed)

/-- Leaves a computed text, or reports the place where there is none. -/
def leave (self : Handle) (computed : Except Int String) : Effect Handle := do
  become self (.string (← ofExcept .stringPosition computed))

theorem give_ok (text : String) : Gives store (.string text) (give (.ok text) environment store) :=
  string_gives text

theorem give_error (position : Int)
    : give (.error position) environment store = (.error (.stringPosition position), store) :=
  rfl

theorem leave_error (position : Int)
    : leave self (.error position) environment store =
        (.error (.stringPosition position), store) :=
  rfl

-----------------------------------------------------------------------------------------
-- Operations
-----------------------------------------------------------------------------------------

/-- An operation goes by the value that it works on and by those of its operands. -/
theorem values_run (operands : List Handle) (next : Value → List Value → Effect Handle)
    : (do
          let this ← valueOf self
          let values ← valuesOf operands
          next this values : Effect Handle) environment store =
        next (store.heap.value self.cell) (operands.map fun handle => store.heap.value handle.cell)
          environment store :=
  rfl

/-- (limit rest) is the count among the operands behind the first one. There is no limit if there is
no count.
-/
def limit (rest : List Value) : Int := (rest[0]?.map fun value => value.asInt.toInt).getD unlimited

theorem limit_singleton (count : Int64) : limit [.int count] = count.toInt := rfl

/-- (offset values) is the place where a search begins. -/
def offset (values : List Value) : Int := (values[1]?.map fun value => value.asInt.toInt).getD 0

/-- Where no count is given, the greatest one is taken. -/
theorem substringFrom_eq
    : StringOperation.substringFrom.perform self = StringOperation.substring.perform self :=
  rfl

theorem eraseFrom_eq
    : StringOperation.eraseFrom.perform self = StringOperation.erase.perform self :=
  rfl

section

variable (holds : store.heap.value self.cell = .string s)

include holds

theorem leave_ok (text : String)
    : Becomes environment self (.string text) store (leave self (.ok text) environment store) :=
  become_becomes environment (inside_of_value holds (by simp)) (.string text)

variable {operands : List Handle} {rest : List Value}
  (read : operands.map (fun handle => store.heap.value handle.cell) = .int p :: rest)

include read

theorem perform_substring
    : StringOperation.substring.perform self operands environment store =
        give (substring s p.toInt (limit rest)) environment store := by
  have performed : StringOperation.substring.perform self operands = (do
      let this ← valueOf self
      let values ← valuesOf operands
      give (substring this.asString (values.headD .void).asInt.toInt
        ((values[1]?.map fun value => value.asInt.toInt).getD unlimited))) := rfl
  rw [performed, values_run, holds, read]
  rfl

theorem perform_erase
    : StringOperation.erase.perform self operands environment store =
        leave self (erase s p.toInt (limit rest)) environment store := by
  have performed : StringOperation.erase.perform self operands = (do
      let this ← valueOf self
      let values ← valuesOf operands
      leave self (erase this.asString (values.headD .void).asInt.toInt
        ((values[1]?.map fun value => value.asInt.toInt).getD unlimited))) := rfl
  rw [performed, values_run, holds, read]
  rfl

end

section

variable (holds : store.heap.value self.cell = .string s)
  (numbered : store.heap.value place.cell = .int p)
  (counted : store.heap.value count.cell = .int n)

include holds numbered counted

theorem perform_substring_range
    : StringOperation.substring.perform self [place, count] environment store =
        give (substring s p.toInt n.toInt) environment store := by
  have read : [place, count].map (fun handle => store.heap.value handle.cell) =
      [.int p, .int n] := by
    rw [List.map_cons, List.map_singleton, numbered, counted]
  rw [perform_substring holds read, limit_singleton]

theorem perform_erase_range
    : StringOperation.erase.perform self [place, count] environment store =
        leave self (erase s p.toInt n.toInt) environment store := by
  have read : [place, count].map (fun handle => store.heap.value handle.cell) =
      [.int p, .int n] := by
    rw [List.map_cons, List.map_singleton, numbered, counted]
  rw [perform_erase holds read, limit_singleton]

end

section

variable (holds : store.heap.value self.cell = .string s)
  (numbered : store.heap.value place.cell = .int p)
  (adds : store.heap.value added.cell = .string t)

include holds numbered adds

theorem perform_insert
    : StringOperation.insert.perform self [place, added] environment store =
        leave self (insert s p.toInt t) environment store := by
  have performed : StringOperation.insert.perform self [place, added] environment store =
      leave self (insert (store.heap.value self.cell).asString
        (store.heap.value place.cell).asInt.toInt (store.heap.value added.cell).asString)
        environment store := rfl
  rw [performed, holds, numbered, adds]
  rfl

theorem perform_replace (counted : store.heap.value count.cell = .int n)
    : StringOperation.replace.perform self [place, count, added] environment store =
        leave self (replace s p.toInt n.toInt t) environment store := by
  have performed : StringOperation.replace.perform self [place, count, added] environment store =
      leave self (replace (store.heap.value self.cell).asString
        (store.heap.value place.cell).asInt.toInt (store.heap.value count.cell).asInt.toInt
        (store.heap.value added.cell).asString) environment store := rfl
  rw [performed, holds, numbered, counted, adds]
  rfl

end

-----------------------------------------------------------------------------------------
-- Places
-----------------------------------------------------------------------------------------

/-- (Accepts environment store self place added) says that the operations that take a place in a
text take a number as one.
-/
structure Accepts (environment : Environment) (store : Store) (self place added : Handle) : Prop
    where
  substring : ∃ result, Gives store (.string result)
    (StringOperation.substringFrom.perform self [place] environment store)
  insert : ∃ result, Becomes environment self (.string result) store
    (StringOperation.insert.perform self [place, added] environment store)
  erase : ∃ result, Becomes environment self (.string result) store
    (StringOperation.eraseFrom.perform self [place] environment store)

/-- The rest of a text that is not longer than the greatest count ends at its end. -/
theorem rangeEnd_unlimited (few : (s.utf8ByteSize : Int) ≤ unlimited) {offset : Int}
    (nonnegative : 0 ≤ offset)
    : rangeEnd s offset unlimited = s.utf8ByteSize := by
  rw [rangeEnd]
  omega

/-- A place between characters is accepted. -/
theorem accepts (environment : Environment) (holds : store.heap.value self.cell = .string s)
    (numbered : store.heap.value place.cell = .int p)
    (adds : store.heap.value added.cell = .string t) (few : (s.utf8ByteSize : Int) ≤ unlimited)
    (boundary : Boundary s p.toInt)
    : Accepts environment store self place added := by
  have read : [place].map (fun handle => store.heap.value handle.cell) = [.int p] := by
    rw [List.map_singleton, numbered]
  have ends : Boundary s (rangeEnd s p.toInt (limit [])) := by
    rw [show limit [] = unlimited from rfl, rangeEnd_unlimited few boundary.1]
    exact boundary_size s
  refine ⟨?_, ?_, ?_⟩
  · obtain ⟨result, taken, -⟩ := substring_bytes boundary ends
    rw [substringFrom_eq, perform_substring holds read, taken]
    exact ⟨result, give_ok result⟩
  · obtain ⟨result, grown, -⟩ := insert_bytes boundary t
    rw [perform_insert holds numbered adds, grown]
    exact ⟨result, leave_ok holds result⟩
  · obtain ⟨result, erased, -⟩ := erase_bytes boundary ends
    rw [eraseFrom_eq, perform_erase holds read, erased]
    exact ⟨result, leave_ok holds result⟩

/-- (Searches operation search) says that an operation gives the place that a search finds in a
text, where the search goes by operands.
-/
inductive Searches : StringOperation → (String → List Value → Except Int (Option Nat)) → Prop where
  | find : Searches .find fun text values =>
      Text.find text (offset values) (values.headD .void).asString
  | findFrom : Searches .findFrom fun text values =>
      Text.find text (offset values) (values.headD .void).asString
  | findNotOf : Searches .findNotOf fun text values =>
      Text.findNotOf text (offset values) (values.headD .void).asString
  | findNotOfFrom : Searches .findNotOfFrom fun text values =>
      Text.findNotOf text (offset values) (values.headD .void).asString
  | findLast : Searches .findLast fun text values =>
      .ok (Text.findLast? (values.headD .void).asString text)
  | findLastNotOf : Searches .findLastNotOf fun text values =>
      .ok (Text.findLastNotOf? (values.headD .void).asString text)

theorem Searches.run {operation : StringOperation}
    {search : String → List Value → Except Int (Option Nat)} (searches : Searches operation search)
    (self : Handle) (operands : List Handle)
    : operation.perform self operands = (do
        let this ← valueOf self
        let values ← valuesOf operands
        Effect.place (← ofExcept .stringPosition (search this.asString values))) := by
  cases searches <;> rfl

theorem Searches.boundary {operation : StringOperation}
    {search : String → List Value → Except Int (Option Nat)} (searches : Searches operation search)
    {values : List Value} {place : Nat} (found : search s values = .ok (some place))
    : Boundary s place := by
  cases searches with
  | find => exact boundary_of_find found
  | findFrom => exact boundary_of_find found
  | findNotOf => exact boundary_of_findNotOf found
  | findNotOfFrom => exact boundary_of_findNotOf found
  | findLast => exact boundary_of_findLast (Except.ok.inj found)
  | findLastNotOf => exact boundary_of_findLastNotOf (Except.ok.inj found)

/-- What a search gives is no place or a place between characters. Nothing changes. -/
theorem Searches.gives {operation : StringOperation}
    {search : String → List Value → Except Int (Option Nat)} (searches : Searches operation search)
    (holds : store.heap.value self.cell = .string s) (few : (s.utf8ByteSize : Int) ≤ unlimited)
    {operands : List Handle} {found : Handle} {after : Store}
    (given : operation.perform self operands environment store = (.ok found, after))
    : Store.Keeps store after ∧ ∃ place : Int64, after.heap.value found.cell = .int place
        ∧ (0 ≤ place.toInt → Boundary s place.toInt) := by
  rw [searches.run, values_run, holds] at given
  change (do
    Effect.place (← ofExcept .stringPosition (search s _)) : Effect Handle) _ _ = _ at given
  cases outcome : search s (operands.map fun handle => store.heap.value handle.cell) with
  | error position =>
      rw [outcome] at given
      cases given
  | ok place? =>
      rw [outcome] at given
      obtain ⟨cell, after', gave, -, value, keeps⟩
          : Gives store (.int _) (Effect.place place? environment store) := int_gives _
      cases gave.symm.trans given
      refine ⟨keeps, _, value, fun nonnegative => ?_⟩
      cases place? with
      | none => exact absurd nonnegative (by decide)
      | some place =>
          have boundary := searches.boundary outcome
          have inside := boundary.le_size
          rw [unlimited, Int64.toInt_maxValue] at few
          rwa [show (Int64.ofNat place).toInt = place from
            Int64.toInt_ofNat_of_lt (by omega)]

-----------------------------------------------------------------------------------------
-- Edits
-----------------------------------------------------------------------------------------

/-- Erases a range of a text and inserts another text in its place. -/
def eraseInsert (self place count added : Handle) : Effect Handle := do
  let inserted ← StringOperation.copy.perform self [added]
  let _ ← StringOperation.erase.perform self [place, count]
  StringOperation.insert.perform self [place, inserted]

section

variable (environment) (holds : store.heap.value self.cell = .string s)
  (numbered : store.heap.value place.cell = .int p)
  (counted : store.heap.value count.cell = .int n)
  (adds : store.heap.value added.cell = .string t)

include holds numbered counted adds

/-- The text to be inserted is copied before the range is erased. -/
theorem eraseInsert_run
    : ∃ copy middle, Store.Keeps store middle
        ∧ store.heap.cells.size ≤ copy.index
        ∧ middle.heap.value copy = .string t
        ∧ eraseInsert self place count added environment store =
          (do
            let _ ← leave self (erase s p.toInt n.toInt)
            StringOperation.insert.perform self [place, .owned copy] : Effect Handle)
            environment middle := by
  have copied : StringOperation.copy.perform self [added] environment store =
      Effect.string (store.heap.value added.cell).asString environment store := rfl
  rw [adds] at copied
  obtain ⟨copy, middle, gave, new, value, keeps⟩
      : Gives store (.string t) (StringOperation.copy.perform self [added] environment store) :=
    copied ▸ string_gives t
  have erased : StringOperation.erase.perform self [place, count] environment middle =
      leave self (erase s p.toInt n.toInt) environment middle :=
    perform_erase_range (keeps.value holds (by simp)) (keeps.value numbered (by simp))
      (keeps.value counted (by simp))
  refine ⟨copy, middle, keeps, new, value, ?_⟩
  rw [eraseInsert, run_bind, gave]
  dsimp only
  rw [run_bind, erased, run_bind]

theorem eraseInsert_error {position : Int} (failed : erase s p.toInt n.toInt = .error position)
    : ∃ after, eraseInsert self place count added environment store =
          (.error (.stringPosition position), after)
        ∧ Store.Keeps store after := by
  obtain ⟨copy, middle, keeps, -, -, run⟩ :=
    eraseInsert_run environment holds numbered counted adds
  rw [run, run_bind, failed]
  exact ⟨middle, rfl, keeps⟩

theorem eraseInsert_ok {erased result : String} (outcome : erase s p.toInt n.toInt = .ok erased)
    (inserted : insert erased p.toInt t = .ok result)
    : Becomes environment self (.string result) store
        (eraseInsert self place count added environment store) := by
  have inside := inside_of_value holds (by simp)
  obtain ⟨copy, middle, keeps, new, value, run⟩ :=
    eraseInsert_run environment holds numbered counted adds
  obtain ⟨_, later, left, -, sets⟩
      : Becomes environment self (.string erased) middle
          (leave self (.ok erased) environment middle) :=
    leave_ok (keeps.value holds (by simp)) erased
  -- Neither the place nor the copy is the text that is edited.
  have kept {cell : CellId} {object : Value} (held : middle.heap.value cell = object)
      (something : object ≠ .void) (other : cell ≠ self.cell)
      : later.heap.value cell = object :=
    (congrArg Object.value (sets.others cell (inside_of_value held something) other)).trans held
  have numbered' : later.heap.value place.cell = .int p := by
    refine kept (keeps.value numbered (by simp)) (by simp) fun same => ?_
    rw [same] at numbered
    cases holds.symm.trans numbered
  have value' : later.heap.value copy = .string t := by
    refine kept value (by simp) ?_
    rintro rfl
    exact Nat.not_lt.mpr new inside
  have inserts : StringOperation.insert.perform self [place, .owned copy] environment later =
      leave self (insert erased p.toInt t) environment later :=
    perform_insert sets.value numbered' value'
  obtain ⟨given, after, left', nothing, sets'⟩
      : Becomes environment self (.string result) later
          (leave self (.ok result) environment later) := leave_ok sets.value result
  rw [run, run_bind, outcome, left]
  dsimp only
  rw [inserts, inserted, left']
  exact ⟨given, after, rfl, nothing, keeps.sets inside (sets.trans sets')⟩

/-- A range that begins and ends between characters is given, erased or replaced. -/
theorem range_agrees (begins : Boundary s p.toInt) (ends : Boundary s (rangeEnd s p.toInt n.toInt))
    : let last := rangeEnd s p.toInt n.toInt
      (∃ result,
          Gives store (.string result)
            (StringOperation.substring.perform self [place, count] environment store)
          ∧ result.toByteArray = bytes s p.toInt last)
        ∧ (∃ result,
          Becomes environment self (.string result) store
            (StringOperation.erase.perform self [place, count] environment store)
          ∧ result.toByteArray = bytes s 0 p.toInt ++ bytes s last s.utf8ByteSize)
        ∧ ∃ result,
          Becomes environment self (.string result) store
            (StringOperation.replace.perform self [place, count, added] environment store)
          ∧ Becomes environment self (.string result) store
            (eraseInsert self place count added environment store)
          ∧ result.toByteArray =
            bytes s 0 p.toInt ++ t.toByteArray ++ bytes s last s.utf8ByteSize := by
  refine ⟨?_, ?_, ?_⟩
  · obtain ⟨result, taken, consists⟩ := substring_bytes begins ends
    rw [perform_substring_range holds numbered counted, taken]
    exact ⟨result, give_ok result, consists⟩
  · obtain ⟨result, erased, consists⟩ := erase_bytes begins ends
    rw [perform_erase_range holds numbered counted, erased]
    exact ⟨result, leave_ok holds result, consists⟩
  · obtain ⟨result, replaced, consists⟩ := replace_bytes begins ends t
    obtain ⟨rest, erased, -⟩ := erase_bytes begins ends
    have inserted : insert rest p.toInt t = .ok result := (insert_erased erased t).trans replaced
    rw [perform_replace holds numbered adds counted, replaced]
    exact ⟨result, leave_ok holds result,
      eraseInsert_ok environment holds numbered counted adds erased inserted, consists⟩

/-- For any other range, the first of its ends inside of a character is reported. -/
theorem range_refused
    (inside : ¬(Boundary s p.toInt ∧ Boundary s (rangeEnd s p.toInt n.toInt)))
    : let fault : Fault := .stringPosition
        (if Boundary s p.toInt then rangeEnd s p.toInt n.toInt else p.toInt)
      StringOperation.substring.perform self [place, count] environment store =
          (.error fault, store)
        ∧ StringOperation.erase.perform self [place, count] environment store =
          (.error fault, store)
        ∧ StringOperation.replace.perform self [place, count, added] environment store =
          (.error fault, store)
        ∧ ∃ after, eraseInsert self place count added environment store = (.error fault, after)
          ∧ Store.Keeps store after := by
  have failed := cutRange_inside inside
  refine ⟨?_, ?_, ?_, ?_⟩
  · rw [perform_substring_range holds numbered counted, substring_error failed]
    exact give_error _
  · rw [perform_erase_range holds numbered counted, erase, replace_error failed]
    exact leave_error _
  · rw [perform_replace holds numbered adds counted, replace_error failed]
    exact leave_error _
  · exact eraseInsert_error environment holds numbered counted adds (replace_error failed "")

end

/-- Where no count is given, the range is the one of the greatest count. -/
theorem range_without_count (environment : Environment) {most : Handle}
    (holds : store.heap.value self.cell = .string s)
    (numbered : store.heap.value place.cell = .int p)
    (greatest : store.heap.value most.cell = .int Int64.maxValue)
    : StringOperation.substringFrom.perform self [place] environment store =
          StringOperation.substring.perform self [place, most] environment store
        ∧ StringOperation.eraseFrom.perform self [place] environment store =
          StringOperation.erase.perform self [place, most] environment store := by
  have alone : [place].map (fun handle => store.heap.value handle.cell) = [.int p] := by
    rw [List.map_singleton, numbered]
  have same : limit [] = Int64.maxValue.toInt := rfl
  refine ⟨?_, ?_⟩
  · rw [substringFrom_eq, perform_substring holds alone, same,
      perform_substring_range holds numbered greatest]
  · rw [eraseFrom_eq, perform_erase holds alone, same, perform_erase_range holds numbered greatest]

/-- The operations of texts agree with slices of bytes. A range is given, erased or replaced if and
only if it begins and ends between characters, and the bytes around it stay. Replacing is erasing
and inserting, which takes the same places as the beginning of a range. Where no count is given, it
is the greatest one. All places that searches give are accepted. The size of the text is an integer
for that, since no memory holds a longer one.
-/
theorem edits_agree_slices (environment : Environment) {store : Store}
    {self place count added : Handle} {s t : String} {p n : Int64}
    (holds : store.heap.value self.cell = .string s)
    (numbered : store.heap.value place.cell = .int p)
    (counted : store.heap.value count.cell = .int n)
    (adds : store.heap.value added.cell = .string t)
    : let run (operation : StringOperation) (operands : List Handle) :=
        operation.perform self operands environment store
      let first : Int := p.toInt
      let last : Int := min (p.toInt + max n.toInt 0) s.utf8ByteSize
      let size : Int := s.utf8ByteSize
      let fault : Fault := .stringPosition (if Boundary s first then last else first)
      let becomes (result : String) (outcome : Except Fault Handle × Store) : Prop :=
        Becomes environment self (.string result) store outcome
      (Boundary s first ∧ Boundary s last →
        (∃ result, Gives store (.string result) (run .substring [place, count])
          ∧ result.toByteArray = bytes s first last)
        ∧ (∃ result, becomes result (run .erase [place, count])
          ∧ result.toByteArray = bytes s 0 first ++ bytes s last size)
        ∧ ∃ result, becomes result (run .replace [place, count, added])
          ∧ becomes result (eraseInsert self place count added environment store)
          ∧ result.toByteArray = bytes s 0 first ++ t.toByteArray ++ bytes s last size)
      ∧ (¬(Boundary s first ∧ Boundary s last) →
        run .substring [place, count] = (.error fault, store)
        ∧ run .erase [place, count] = (.error fault, store)
        ∧ run .replace [place, count, added] = (.error fault, store)
        ∧ ∃ after, eraseInsert self place count added environment store = (.error fault, after)
          ∧ Store.Keeps store after)
      ∧ (Boundary s first → ∃ result, becomes result (run .insert [place, added])
        ∧ result.toByteArray = bytes s 0 first ++ t.toByteArray ++ bytes s first size)
      ∧ (¬Boundary s first →
        run .insert [place, added] = (.error (.stringPosition first), store))
      ∧ (∀ most : Handle, store.heap.value most.cell = .int Int64.maxValue →
        run .substringFrom [place] = run .substring [place, most]
        ∧ run .eraseFrom [place] = run .erase [place, most])
      ∧ (size ≤ Int64.maxValue.toInt → ∀ operation search, Searches operation search →
        ∀ operands found after, run operation operands = (.ok found, after) →
        ∃ number : Int64, after.heap.value found.cell = .int number
          ∧ (0 ≤ number.toInt → Accepts environment after self found added)) := by
  have inserted : StringOperation.insert.perform self [place, added] environment store =
      leave self (insert s p.toInt t) environment store :=
    perform_insert holds numbered adds
  refine ⟨fun ⟨begins, ends⟩ => range_agrees environment holds numbered counted adds begins ends,
    range_refused environment holds numbered counted adds, fun begins => ?_, fun outside => ?_,
    fun most greatest => range_without_count environment holds numbered greatest,
    fun few operation search searches operands found after given => ?_⟩
  · obtain ⟨result, grown, consists⟩ := insert_bytes begins t
    dsimp only
    rw [inserted, grown]
    exact ⟨result, leave_ok holds result, consists⟩
  · dsimp only
    rw [inserted, insert_inside outside]
    exact leave_error _
  · obtain ⟨keeps, number, value, boundary⟩ := searches.gives holds few given
    exact ⟨number, value, fun nonnegative => accepts environment (keeps.value holds (by simp)) value
      (keeps.value adds (by simp)) few (boundary nonnegative)⟩

/-- A script with a text of four bytes, a place and a count of a character in it, and a place inside
of that character.
-/
def accentText : String :=
  "string text = \"aéb\"; int place = 1; int count = 2; int inside = 2; "
    ++ "string added = \"xy\"; int main() \x7b return 0; \x7d"

set_option maxRecDepth 100000 in
/-- The script above is accepted. These are the values of its variables at the end of a run. -/
theorem accent_text
    : ((Program.ofText? accentText).map fun program =>
        let machine := (program.run ⟨20, 20⟩ (BuildSystem.ofRoot "/")).2
        match machine.globals.map fun entry => machine.store.heap.value entry.2.cell with
        | [.string added, .int inside, .int count, .int place, .string text] =>
          (added, inside, count, place, text)
        | _ => default) = some ("xy", 2, 2, 1, "aéb") := by
  decide +kernel

/-- Witness: the character is given and replaced, and no text is given for a place inside of it. -/
theorem edits_agree_slices_accent
    : ∃ program text place count inside added, Program.ofText? accentText = some program ∧
        let store := (program.run ⟨20, 20⟩ (BuildSystem.ofRoot "/")).2.store
        let environment : Environment := ⟨program.registry, program.builtins⟩
        let run (operation : StringOperation) (operands : List Handle) :=
          operation.perform text operands environment store
        store.heap.value text.cell = .string "aéb"
        ∧ store.heap.value added.cell = .string "xy"
        ∧ Gives store (.string "é") (run .substring [place, count])
        ∧ Becomes environment text (.string "axyb") store (run .replace [place, count, added])
        ∧ run .substring [inside, count] = (.error (.stringPosition 2), store) := by
  obtain ⟨program, compiled, known⟩ := Option.map_eq_some_iff.mp accent_text
  dsimp only at known
  generalize ends : (program.run ⟨20, 20⟩ (BuildSystem.ofRoot "/")).2 = machine at known
  split at known
  case h_2 => exact absurd (congrArg (·.1) known) (by decide)
  case h_1 values =>
    simp only [Prod.mk.injEq] at known
    obtain ⟨rfl, rfl, rfl, rfl, rfl⟩ := known
    simp only [List.map_eq_cons_iff, List.map_eq_nil_iff] at values
    obtain ⟨⟨_, added⟩, _, -, adds, ⟨_, inside⟩, _, rfl, two, ⟨_, count⟩, _, rfl, counted,
      ⟨_, place⟩, _, rfl, numbered, ⟨_, text⟩, _, rfl, holds, rfl⟩ := values
    refine ⟨program, text, place, count, inside, added, compiled, ?_⟩
    rw [ends]
    have around := edits_agree_slices ⟨program.registry, program.builtins⟩ holds numbered counted
      adds
    have within := edits_agree_slices ⟨program.registry, program.builtins⟩ holds two counted adds
    obtain ⟨⟨taken, gives, bytes⟩, -, replaced, becomes, -, bytes'⟩ :=
      around.1 ⟨by decide +kernel, by decide +kernel⟩
    have outside : ¬Boundary "aéb" (2 : Int64).toInt := by decide +kernel
    have character : taken = "é" := by
      rw [← String.toByteArray_inj, bytes]
      decide +kernel
    have exchanged : replaced = "axyb" := by
      rw [← String.toByteArray_inj, bytes']
      decide +kernel
    have unplaced := (within.2.1 fun both => outside both.1).1
    rw [if_neg outside] at unplaced
    exact ⟨holds, adds, character ▸ gives, exchanged ▸ becomes, unplaced⟩

-----------------------------------------------------------------------------------------
-- Sizes
-----------------------------------------------------------------------------------------

variable {size : Handle} {operation : StringOperation} {operands : List Handle} {fill : String}

/-- (Resizes store size operation operands fill) says that an operation gives a text a size by
filling it with a text, which is a null character if there is none.
-/
inductive Resizes (store : Store) (size : Handle)
    : StringOperation → List Handle → String → Prop where
  | alone : Resizes store size .resize [size] "\x00"
  | filling {filler : Handle} {fill : String} (fills : store.heap.value filler.cell = .string fill)
      (some : fill ≠ "")
      : Resizes store size .resizeWith [size, filler] fill

theorem Resizes.filled (resizes : Resizes store size operation operands fill)
    : fill.toList ≠ [] := by
  cases resizes with
  | alone => decide
  | filling _ some => exact fun none => some (String.toList_eq_nil_iff.mp none)

theorem checked_run {α ε : Type} (fault : ε → Fault) (value : α) (next : α → Effect Handle)
    : (do next (← ofExcept fault (.ok value)) : Effect Handle) environment store =
        next value environment store :=
  rfl

theorem checkSize_possible (nonnegative : 0 ≤ n.toInt) (within : n.toInt ≤ maxContainerSize)
    : Container.checkSize .string n.toInt = .ok n.toInt.toNat := by
  rw [Container.checkSize, if_neg (Int.not_lt.mpr nonnegative), if_neg (by omega)]

section

variable (holds : store.heap.value self.cell = .string s)
  (nonnegative : 0 ≤ n.toInt) (within : n.toInt ≤ maxContainerSize)

include holds nonnegative within

/-- A text is given a size that there can be. -/
theorem perform_resize (resizing : operation = .resize ∨ operation = .resizeWith)
    {rest : List Value}
    (read : operands.map (fun handle => store.heap.value handle.cell) = .int n :: rest)
    : operation.perform self operands environment store =
        leave self (resize s n.toInt.toNat ((rest[0]?.map Value.asString).getD "\x00")) environment
          store := by
  have performed : operation.perform self operands = (do
      let this ← valueOf self
      let values ← valuesOf operands
      let size ← ofExcept id (Container.checkSize .string (values.headD .void).asInt.toInt)
      leave self (resize this.asString size ((values[1]?.map Value.asString).getD "\x00"))) := by
    rcases resizing with rfl | rfl <;> rfl
  rw [performed, values_run, holds, read, List.headD_cons, Value.asInt,
    checkSize_possible nonnegative within, checked_run, List.getElem?_cons_succ, Value.asString]

theorem Resizes.run (resizes : Resizes store size operation operands fill)
    (sized : store.heap.value size.cell = .int n)
    : operation.perform self operands environment store =
        leave self (resize s n.toInt.toNat fill) environment store := by
  cases resizes with
  | alone =>
      have read : [size].map (fun handle => store.heap.value handle.cell) = [.int n] := by
        rw [List.map_singleton, sized]
      rw [perform_resize holds nonnegative within (.inl rfl) read, List.getElem?_nil,
        Option.map_none, Option.getD_none]
  | @filling filler _ fills some =>
      have read : [size, filler].map (fun handle => store.heap.value handle.cell) =
          [.int n, .string fill] := by
        rw [List.map_cons, List.map_singleton, sized, fills]
      rw [perform_resize holds nonnegative within (.inr rfl) read, List.getElem?_cons_zero,
        Option.map_some, Option.getD_some, Value.asString]

end

/-- A text is given a size by cutting it or by filling it up. It is cut if and only if the size does
not part a character, and nothing changes otherwise. It is filled up with whole characters in turn
until it has the size at least, so that it has the size exactly if some of them end there, as
characters of one byte do. The first bytes stay as they are.
-/
theorem resize_reaches_size (environment : Environment) {store : Store} {self size : Handle}
    {operation : StringOperation} {operands : List Handle} {s fill : String} {n : Int64}
    (holds : store.heap.value self.cell = .string s)
    (sized : store.heap.value size.cell = .int n) (nonnegative : 0 ≤ n.toInt)
    (within : n.toInt ≤ maxContainerSize) (resizes : Resizes store size operation operands fill)
    : let outcome := operation.perform self operands environment store
      let before : Int := s.utf8ByteSize
      let kept : Int := min n.toInt before
      (n.toInt < before ∧ ¬Boundary s n.toInt →
        outcome = (.error (.stringPosition n.toInt), store))
      ∧ (¬(n.toInt < before ∧ ¬Boundary s n.toInt) → ∃ result,
        Becomes environment self (.string result) store outcome
        ∧ bytes result 0 kept = bytes s 0 kept
        ∧ (before < n.toInt → Fills fill.toList [] n.toInt.toNat s result)
        ∧ n.toInt ≤ result.utf8ByteSize ∧ result.utf8ByteSize ≤ n.toInt + 3
        ∧ ((result.utf8ByteSize : Int) = n.toInt ↔ n.toInt ≤ before
          ∨ ∃ count, before + byteLength (turns fill.toList [] count) = n.toInt)
        ∧ ((∀ c ∈ fill.toList, c.utf8Size = 1) → (result.utf8ByteSize : Int) = n.toInt)) := by
  have performed : operation.perform self operands environment store =
      leave self (resize s n.toInt.toNat fill) environment store :=
    resizes.run holds nonnegative within sized
  have filled := resizes.filled
  dsimp only
  rw [performed]
  obtain ⟨target, number⟩ := Int.eq_ofNat_of_zero_le nonnegative
  rw [number, Int.toNat_natCast]
  refine ⟨fun ⟨less, inside⟩ => ?_, fun possible => ?_⟩
  · rw [resize_inside (by omega) inside]
    exact leave_error _
  · by_cases long : target ≤ s.utf8ByteSize
    · have boundary : Boundary s target := by
        by_cases less : (target : Int) < s.utf8ByteSize
        · exact Decidable.not_not.mp fun inside => possible ⟨less, inside⟩
        · rw [show target = s.utf8ByteSize by omega]
          exact boundary_size s
      obtain ⟨result, cut, consists, reached⟩ := resize_cut long boundary fill
      have kept : bytes result 0 target = bytes s 0 target := by
        rw [← consists, bytes, Int.toNat_natCast, ← reached]
        exact ByteArray.extract_zero_size
      rw [cut, Int.min_eq_left (by omega)]
      exact ⟨result, leave_ok holds result, kept, fun short => by omega, by omega, by omega,
        by omega, fun _ => by omega⟩
    · have short : s.utf8ByteSize < target := Nat.lt_of_not_le long
      obtain ⟨result, grown, fills⟩ := resize_fills short filled
      have wide : result.utf8ByteSize ≤ target + 3 :=
        size_resize (fun c _ => c.utf8Size_le_four) grown
      have enough := fills.le_size
      have exactly := fills.size_eq_iff filled
      rw [grown, Int.min_eq_right (by omega)]
      refine ⟨result, leave_ok holds result, fills.bytes_eq, fun _ => fills, by omega, by omega, ?_,
        fun narrow => ?_⟩
      · rw [or_iff_right (by omega)]
        exact_mod_cast exactly
      · exact_mod_cast fills.size_eq_of_narrow filled narrow (Nat.le_of_lt short)

/-- A script with a text of one byte, a size, and a character of two bytes to fill the text with. -/
def fillingText : String :=
  "string text = \"a\"; int size = 3; string fill = \"é\"; int main() \x7b return 0; \x7d"

/-- A script that gives a text of one byte a size of two bytes by filling it with that character. -/
def overfillingText : String :=
  "int main() \x7b string s = \"a\"; s.resize(2, \"é\"); return s.size(); \x7d"

set_option maxRecDepth 100000 in
/-- The scripts above are accepted. These are the values of the variables of the first one at the
end of a run, and what the second one gives.
-/
theorem filling_texts
    : ((Program.ofText? fillingText).map fun program =>
        let machine := (program.run ⟨20, 20⟩ (BuildSystem.ofRoot "/")).2
        match machine.globals.map fun entry => machine.store.heap.value entry.2.cell with
        | [.string fill, .int size, .string text] => (fill, size, text)
        | _ => default) = some ("é", 3, "a")
      ∧ (Program.ofText? overfillingText).map (fun program => program.outcome.1) =
        some (some 3) := by
  decide +kernel

/-- Witness: the text has the size that it is given once one character is added. -/
theorem resize_reaches_size_filling
    : ∃ program text size fill, Program.ofText? fillingText = some program ∧
        let store := (program.run ⟨20, 20⟩ (BuildSystem.ofRoot "/")).2.store
        let environment : Environment := ⟨program.registry, program.builtins⟩
        store.heap.value text.cell = .string "a"
        ∧ store.heap.value size.cell = .int 3
        ∧ store.heap.value fill.cell = .string "é"
        ∧ ∃ result, Becomes environment text (.string result) store
            (StringOperation.resizeWith.perform text [size, fill] environment store)
          ∧ bytes result 0 1 = bytes "a" 0 1
          ∧ result.utf8ByteSize = 3 := by
  obtain ⟨program, compiled, known⟩ := Option.map_eq_some_iff.mp filling_texts.1
  dsimp only at known
  generalize ends : (program.run ⟨20, 20⟩ (BuildSystem.ofRoot "/")).2 = machine at known
  split at known
  case h_2 => exact absurd (congrArg (·.1) known) (by decide)
  case h_1 values =>
    simp only [Prod.mk.injEq] at known
    obtain ⟨rfl, rfl, rfl⟩ := known
    simp only [List.map_eq_cons_iff, List.map_eq_nil_iff] at values
    obtain ⟨⟨_, fill⟩, _, -, fills, ⟨_, size⟩, _, rfl, sized, ⟨_, text⟩, _, rfl, holds, rfl⟩ :=
      values
    refine ⟨program, text, size, fill, compiled, ?_⟩
    rw [ends]
    have resizes : Resizes machine.store size .resizeWith [size, fill] "é" :=
      .filling fills (by decide)
    have resized := resize_reaches_size ⟨program.registry, program.builtins⟩ holds sized (by decide)
      (by decide) resizes
    obtain ⟨result, becomes, kept, -, -, -, exactly, -⟩ :=
      resized.2 (by decide +kernel)
    exact ⟨holds, sized, fills, result, becomes, kept,
      Int.ofNat_inj.mp (exactly.mpr (.inr ⟨1, by decide +kernel⟩))⟩

/-- A text becomes longer than the size that it is given where no character ends there. -/
theorem resize_overfills
    : ∃ program, Program.ofText? overfillingText = some program ∧ program.Accepted ∧
        program.outcome.1 = some 3 := by
  obtain ⟨program, compiled, longer⟩ := Option.map_eq_some_iff.mp filling_texts.2
  exact ⟨program, compiled, Program.ofText?_accepted compiled, longer⟩

end BuildScript.TextEdit
