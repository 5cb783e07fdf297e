import BuildScript.Proofs.Syntax.Reads
import BuildScript.Syntax.Parser.Type

/-! Types are read back from their spellings, whatever comes after them but for the marks that
continue a type.
-/

namespace BuildScript

theorem TypeExpr.printAll_eq_map (types : List TypeExpr) : printAll types = types.map print := by
  induction types with
  | nil => rfl
  | cons first rest ih => rw [printAll, ih, List.map_cons]

theorem TypeExpr.allWritable_iff {types : List TypeExpr}
    : AllWritable types ↔ ∀ type ∈ types, type.Writable := by
  induction types with
  | nil => exact iff_of_true trivial fun type member => nomatch member
  | cons first rest ih => rw [AllWritable, ih, List.forall_mem_cons]

theorem TypeExpr.Writable.generics {type : TypeExpr} (writable : type.Writable)
    : ∀ part ∈ type.generics, part.Writable := by
  obtain ⟨names, generics, isReference, span⟩ := type
  rcases writable with ⟨_, _, _, rfl⟩ | ⟨_, all⟩
  · exact fun part member => nomatch member
  · exact TypeExpr.allWritable_iff.mp all

/-- An item is no longer than all items with commas between them. -/
theorem Token.length_le_separate {items : List (List (TokenKind × String))}
    {item : List (TokenKind × String)} (among : item ∈ items)
    : item.length ≤ (separate items).length := by
  cases items with
  | nil => exact nomatch among
  | cons first rest =>
      rw [separate, List.length_append]
      rcases List.mem_cons.mp among with rfl | later
      · exact Nat.le_add_right _ _
      · have inside := (List.sublist_flatten_of_mem (List.mem_map_of_mem
          (f := fun item => TokenKind.comma.mark :: item) later)).length_le
        rw [List.length_cons, ← List.flatMap_def] at inside
        omega

/-- Where every item has a spelling, there are no more items than tokens. -/
theorem length_le_flatMap {α β : Type} {spell : α → List β}
    (some_ : ∀ item, 1 ≤ (spell item).length)
    (items : List α)
    : items.length ≤ (items.flatMap spell).length := by
  induction items with
  | nil => exact Nat.le_refl 0
  | cons item items ih =>
      rw [List.flatMap_cons, List.length_append, List.length_cons, Nat.add_comm]
      exact Nat.add_le_add (some_ item) ih

namespace Parse

/-- (Begins kinds rest) says that something comes next, and not of one of the given classes. -/
def Begins (avoided : List TokenKind) (rest : List (TokenKind × String)) : Prop :=
  ∃ shown later, rest = shown :: later ∧ shown.1 ∉ avoided

theorem Begins.mono {avoided fewer : List TokenKind} {rest : List (TokenKind × String)}
    (begins : Begins avoided rest) (among : fewer ⊆ avoided)
    : Begins fewer rest := by
  obtain ⟨shown, later, rfl, other⟩ := begins
  exact ⟨shown, later, rfl, fun member => other (among member)⟩

namespace Reads

-----------------------------------------------------------------------------------------
-- Items between commas and names
-----------------------------------------------------------------------------------------

section Items

variable {α γ : Type} {bare : α → γ} {item : Parse α} {print : α → List (TokenKind × String)}
  {follows : List (TokenKind × String) → Prop}

/-- Where no comma comes next, there are no more items. -/
theorem noComma {rest : List (TokenKind × String)} (closed : Begins [.comma] rest) (count : Nat)
    : Reads (Parse.afterCommas item count) [] rest (fun read => read = []) := by
  obtain ⟨shown, later, rfl, other⟩ := closed
  cases count with
  | zero => exact pure rfl
  | succ count =>
      refine refuseThen rfl (fun comma => other ?_) (pure rfl)
      rw [comma]
      exact List.mem_singleton_self _

/-- Items after commas are read up to what is no comma. -/
theorem afterCommas {values : List α} {rest : List (TokenKind × String)} {count : Nat}
    (each : ∀ value ∈ values, ∀ more, follows more →
      Reads item (print value) more (bare · = bare value))
    (commas : ∀ more, follows (TokenKind.comma.mark :: more)) (ends : follows rest)
    (closed : Begins [.comma] rest) (enough : values.length ≤ count)
    : Reads (Parse.afterCommas item count)
        ((values.map print).flatMap fun item => TokenKind.comma.mark :: item) rest
        (fun read => read.map bare = values.map bare) := by
  induction values generalizing count with
  | nil =>
      refine (noComma closed count).weaken fun read none_ => ?_
      rw [none_, List.map_nil]
  | cons value values ih =>
      obtain ⟨count, rfl⟩ := Nat.exists_eq_add_of_le' (Nat.le_trans (Nat.succ_pos _) enough)
      rw [List.map_cons, List.flatMap_cons, List.cons_append]
      refine acceptThen TokenKind.comma.mark ?_
      refine bind (each value List.mem_cons_self _ ?_) fun first same => ?_
      · cases values with
        | nil => exact ends
        | cons => exact commas _
      · refine thenDone (ih (fun value member => each value (List.mem_cons_of_mem _ member))
          (Nat.le_of_succ_le_succ enough)) fun more sames => pure ?_
        rw [List.map_cons, List.map_cons, same, sames]

/-- Items between commas are read up to what is no comma. -/
theorem separated {first : α} {values : List α} {rest : List (TokenKind × String)}
    (each : ∀ value ∈ first :: values, ∀ more, follows more →
      Reads item (print value) more (bare · = bare value))
    (commas : ∀ more, follows (TokenKind.comma.mark :: more)) (ends : follows rest)
    (closed : Begins [.comma] rest)
    : Reads (Parse.separated item) (Token.separate ((first :: values).map print)) rest
        (fun read => read.map bare = (first :: values).map bare) := by
  refine bind (each first List.mem_cons_self _ ?_) fun value same => get fun stream ahead => ?_
  · cases values with
    | nil => exact ends
    | cons => exact commas _
  · refine thenDone (afterCommas (fun value member => each value (List.mem_cons_of_mem _ member))
      commas ends closed ?_) fun more sames => pure ?_
    · have tokens := congrArg List.length ahead
      rw [List.length_map, List.length_append] at tokens
      have items : (values.map print).length ≤
          ((values.map print).flatMap fun item => TokenKind.comma.mark :: item).length :=
        length_le_flatMap (fun item => by rw [List.length_cons]; omega) _
      rw [List.length_map] at items
      omega
    · rw [List.map_cons, List.map_cons, same, sames]

end Items

/-- Segments of a name are read up to what is no `::`. -/
theorem moreSegments {names : List Token} {rest : List (TokenKind × String)} {count : Nat}
    (words : ∀ name ∈ names, name.kind = .identifier) (closed : Begins [.colonColon] rest)
    (enough : names.length ≤ count)
    : Reads (Parse.moreSegments count)
        (names.flatMap fun name => [TokenKind.colonColon.mark, name.content]) rest
        (fun read => read.map Token.bare = names.map Token.bare) := by
  induction names generalizing count with
  | nil =>
      cases count with
      | zero => exact pure rfl
      | succ count =>
          obtain ⟨shown, later, rfl, other⟩ := closed
          intro stream ahead
          rw [run_moreSegments, if_neg]
          · exact ⟨[], stream, rfl, rfl, rfl⟩
          · rintro ⟨colons, -⟩
            rw [kind_current ahead] at colons
            exact other (by rw [colons]; exact List.mem_singleton_self _)
  | cons name names ih =>
      obtain ⟨count, rfl⟩ := Nat.exists_eq_add_of_le' (Nat.le_trans (Nat.succ_pos _) enough)
      intro stream ahead
      rw [List.flatMap_cons] at ahead
      have word : (stream.peek 1).kind = .identifier :=
        (kind_following ahead).trans (words name List.mem_cons_self)
      have ahead' : stream.advance.advance.ahead.map Token.content =
          (names.flatMap fun name => [TokenKind.colonColon.mark, name.content]) ++ rest := by
        rw [ahead_advance, ahead_advance, List.drop_drop, List.map_drop, ahead]
        rfl
      obtain ⟨read, after, given, same, left⟩ :=
        ih (fun name member => words name (List.mem_cons_of_mem _ member))
          (Nat.le_of_succ_le_succ enough) _ ahead'
      refine ⟨stream.peek 1 :: read, after, ?_, ?_, ?_⟩
      · rw [run_moreSegments, if_pos ⟨kind_current ahead, word⟩, run_bind, given]
        rfl
      · have segment : (stream.peek 1).content = name.content := content_following ahead
        show (stream.peek 1).bare :: read.map Token.bare = _
        rw [same, Token.bare_eq_of_content segment, List.map_cons]
      · rw [left, ahead_advance, ahead_advance, List.drop_drop, List.drop_drop,
          List.flatMap_cons, List.length_append, ← Nat.add_assoc]
        rfl

theorem qualifiedName {names : List Token} {rest : List (TokenKind × String)}
    (isName : Token.IsName names) (closed : Begins [.colonColon] rest)
    : Reads Parse.qualifiedName (Token.printNames names) rest
        (fun read => read.map Token.bare = names.map Token.bare) := by
  obtain ⟨some_, words⟩ := isName
  cases names with
  | nil => exact absurd rfl some_
  | cons name names =>
      have word : name.content.1 = .identifier := words name List.mem_cons_self
      show Reads Parse.qualifiedName (name.content :: names.flatMap _) rest _
      rw [Parse.qualifiedName, ← word]
      refine expectThen name.content fun first same => get fun stream ahead => ?_
      refine thenDone (moreSegments (fun name member => words name (List.mem_cons_of_mem _ member))
        closed ?_) fun more sames => pure ?_
      · have tokens := congrArg List.length ahead
        rw [List.length_map, List.length_append] at tokens
        have segments := length_le_flatMap (fun name : Token =>
          show 1 ≤ [TokenKind.colonColon.mark, name.content].length from Nat.succ_pos _) names
        omega
      · rw [List.map_cons, List.map_cons, sames, Token.bare_eq_of_content same]

-----------------------------------------------------------------------------------------
-- Types
-----------------------------------------------------------------------------------------

/-- What continues a type. -/
abbrev typeMarks : List TokenKind := [.colonColon, .less, .amp]

/-- (TypeReader nested types) says that a reader reads the given types. -/
def TypeReader (nested : Parse TypeExpr) (types : List TypeExpr) : Prop :=
  ∀ type ∈ types, ∀ more, Begins typeMarks more →
    Reads nested type.print more (fun read => read.bare = type.bare)

/-- Type arguments are read, of which there is at least one. -/
theorem typeArgumentsWith {nested : Parse TypeExpr} {types : List TypeExpr}
    {rest : List (TokenKind × String)} (parts : TypeReader nested types) (some_ : types ≠ [])
    : Reads (Parse.typeArgumentsWith nested)
        (TokenKind.less.mark :: (Token.separate (types.map TypeExpr.print)
          ++ [TokenKind.greater.mark])) rest
        (fun read => read.map TypeExpr.bare = types.map TypeExpr.bare) := by
  cases types with
  | nil => exact absurd rfl some_
  | cons first types =>
      have closes : Begins typeMarks (TokenKind.greater.mark :: rest) :=
        ⟨_, _, rfl, by decide⟩
      refine expectThen TokenKind.less.mark fun _ _ => ?_
      refine bind (separated parts (fun more => ⟨_, _, rfl, by decide⟩) closes
        ⟨_, _, rfl, by decide⟩) fun read same => ?_
      exact expectThen TokenKind.greater.mark fun _ _ => pure same

/-- The spelling of a type without the mark of a reference. -/
def plainPrint (type : TypeExpr) : List (TokenKind × String) :=
  Token.printNames type.names
    ++ if type.generics.isEmpty then []
      else TokenKind.less.mark :: (Token.separate (TypeExpr.printAll type.generics)
        ++ [TokenKind.greater.mark])

theorem plainTypeWith {nested : Parse TypeExpr} {type : TypeExpr}
    {rest : List (TokenKind × String)} (writable : type.Writable)
    (parts : TypeReader nested type.generics) (closed : Begins [.colonColon, .less] rest)
    : Reads (Parse.plainTypeWith nested) (plainPrint type) rest
        (fun read => read.bare = type.withoutReference.bare) := by
  obtain ⟨names, generics, isReference, span⟩ := type
  rcases writable with ⟨name, auto, rfl, rfl⟩ | ⟨isName, -⟩
  · have first : plainPrint ⟨[name], [], isReference, span⟩ ++ rest = name.content :: rest := rfl
    refine kind first ?_
    rw [show name.content.1 = .autoKeyword from auto]
    refine nextThen name.content fun token same => pure ?_
    simp only [TypeExpr.bare, TypeExpr.withoutReference, List.map_cons, List.map_nil,
      TypeExpr.bareAll, Token.bare_eq_of_content same]
  · obtain ⟨name, more, word, split_⟩ : ∃ (name : Token) (more : _), name.kind = .identifier ∧
        plainPrint ⟨names, generics, isReference, span⟩ ++ rest = name.content :: more := by
      obtain ⟨some_, words⟩ := isName
      cases names with
      | nil => exact absurd rfl some_
      | cons name names => exact ⟨name, _, words name List.mem_cons_self, rfl⟩
    refine kind split_ ?_
    rw [show name.content.1 = .identifier from word]
    refine get fun stream _ => ?_
    dsimp only
    cases generics with
    | nil =>
        obtain ⟨shown, later, rfl, other⟩ := closed
        have noSegment : Begins [.colonColon] (shown :: later) :=
          Begins.mono ⟨shown, later, rfl, other⟩ (by decide)
        refine bind (qualifiedName isName noSegment) fun read same => kind rfl ?_
        rw [if_neg (by simp at other ⊢; exact other.2)]
        refine pureThen (spanFromThen fun _ => pure ?_)
        simp only [TypeExpr.bare, TypeExpr.withoutReference, TypeExpr.bareAll, same]
    | cons first types =>
        have noSegment (more : List (TokenKind × String))
            : Begins [.colonColon] (TokenKind.less.mark :: more) :=
          ⟨_, _, rfl, by decide⟩
        refine bind (qualifiedName isName (noSegment _)) fun read same => kind rfl ?_
        rw [if_pos (by decide)]
        show Reads _ (TokenKind.less.mark :: (Token.separate (TypeExpr.printAll (first :: types))
          ++ [TokenKind.greater.mark])) rest _
        rw [TypeExpr.printAll_eq_map]
        refine thenDone (typeArgumentsWith parts (List.cons_ne_nil _ _)) fun arguments sames => ?_
        refine spanFromThen fun _ => pure ?_
        simp only [TypeExpr.bare, TypeExpr.withoutReference, TypeExpr.bareAll_eq_map, same, sames]

/-- A type is read up to what does not continue one. -/
theorem typeExprWith {nested : Parse TypeExpr} {type : TypeExpr} {rest : List (TokenKind × String)}
    (writable : type.Writable) (parts : TypeReader nested type.generics)
    (closed : Begins typeMarks rest)
    : Reads (Parse.typeExprWith nested) type.print rest (fun read => read.bare = type.bare) := by
  have spelling : type.print =
      plainPrint type ++ if type.isReference then [TokenKind.amp.mark] else [] := by
    cases type
    rfl
  rw [spelling]
  cases reference : type.isReference with
  | false =>
      obtain ⟨shown, later, rfl, other⟩ := closed
      refine bind (plainTypeWith writable parts
        (Begins.mono ⟨shown, later, rfl, other⟩ (by decide))) fun read same => kind rfl ?_
      rw [if_neg (by simp at other ⊢; exact other.2.2)]
      refine pure ?_
      obtain ⟨names, generics, isReference, span⟩ := type
      obtain rfl : isReference = false := reference
      exact same
  | true =>
      obtain ⟨shown, later, rfl, other⟩ := closed
      refine bind (plainTypeWith writable parts ⟨_, _, rfl, by decide⟩)
        fun read same => kind rfl ?_
      rw [if_pos (by decide)]
      refine nextThen TokenKind.amp.mark fun _ _ => kind rfl ?_
      rw [if_neg (by simp at other ⊢; exact other.2.2)]
      refine pure ?_
      obtain ⟨names, generics, isReference, span⟩ := type
      obtain ⟨names', generics', isReference', span'⟩ := read
      obtain rfl : isReference = true := reference
      simp only [TypeExpr.bare, TypeExpr.withoutReference, TypeExpr.mk.injEq, and_true] at same ⊢
      exact ⟨same.1, same.2.1⟩

end Reads

/-- A type argument has a shorter spelling than the type. -/
theorem length_print_lt {type part : TypeExpr} (among : part ∈ type.generics)
    : part.print.length < type.print.length := by
  obtain ⟨names, generics, isReference, span⟩ := type
  have inside : part.print.length ≤ (Token.separate (TypeExpr.printAll generics)).length := by
    rw [TypeExpr.printAll_eq_map]
    exact Token.length_le_separate (List.mem_map_of_mem among)
  have some_ : generics.isEmpty = false := by
    cases generics with
    | nil => exact nomatch among
    | cons => rfl
  rw [TypeExpr.print, if_neg (by rw [some_]; exact Bool.false_ne_true)]
  simp only [List.length_append, List.length_cons]
  omega

/-- Types are read at any depth beyond their length, by induction over the depth. -/
theorem Reads.typeExprWithin {depth : Nat} {type : TypeExpr} {rest : List (TokenKind × String)}
    (writable : type.Writable) (deep : type.print.length < depth)
    (closed : Begins Reads.typeMarks rest)
    : Reads (Parse.typeExprWithin depth) type.print rest (fun read => read.bare = type.bare) := by
  induction depth generalizing type rest with
  | zero => exact absurd deep (Nat.not_lt_zero _)
  | succ depth ih =>
      refine Reads.typeExprWith writable (fun part among more closed => ?_) closed
      have shorter := length_print_lt among
      exact ih (TypeExpr.Writable.generics writable part among) (by omega) closed

end Parse

end BuildScript
