import BuildScript.Component.Parser
import BuildScript.Proofs.Syntax.OperandReading
import BuildScript.Proofs.Token.Layout

/-! The grammar of declarative files, and how the trees of such files are spelled. The numbers of a
scanned text are digits, with a point among them where they have a fraction, so that of all numbers
only an integer that is too large has no value.
-/

namespace BuildScript

-----------------------------------------------------------------------------------------
-- Grammar
-----------------------------------------------------------------------------------------

namespace ComponentDecl

mutual

/-- (IsValue contents) says that the contents of some tokens form the value of a property. -/
inductive IsValue : List (TokenKind × String) → Prop
  | literal {kind text} (simple : kind ∈ [.trueKeyword, .falseKeyword, .string, .double])
    : IsValue [(kind, text)]
  | integer {text} (fits : Nat.ofDigitChars 10 text.toList 0 ≤ Int64.maxValue.toInt)
    : IsValue [(.integer, text)]
  | nothing {opening closing} : IsValue [(.openBracket, opening), (.closeBracket, closing)]
  | list {opening closing first rest} (isFirst : IsValue first) (areMore : AreMoreValues rest)
    : IsValue ((.openBracket, opening) :: (first ++ rest ++ [(.closeBracket, closing)]))

/-- (AreMoreValues contents) says that they form the values of a list after its first, each after a
comma. The last one may be followed by a comma.
-/
inductive AreMoreValues : List (TokenKind × String) → Prop
  | done : AreMoreValues []
  | comma {mark} : AreMoreValues [(.comma, mark)]
  | value {mark next rest} (isNext : IsValue next) (areMore : AreMoreValues rest)
    : AreMoreValues ((.comma, mark) :: (next ++ rest))

end

/-- (AreProperties contents) says that they form some properties. -/
inductive AreProperties : List (TokenKind × String) → Prop
  | done : AreProperties []
  | property {name sign mark ending value rest} (assigns : sign = .assignment ∨ sign = .colon)
    (isValue : IsValue value) (later : AreProperties rest)
    : AreProperties
        ((.identifier, name) :: (sign, mark) :: (value ++ (.semicolon, ending) :: rest))

/-- (IsComponent contents) says that they form a component and the end of the file. -/
inductive IsComponent : List (TokenKind × String) → Prop
  | mk {name opening closing ending properties} (areProperties : AreProperties properties)
    : IsComponent
        ((.identifier, name) :: (.openCurly, opening)
          :: (properties ++ [(.closeCurly, closing), (.endOfFile, ending)]))

end ComponentDecl

-----------------------------------------------------------------------------------------
-- Spelling of trees
-----------------------------------------------------------------------------------------

namespace ValueExpr

mutual

/-- (SpelledBy value contents) says that the contents of some tokens spell a value. A number may be
spelled by any text that reads as it.
-/
inductive SpelledBy : ValueExpr → List (TokenKind × String) → Prop
  | bool {value text span}
    : SpelledBy (.bool value span) [(if value then .trueKeyword else .falseKeyword, text)]
  | int {value text span} (number : Decimal.readInt64? text.toList = some value)
    : SpelledBy (.int value span) [(.integer, text)]
  | double {value text span} (number : Decimal.readFloat? text.toList = some value)
    : SpelledBy (.double value span) [(.double, text)]
  | string {value span} : SpelledBy (.string value span) [(.string, value)]
  | nothing {opening closing span}
    : SpelledBy (.list [] span) [(.openBracket, opening), (.closeBracket, closing)]
  | list {opening closing value values first rest span} (spelled : SpelledBy value first)
    (more : MoreSpelledBy values rest)
    : SpelledBy (.list (value :: values) span)
        ((.openBracket, opening) :: (first ++ rest ++ [(.closeBracket, closing)]))

/-- (MoreSpelledBy values contents) says that they spell the values of a list after its first. -/
inductive MoreSpelledBy : List ValueExpr → List (TokenKind × String) → Prop
  | done : MoreSpelledBy [] []
  | comma {mark} : MoreSpelledBy [] [(.comma, mark)]
  | value {mark value values next rest} (spelled : SpelledBy value next)
    (more : MoreSpelledBy values rest)
    : MoreSpelledBy (value :: values) ((.comma, mark) :: (next ++ rest))

end

mutual

/-- (bare value) forgets where a value and its parts were read. -/
def bare : ValueExpr → ValueExpr
  | .bool value _ => .bool value Span.unknown
  | .int value _ => .int value Span.unknown
  | .double value _ => .double value Span.unknown
  | .string value _ => .string value Span.unknown
  | .list values _ => .list (bareAll values) Span.unknown

/-- (bareAll values) forgets where several values were read. -/
def bareAll : List ValueExpr → List ValueExpr
  | [] => []
  | first :: rest => first.bare :: bareAll rest

end

end ValueExpr

/-- (SpelledBy decls contents) says that the contents of some tokens spell some properties, each
with either of the two signs.
-/
inductive PropertyDecl.AllSpelledBy : List PropertyDecl → List (TokenKind × String) → Prop
  | done : AllSpelledBy [] []
  | property {decl sign mark ending value decls rest} (word : decl.name.kind = .identifier)
    (assigns : sign = .assignment ∨ sign = .colon) (spelled : decl.value.SpelledBy value)
    (later : AllSpelledBy decls rest)
    : AllSpelledBy (decl :: decls)
        (decl.name.content :: (sign, mark) :: (value ++ (.semicolon, ending) :: rest))

/-- (bare decl) forgets where a property and its parts were read. -/
def PropertyDecl.bare (decl : PropertyDecl) : PropertyDecl :=
  ⟨decl.name.bare, decl.value.bare, Span.unknown⟩

namespace ComponentDecl

/-- (SpelledBy decl contents) says that the contents of some tokens spell a component and the end of
the file.
-/
inductive SpelledBy (decl : ComponentDecl) : List (TokenKind × String) → Prop
  | mk {opening closing ending properties} (word : decl.name.kind = .identifier)
    (spelled : PropertyDecl.AllSpelledBy decl.properties properties)
    : SpelledBy decl
        (decl.name.content :: (.openCurly, opening)
          :: (properties ++ [(.closeCurly, closing), (.endOfFile, ending)]))

/-- (bare decl) forgets where a component and its parts were read. -/
def bare (decl : ComponentDecl) : ComponentDecl :=
  ⟨decl.name.bare, decl.properties.map PropertyDecl.bare, Span.unknown⟩

end ComponentDecl

-----------------------------------------------------------------------------------------
-- What can be written
-----------------------------------------------------------------------------------------

mutual

/-- (Writable value) says that the fractions in a value have a text. -/
def ValueExpr.Writable : ValueExpr → Prop
  | .bool .. | .int .. | .string .. => True
  | .double value _ => ∃ text : String, Decimal.readFloat? text.toList = some value
  | .list values _ => ValueExpr.AllWritable values

/-- (AllWritable values) says it of several values. -/
def ValueExpr.AllWritable : List ValueExpr → Prop
  | [] => True
  | first :: rest => first.Writable ∧ ValueExpr.AllWritable rest

end

/-- (Writable decl) says that the names in a component are words, and that its fractions have a
text.
-/
def ComponentDecl.Writable (decl : ComponentDecl) : Prop :=
  decl.name.kind = .identifier
    ∧ ∀ property ∈ decl.properties, property.name.kind = .identifier ∧ property.value.Writable

/-- Every integer is read from its text. -/
theorem Decimal.readInt64?_written (value : Int64)
    : readInt64? (writeInt64 value).toList = some value := by
  rcases Int.le_total 0 value.toInt with natural | negative
  · exact readInt64?_writeInt64 natural
  · rcases same : value.toInt with n | n
    · exact readInt64?_writeInt64 (by rw [same]; exact Int.natCast_nonneg n)
    · have text : (writeInt64 value).toList = '-' :: Nat.toDigits 10 (n + 1) := by
        rw [writeInt64, same]
        show ("-" ++ (n + 1).repr).toList = _
        rw [String.toList_append, Nat.toList_repr]
        rfl
      rw [text, readInt64?, readNat?_toDigits, Option.bind_some, toInt64?,
        show -((n + 1 : Nat) : Int) = value.toInt from same.symm, if_pos, Int64.ofInt_toInt]
      exact ⟨Int64.minValue_le_toInt value, Int64.toInt_le value⟩

mutual

theorem ValueExpr.Writable.spells {value : ValueExpr} (writable : value.Writable)
    : ∃ contents, value.SpelledBy contents := by
  match value with
  | .bool value _ => exact ⟨[(if value then .trueKeyword else .falseKeyword, "")], .bool⟩
  | .int value _ => exact ⟨_, .int (Decimal.readInt64?_written value)⟩
  | .double value _ =>
      obtain ⟨text, number⟩ := writable
      exact ⟨_, .double number⟩
  | .string value _ => exact ⟨_, .string⟩
  | .list [] _ => exact ⟨[(.openBracket, "["), (.closeBracket, "]")], .nothing⟩
  | .list (first :: rest) _ =>
      obtain ⟨isFirst, areMore⟩ : first.Writable ∧ ValueExpr.AllWritable rest := writable
      obtain ⟨contents, spelled⟩ := isFirst.spells
      obtain ⟨later, more⟩ := areMore.spells
      exact ⟨(.openBracket, "[") :: (contents ++ later ++ [(.closeBracket, "]")]),
        .list spelled more⟩

theorem ValueExpr.AllWritable.spells {values : List ValueExpr}
    (writable : ValueExpr.AllWritable values)
    : ∃ contents, ValueExpr.MoreSpelledBy values contents := by
  match values with
  | [] => exact ⟨_, .done⟩
  | first :: rest =>
      obtain ⟨isFirst, areMore⟩ : first.Writable ∧ ValueExpr.AllWritable rest := writable
      obtain ⟨contents, spelled⟩ := isFirst.spells
      obtain ⟨later, more⟩ := areMore.spells
      exact ⟨(.comma, ",") :: (contents ++ later), .value spelled more⟩

end

/-- Every component that can be written has a spelling. -/
theorem ComponentDecl.Writable.spells {decl : ComponentDecl} (writable : decl.Writable)
    : ∃ contents, decl.SpelledBy contents := by
  have properties : ∀ decls : List PropertyDecl,
      (∀ property ∈ decls, property.name.kind = .identifier ∧ property.value.Writable) →
        ∃ contents, PropertyDecl.AllSpelledBy decls contents := by
    intro decls writable
    induction decls with
    | nil => exact ⟨[], .done⟩
    | cons first rest ih =>
        obtain ⟨word, isFirst⟩ := writable first List.mem_cons_self
        obtain ⟨value, spelled⟩ := isFirst.spells
        obtain ⟨contents, later⟩ :=
          ih fun decl among => writable decl (List.mem_cons_of_mem _ among)
        exact ⟨first.name.content :: (.assignment, "=") :: (value ++ (.semicolon, ";") :: contents),
          .property word (.inl rfl) spelled later⟩
  obtain ⟨contents, spelled⟩ := properties decl.properties writable.2
  exact ⟨decl.name.content :: (.openCurly, "\x7b")
    :: (contents ++ [(.closeCurly, "\x7d"), Token.endContent]), .mk writable.1 spelled⟩

-----------------------------------------------------------------------------------------
-- Numbers of a scanned text
-----------------------------------------------------------------------------------------

namespace Decimal

/-- (IsNumeral text) says that a text consists of digits. -/
def IsNumeral (text : List Char) : Prop := text ≠ [] ∧ ∀ c ∈ text, c.isDigit

/-- (IsFraction text) says that a text consists of digits before and after a point. -/
def IsFraction (text : List Char) : Prop :=
  ∃ whole part, IsNumeral whole ∧ IsNumeral part ∧ text = whole ++ '.' :: part

theorem IsNumeral.readNat {digits : List Char} (isNumeral : IsNumeral digits)
    : readNat? digits = some (Nat.ofDigitChars 10 digits 0) := by
  obtain ⟨some_, all⟩ := isNumeral
  rw [← readDigitsFrom?_eq all 0]
  cases digits with
  | nil => exact absurd rfl some_
  | cons c rest => rfl

/-- No sign is a digit. -/
theorem IsNumeral.head_ne {digits rest : List Char} {c : Char} (isNumeral : IsNumeral digits)
    (begins : digits = c :: rest)
    : c ≠ '-' ∧ c ≠ '+' := by
  have digit : c.isDigit := isNumeral.2 c (begins ▸ List.mem_cons_self)
  constructor <;> rintro rfl <;> exact absurd digit (by decide)

/-- Digits are read as an integer if their value is in range. -/
theorem IsNumeral.readInt64 {digits : List Char} (isNumeral : IsNumeral digits)
    : readInt64? digits =
        if Nat.ofDigitChars 10 digits 0 ≤ Int64.maxValue.toInt then
          some (Int64.ofInt (Nat.ofDigitChars 10 digits 0))
        else none := by
  have unsigned : readInt64? digits = (readNat? digits).bind fun n => toInt64? n := by
    unfold readInt64?
    split
    · next rest => exact absurd rfl (isNumeral.head_ne rfl).1
    · next rest => exact absurd rfl (isNumeral.head_ne rfl).2
    · rfl
  have least : Int64.minValue.toInt ≤ (Nat.ofDigitChars 10 digits 0 : Int) := by
    have below : Int64.minValue.toInt ≤ 0 := by decide
    omega
  rw [unsigned, isNumeral.readNat, Option.bind_some, toInt64?]
  simp only [least, true_and]

theorem toLower_of_isDigit {c : Char} (digit : c.isDigit) : c.toLower = c := by
  simp only [Char.isDigit, Bool.and_eq_true, decide_eq_true_eq, ge_iff_le,
    UInt32.le_iff_toNat_le] at digit
  have small : ¬ (c.val ≥ 'A'.val ∧ c.val ≤ 'Z'.val) := by
    simp only [ge_iff_le, UInt32.le_iff_toNat_le, not_and, not_le]
    intro upper
    have first : 'A'.val.toNat = 65 := rfl
    have last : '9'.val.toNat = 57 := rfl
    omega
  exact dif_neg small

/-- What begins with a digit is no name of a number, and has no sign. -/
theorem readFloat?_digit {c : Char} (digit : c.isDigit) (rest : List Char)
    : readFloat? (c :: rest) = readUnsigned? false (c :: rest) := by
  have noName (name : String) {d : Char} {chars : List Char} (text : name.toList = d :: chars)
      (letter : d.isDigit = false)
      : (String.ofList ((c :: rest).map Char.toLower) == name) = false := by
    rw [beq_eq_false_iff_ne]
    rintro rfl
    rw [String.toList_ofList, List.map_cons, toLower_of_isDigit digit] at text
    obtain ⟨rfl, -⟩ := List.cons.inj text
    exact nomatch digit.symm.trans letter
  unfold readFloat?
  split
  next negative body signed =>
    split at signed
    · next same =>
        obtain ⟨rfl, -⟩ := List.cons.inj same
        exact absurd digit (by decide)
    · next same =>
        obtain ⟨rfl, -⟩ := List.cons.inj same
        exact absurd digit (by decide)
    · obtain ⟨rfl, rfl⟩ := Prod.mk.inj signed
      dsimp only
      rw [noName "inf" rfl rfl, noName "infinity" rfl rfl, noName "nan" rfl rfl]
      rfl

/-- A number with a fraction can always be read. -/
theorem IsFraction.readFloat {text : List Char} (isFraction : IsFraction text)
    : ∃ value, readFloat? text = some value := by
  obtain ⟨whole, part, isWhole, isPart, rfl⟩ := isFraction
  have digits : IsNumeral (whole ++ part) := by
    refine ⟨by simp [isWhole.1], fun c among => ?_⟩
    rcases List.mem_append.mp among with before | after
    · exact isWhole.2 c before
    · exact isPart.2 c after
  have point : ∀ d ∈ ('.' :: part).head?, d.isDigit = false := by
    rintro d ⟨⟩
    rfl
  have before : (whole ++ '.' :: part).takeWhile Char.isDigit = whole :=
    Lexeme.takeWhile_append_stopped isWhole.2 point
  have after : (whole ++ '.' :: part).dropWhile Char.isDigit = '.' :: part := by
    rw [List.dropWhile_append_of_pos isWhole.2]
    rfl
  have fraction : part.takeWhile Char.isDigit = part := List.takeWhile_eq_self_iff.mpr isPart.2
  have ended : part.dropWhile Char.isDigit = [] := List.dropWhile_eq_nil_iff.mpr isPart.2
  have unsigned : readFloat? (whole ++ '.' :: part) =
      readUnsigned? false (whole ++ '.' :: part) := by
    obtain ⟨c, rest, rfl⟩ := List.exists_cons_of_ne_nil isWhole.1
    exact readFloat?_digit (isWhole.2 c List.mem_cons_self) _
  rw [unsigned, readUnsigned?]
  simp only [before, after, fraction, ended, digits.readNat]
  exact ⟨_, rfl⟩

end Decimal

namespace Token

open Decimal

/-- (SpellsNumber content) says that a token is spelled by digits if it is a number. -/
def SpellsNumber (content : TokenKind × String) : Prop :=
  (content.1 = .integer → IsNumeral content.2.toList)
    ∧ (content.1 = .double → IsFraction content.2.toList)

theorem SpellsNumber.of_other {kind : TokenKind} {text : String}
    (other : kind ≠ .integer ∧ kind ≠ .double)
    : SpellsNumber (kind, text) :=
  ⟨fun same => absurd same other.1, fun same => absurd same other.2⟩

/-- A number is scanned digit by digit, up to its last one. -/
theorem number_spells {c : Char} (digit : c.isDigit) (rest : List Char)
    : ∀ content ∈ (Lexeme.number c rest).content?, SpellsNumber content := by
  rintro content ⟨⟩
  have whole : ∀ d ∈ c :: rest.takeWhile Char.isDigit, d.isDigit := by
    intro d among
    rcases List.mem_cons.mp among with rfl | later
    · exact digit
    · exact List.mem_takeWhile_imp later
  rcases Lexeme.fraction_eq (rest.dropWhile Char.isDigit) with
    ⟨d, digits, after, same, first, more, stops⟩ | ⟨nothing, -⟩
  · rw [same, Lexeme.fraction_append first more stops]
    refine ⟨(fun integer => nomatch integer), fun _ => ?_⟩
    refine ⟨c :: rest.takeWhile Char.isDigit, d :: digits, ⟨by simp, whole⟩, ⟨by simp, ?_⟩, ?_⟩
    · intro e among
      rcases List.mem_cons.mp among with rfl | later
      · exact first
      · exact more e later
    · rw [String.toList_ofList]
  · rw [nothing]
    refine ⟨fun _ => ⟨by simp, ?_⟩, (fun double => nomatch double)⟩
    rw [String.toList_ofList, List.append_nil]
    exact whole

/-- No operator is a number. -/
theorem operator_spells {text : List Char} {found : Lexeme}
    (search : Lexeme.operator? text = some found)
    : ∀ content ∈ found.content?, SpellsNumber content := by
  have table : ∀ kind ∈ TokenKind.operators, kind ≠ .integer ∧ kind ≠ .double := by
    decide
  obtain ⟨kind, among, rfl⟩ := Option.map_eq_some_iff.mp search
  rintro content ⟨⟩
  exact .of_other (table kind (List.mem_of_find?_eq_some among))

/-- What is scanned is spelled by digits if it is a number, by cases on its first character. -/
theorem scan_spells {c : Char} {rest : List Char} {lexeme : Lexeme}
    (scanned : Lexeme.scan c rest = .ok lexeme)
    : ∀ content ∈ lexeme.content?, SpellsNumber content := by
  unfold Lexeme.scan at scanned
  split at scanned
  · obtain rfl := Except.ok.inj scanned
    rintro content ⟨⟩
    have table : ∀ kind ∈ TokenKind.keywords, kind ≠ .integer ∧ kind ≠ .double := by
      decide
    rw [TokenKind.ofWord]
    cases found : TokenKind.keywords.find? _ with
    | none => exact .of_other (by decide)
    | some kind => exact .of_other (table kind (List.mem_of_find?_eq_some found))
  split at scanned
  · next digit =>
      obtain rfl := Except.ok.inj scanned
      exact number_spells digit rest
  split at scanned
  · obtain rfl := Except.ok.inj scanned
    rintro content ⟨⟩
  dsimp only at scanned
  split at scanned
  · split at scanned
    · obtain rfl := Except.ok.inj scanned
      rintro content ⟨⟩
      exact .of_other (by decide)
    · split at scanned
      · next found search =>
          obtain rfl := Except.ok.inj scanned
          exact operator_spells search
      · cases scanned
  · obtain rfl := Except.ok.inj scanned
    rintro content ⟨⟩
  · split at scanned
    · obtain rfl := Except.ok.inj scanned
      rintro content ⟨⟩
    · cases scanned
  · split at scanned
    · next found search =>
        obtain rfl := Except.ok.inj scanned
        exact operator_spells search
    · cases scanned

/-- The numbers among the tokens of a text are spelled by digits. -/
theorem Spells.numbers {text : List Char} {contents : List (TokenKind × String)}
    (spells : Spells text contents)
    : ∀ content ∈ contents, SpellsNumber content := by
  induction spells with
  | nil =>
      intro content among
      rw [List.mem_singleton.mp among]
      exact .of_other (by decide)
  | blank _ _ ih => exact ih
  | piece _ scanned _ ih =>
      intro content among
      rcases List.mem_append.mp among with here | later
      · exact scan_spells scanned content (Option.mem_toList.mp here)
      · exact ih content later

end Token

-----------------------------------------------------------------------------------------
-- What is formed and what is spelled
-----------------------------------------------------------------------------------------

namespace ComponentDecl

open Token Decimal

mutual

/-- Scanned tokens that form a value spell one. -/
theorem IsValue.spells {contents : List (TokenKind × String)} (isValue : IsValue contents)
    (numbers : ∀ content ∈ contents, SpellsNumber content)
    : ∃ value : ValueExpr, value.SpelledBy contents := by
  match isValue with
  | @IsValue.literal kind text simple =>
      have number : kind = .double → IsFraction text.toList :=
        (numbers _ (List.mem_singleton_self _)).2
      simp only [List.mem_cons, List.not_mem_nil, or_false] at simple
      rcases simple with rfl | rfl | rfl | rfl
      · exact ⟨.bool true Span.unknown, .bool⟩
      · exact ⟨.bool false Span.unknown, .bool⟩
      · exact ⟨.string text Span.unknown, .string⟩
      · obtain ⟨value, read⟩ := (number rfl).readFloat
        exact ⟨.double value Span.unknown, .double read⟩
  | @IsValue.integer text fits =>
      have isNumeral : IsNumeral text.toList := (numbers _ (List.mem_singleton_self _)).1 rfl
      refine ⟨.int (Int64.ofInt (Nat.ofDigitChars 10 text.toList 0)) Span.unknown, .int ?_⟩
      rw [isNumeral.readInt64, if_pos fits]
  | .nothing => exact ⟨.list [] Span.unknown, .nothing⟩
  | .list isFirst areMore =>
      obtain ⟨value, spelled⟩ :=
        isFirst.spells fun content among => numbers content (by simp [among])
      obtain ⟨values, more⟩ := areMore.spells fun content among => numbers content (by simp [among])
      exact ⟨.list (value :: values) Span.unknown, .list spelled more⟩

theorem AreMoreValues.spells {contents : List (TokenKind × String)}
    (areMore : AreMoreValues contents) (numbers : ∀ content ∈ contents, SpellsNumber content)
    : ∃ values : List ValueExpr, ValueExpr.MoreSpelledBy values contents := by
  match areMore with
  | .done => exact ⟨[], .done⟩
  | .comma => exact ⟨[], .comma⟩
  | .value isNext areMore =>
      obtain ⟨value, spelled⟩ :=
        isNext.spells fun content among => numbers content (by simp [among])
      obtain ⟨values, more⟩ := areMore.spells fun content among => numbers content (by simp [among])
      exact ⟨value :: values, .value spelled more⟩

end

theorem AreProperties.spells {contents : List (TokenKind × String)}
    (areProperties : AreProperties contents) (numbers : ∀ content ∈ contents, SpellsNumber content)
    : ∃ decls, PropertyDecl.AllSpelledBy decls contents := by
  induction areProperties with
  | done => exact ⟨[], .done⟩
  | property assigns isValue _ ih =>
      next name _ _ _ _ _ _ =>
      obtain ⟨value, spelled⟩ :=
        isValue.spells fun content among => numbers content (by simp [among])
      obtain ⟨decls, later⟩ := ih fun content among => numbers content (by simp [among])
      let word : Token := ⟨.identifier, name, Span.unknown⟩
      exact ⟨⟨word, value, Span.unknown⟩ :: decls, .property rfl assigns spelled later⟩

/-- Scanned tokens that form a component spell one. -/
theorem IsComponent.spells {contents : List (TokenKind × String)}
    (isComponent : IsComponent contents) (numbers : ∀ content ∈ contents, SpellsNumber content)
    : ∃ decl : ComponentDecl, decl.SpelledBy contents := by
  obtain ⟨areProperties⟩ := isComponent
  next name _ _ _ _ =>
  obtain ⟨decls, spelled⟩ :=
    areProperties.spells fun content among => numbers content (by simp [among])
  let word : Token := ⟨.identifier, name, Span.unknown⟩
  exact ⟨⟨word, decls, Span.unknown⟩, .mk rfl spelled⟩

end ComponentDecl

open Token Decimal ComponentDecl

mutual

/-- Scanned tokens that spell a value form one. -/
theorem ValueExpr.SpelledBy.isValue {value : ValueExpr} {contents : List (TokenKind × String)}
    (spelled : value.SpelledBy contents) (numbers : ∀ content ∈ contents, SpellsNumber content)
    : IsValue contents := by
  match spelled with
  | @ValueExpr.SpelledBy.bool value _ _ =>
      refine .literal ?_
      cases value <;> simp
  | @ValueExpr.SpelledBy.int _ text _ number =>
      have isNumeral : IsNumeral text.toList := (numbers _ (List.mem_singleton_self _)).1 rfl
      rw [isNumeral.readInt64] at number
      split at number
      · next fits => exact .integer fits
      · cases number
  | .double _ => exact .literal (by simp)
  | .string => exact .literal (by simp)
  | .nothing => exact .nothing
  | .list spelled more =>
      have isFirst := spelled.isValue fun content among => numbers content (by simp [among])
      have areMore := more.areMoreValues fun content among => numbers content (by simp [among])
      exact .list isFirst areMore

theorem ValueExpr.MoreSpelledBy.areMoreValues {values : List ValueExpr}
    {contents : List (TokenKind × String)} (more : ValueExpr.MoreSpelledBy values contents)
    (numbers : ∀ content ∈ contents, SpellsNumber content)
    : AreMoreValues contents := by
  match more with
  | .done => exact .done
  | .comma => exact .comma
  | .value spelled more =>
      have isNext := spelled.isValue fun content among => numbers content (by simp [among])
      have areMore := more.areMoreValues fun content among => numbers content (by simp [among])
      exact .value isNext areMore

end

theorem PropertyDecl.AllSpelledBy.areProperties {decls : List PropertyDecl}
    {contents : List (TokenKind × String)} (spelled : PropertyDecl.AllSpelledBy decls contents)
    (numbers : ∀ content ∈ contents, SpellsNumber content)
    : AreProperties contents := by
  induction spelled with
  | done => exact .done
  | property word assigns spelled _ ih =>
      have isValue := spelled.isValue fun content among => numbers content (by simp [among])
      have later := ih fun content among => numbers content (by simp [among])
      rw [Token.content, word]
      exact .property assigns isValue later

/-- Scanned tokens that spell a component form one. -/
theorem ComponentDecl.SpelledBy.isComponent {decl : ComponentDecl}
    {contents : List (TokenKind × String)} (spelled : decl.SpelledBy contents)
    (numbers : ∀ content ∈ contents, SpellsNumber content)
    : IsComponent contents := by
  obtain ⟨word, spelled⟩ := spelled
  have areProperties := spelled.areProperties fun content among => numbers content (by simp [among])
  rw [Token.content, word]
  exact .mk areProperties

end BuildScript
