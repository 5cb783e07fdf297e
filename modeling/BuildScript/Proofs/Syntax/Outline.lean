import BuildScript.Syntax.Stmt
import Mathlib.Data.List.Basic

/-! The outline of a piece of syntax: its nodes with their spans, the tokens that they name things
by, and their parts in the order in which they were written. An outline is placed if every node has
its names and its parts inside its span, the parts one after the other.
-/

namespace BuildScript

/-- A node, the tokens that it names something by, and its parts. -/
inductive Outline where
  | node (span : Span) (names : List Token) (parts : List Outline)

-----------------------------------------------------------------------------------------
-- Outlines of syntax
-----------------------------------------------------------------------------------------

mutual

/-- (outline type) is the outline of a type. -/
def TypeExpr.outline : TypeExpr → Outline
  | ⟨names, generics, _, span⟩ => .node span names (TypeExpr.outlines generics)

/-- (outlines types) are the outlines of several types. -/
def TypeExpr.outlines : List TypeExpr → List Outline
  | [] => []
  | first :: rest => first.outline :: TypeExpr.outlines rest

end

mutual

/-- (outline expr) is the outline of an expression. -/
def Expr.outline : Expr → Outline
  | .bool _ span | .int _ span | .double _ span | .string _ span => .node span [] []
  | .id names span => .node span names []
  | .binary operator lhs rhs span => .node span [operator] [lhs.outline, rhs.outline]
  | .unary operator operand span => .node span [operator] [operand.outline]
  | .ternary condition whenTrue whenFalse span =>
    .node span [] [condition.outline, whenTrue.outline, whenFalse.outline]
  | .member object name span => .node span [name] [object.outline]
  | .call callee arguments span => .node span [] (callee.outline :: Expr.outlines arguments)
  | .memberCall object name arguments span =>
    .node span [name] (object.outline :: Expr.outlines arguments)
  | .list values span => .node span [] (Expr.outlines values)
  | .designated fields span => .node span (fields.map FieldInit.name) (FieldInit.outlines fields)

/-- (outlines exprs) are the outlines of several expressions. -/
def Expr.outlines : List Expr → List Outline
  | [] => []
  | first :: rest => first.outline :: Expr.outlines rest

/-- (outlines fields) are the outlines of the values of several members. -/
def FieldInit.outlines : List FieldInit → List Outline
  | [] => []
  | .mk _ value :: rest => value.outline :: FieldInit.outlines rest

end

/-- (outline decl) is the outline of the declaration of a variable. -/
def VariableDecl.outline (decl : VariableDecl) : Outline :=
  .node decl.span [decl.name] (decl.type.outline :: (decl.initial?.map Expr.outline).toList)

/-- (resultOutline type name) is the outline of the type of a result. The type that a constructor is
declared without stands where the name of the constructor does, and has no name of its own there.
-/
def FunctionDecl.resultOutline (type : TypeExpr) (name : Token) : Outline :=
  if type.span = name.span then .node type.span [] [] else type.outline

mutual

/-- (outline statement) is the outline of a statement. -/
def Stmt.outline : Stmt → Outline
  | .expression value span => .node span [] [value.outline]
  | .varDecl decl => decl.outline
  | .block body => body.outline
  | .conditional branches otherwise? span =>
    .node span [] (Branch.outlines branches ++ Block.outline? otherwise?)
  | .whileLoop condition body span => .node span [] [condition.outline, body.outline]
  | .forLoop initial? condition? iteration? body span =>
    .node span [] (Stmt.outline? initial? ++ (condition?.map Expr.outline).toList
      ++ (iteration?.map Expr.outline).toList ++ [body.outline])
  | .breakLoop span => .node span [] []
  | .returnValue value? span => .node span [] (value?.map Expr.outline).toList
  | .function decl => decl.outline
  | .classDecl decl => decl.outline
  | .enumDecl decl => .node decl.span (decl.name :: decl.enumerators) []
  | .namespaceDecl names body span => .node span names (Stmt.outlines body)
  | .importModule path span => .node span [path] []

/-- (outline? statement?) is the outline of a statement that may be missing. -/
def Stmt.outline? : Option Stmt → List Outline
  | none => []
  | some statement => [statement.outline]

/-- (outlines statements) are the outlines of several statements. -/
def Stmt.outlines : List Stmt → List Outline
  | [] => []
  | first :: rest => first.outline :: Stmt.outlines rest

/-- (outline block) is the outline of a block. -/
def Block.outline : Block → Outline
  | .mk body span => .node span [] (Stmt.outlines body)

/-- (outline? block?) is the outline of a block that may be missing. -/
def Block.outline? : Option Block → List Outline
  | none => []
  | some block => [block.outline]

/-- (outlines branches) are the outlines of conditions and of what they guard. -/
def Branch.outlines : List Branch → List Outline
  | [] => []
  | .mk condition body :: rest => condition.outline :: body.outline :: Branch.outlines rest

/-- (outline decl) is the outline of the declaration of a function. -/
def FunctionDecl.outline : FunctionDecl → Outline
  | .mk returnType name params body _ span =>
    .node span (name :: params.map ParamDecl.name)
      (FunctionDecl.resultOutline returnType name :: (params.map fun param => param.type.outline)
        ++ [body.outline])

/-- (outline decl) is the outline of the declaration of a class. -/
def ClassDecl.outline : ClassDecl → Outline
  | .mk name base? members _ span =>
    .node span [name] ((base?.map TypeExpr.outline).toList ++ ClassMember.outlines members)

/-- (outlines members) are the outlines of the members of a class. -/
def ClassMember.outlines : List ClassMember → List Outline
  | [] => []
  | .varDecl decl :: rest => decl.outline :: ClassMember.outlines rest
  | .function decl :: rest => decl.outline :: ClassMember.outlines rest

end

/-- (outline member) is the outline of a member of a class. -/
def ClassMember.outline : ClassMember → Outline
  | .varDecl decl => decl.outline
  | .function decl => decl.outline

/-- (outline script) is the outline of a script. -/
def ScriptUnit.outline (script : ScriptUnit) : Outline :=
  .node script.span [] (script.body.map Stmt.outline)

theorem TypeExpr.outlines_eq_map (types : List TypeExpr)
    : outlines types = types.map outline := by
  induction types with
  | nil => rfl
  | cons first rest ih => rw [outlines, ih, List.map_cons]

theorem Expr.outlines_eq_map (exprs : List Expr) : outlines exprs = exprs.map outline := by
  induction exprs with
  | nil => rfl
  | cons first rest ih => rw [outlines, ih, List.map_cons]

theorem FieldInit.outlines_eq_map (fields : List FieldInit)
    : outlines fields = fields.map fun field => field.value.outline := by
  induction fields with
  | nil => rfl
  | cons first rest ih =>
      obtain ⟨name, value⟩ := first
      rw [outlines, ih, List.map_cons, FieldInit.value]

theorem Stmt.outlines_eq_map (statements : List Stmt)
    : outlines statements = statements.map outline := by
  induction statements with
  | nil => rfl
  | cons first rest ih => rw [outlines, ih, List.map_cons]

theorem Stmt.outline?_eq_map (statement? : Option Stmt)
    : outline? statement? = (statement?.map outline).toList := by
  cases statement? <;> rfl

theorem ClassMember.outlines_eq_map (members : List ClassMember)
    : outlines members = members.map outline := by
  induction members with
  | nil => rfl
  | cons first rest ih => cases first <;> rw [outlines, ih, List.map_cons, outline]

-----------------------------------------------------------------------------------------
-- Nodes
-----------------------------------------------------------------------------------------

namespace Outline

/-- The text that a node was read from. -/
def span : Outline → Span
  | node span _ _ => span

/-- The tokens that a node names something by. -/
def names : Outline → List Token
  | node _ names _ => names

/-- The parts of a node in the order in which they were written. -/
def parts : Outline → List Outline
  | node _ _ parts => parts

theorem span_type (type : TypeExpr) : type.outline.span = type.span := by
  cases type
  rfl

theorem span_expr (expr : Expr) : expr.outline.span = expr.span := by
  cases expr <;> rfl

mutual

/-- (nodes outline) are a node and all nodes below. -/
def nodes : Outline → List Outline
  | node span names parts => node span names parts :: allNodes parts

/-- (allNodes outlines) are several nodes and all nodes below. -/
def allNodes : List Outline → List Outline
  | [] => []
  | first :: rest => first.nodes ++ allNodes rest

end

/-- (WellPlaced file size node) says that a node has a span in a text of the given size, with its
names and its parts inside, the parts in increasing order and apart from each other.
-/
structure WellPlaced (file : String) (size : Nat) (node : Outline) : Prop where
  text : node.span.file = file
  ordered : node.span.start ≤ node.span.stop
  inside : node.span.stop ≤ size
  parts : ∀ part ∈ node.parts,
    node.span.start ≤ part.span.start ∧ part.span.stop ≤ node.span.stop
  apart : node.parts.Pairwise fun first second => first.span.stop ≤ second.span.start
  names : ∀ name ∈ node.names,
    name.span.file = file ∧ node.span.start ≤ name.span.start ∧ name.span.stop ≤ node.span.stop

mutual

/-- (Placed file outline) says that a node is placed in its span, and so are all nodes below. -/
def Placed (file : String) : Outline → Prop
  | node span names parts =>
    span.file = file ∧ span.start ≤ span.stop
      ∧ (∀ name ∈ names, name.span.file = file ∧ span.start ≤ name.span.start
        ∧ name.span.stop ≤ span.stop)
      ∧ Row file span.start span.stop parts

/-- (Row file lower upper outlines) says that nodes are placed one after the other between two
places.
-/
def Row (file : String) : Nat → Nat → List Outline → Prop
  | _, _, [] => True
  | lower, upper, first :: rest =>
    (first.Placed file ∧ lower ≤ first.span.start ∧ first.span.stop ≤ upper)
      ∧ Row file first.span.stop upper rest

end

variable {file : String}

/-- (Within file lower upper outline) says that a node is placed between two places. -/
structure Within (file : String) (lower upper : Nat) (outline : Outline) : Prop where
  placed : outline.Placed file
  after : lower ≤ outline.span.start
  before : outline.span.stop ≤ upper

/-- (Fills file lower upper names parts) says that between two places there are some names, and some
nodes one after the other.
-/
structure Fills (file : String) (lower upper : Nat) (names : List Token) (parts : List Outline)
    : Prop where
  ordered : lower ≤ upper
  names : ∀ name ∈ names,
    name.span.file = file ∧ lower ≤ name.span.start ∧ name.span.stop ≤ upper
  parts : Row file lower upper parts

theorem Placed.text {outline : Outline} (placed : outline.Placed file)
    : outline.span.file = file := by
  obtain ⟨span, names, parts⟩ := outline
  exact placed.1

theorem Placed.ordered {outline : Outline} (placed : outline.Placed file)
    : outline.span.start ≤ outline.span.stop := by
  obtain ⟨span, names, parts⟩ := outline
  exact placed.2.1

theorem Placed.fills {outline : Outline} (placed : outline.Placed file)
    : Fills file outline.span.start outline.span.stop outline.names outline.parts := by
  obtain ⟨span, names, parts⟩ := outline
  exact ⟨placed.2.1, placed.2.2.1, placed.2.2.2⟩

/-- A node is placed by what its span is filled with. -/
theorem Fills.within {lower upper : Nat} {span : Span} {names : List Token} {parts : List Outline}
    (fills : Fills file span.start span.stop names parts) (text : span.file = file)
    (after : lower ≤ span.start) (before : span.stop ≤ upper)
    : (node span names parts).Within file lower upper :=
  ⟨⟨text, fills.ordered, fills.names, fills.parts⟩, after, before⟩

theorem Within.mono {lower upper lower' upper' : Nat} {outline : Outline}
    (within : outline.Within file lower upper) (below : lower' ≤ lower) (above : upper ≤ upper')
    : outline.Within file lower' upper' :=
  ⟨within.placed, Nat.le_trans below within.after, Nat.le_trans within.before above⟩

/-- A node that is placed between two places has its span there. -/
theorem Within.known {lower upper : Nat} {outline : Outline} {span : Span}
    (within : outline.Within file lower upper) (own : outline.span = span)
    : span.file = file ∧ lower ≤ span.start ∧ span.stop ≤ upper := by
  subst own
  exact ⟨within.placed.text, within.after, within.before⟩

-----------------------------------------------------------------------------------------
-- Rows
-----------------------------------------------------------------------------------------

section

variable {lower middle upper : Nat} {parts later : List Outline}

theorem row_cons {first : Outline}
    : Row file lower upper (first :: parts) ↔
        first.Within file lower upper ∧ Row file first.span.stop upper parts :=
  ⟨fun row => ⟨⟨row.1.1, row.1.2.1, row.1.2.2⟩, row.2⟩,
    fun row => ⟨⟨row.1.placed, row.1.after, row.1.before⟩, row.2⟩⟩

theorem Row.mono {lower' upper' : Nat} (row : Row file lower upper parts) (below : lower' ≤ lower)
    (above : upper ≤ upper')
    : Row file lower' upper' parts := by
  induction parts generalizing lower lower' with
  | nil => trivial
  | cons first rest ih =>
      obtain ⟨within, row⟩ := row_cons.mp row
      exact row_cons.mpr ⟨within.mono below above, ih row (Nat.le_refl _)⟩

/-- A row goes on with another one from where it ends. -/
theorem Row.append (row : Row file lower middle parts) (more : Row file middle upper later)
    (below : lower ≤ middle) (above : middle ≤ upper)
    : Row file lower upper (parts ++ later) := by
  induction parts generalizing lower with
  | nil => exact more.mono below (Nat.le_refl upper)
  | cons first rest ih =>
      obtain ⟨within, row⟩ := row_cons.mp row
      exact row_cons.mpr ⟨within.mono (Nat.le_refl lower) above, ih row within.before⟩

/-- All nodes of a row are inside, and later ones come after earlier ones. -/
theorem Row.spec (row : Row file lower upper parts)
    : (∀ part ∈ parts, part.Within file lower upper) ∧
        parts.Pairwise fun first second => first.span.stop ≤ second.span.start := by
  induction parts generalizing lower with
  | nil => exact ⟨by simp, .nil⟩
  | cons first rest ih =>
      obtain ⟨within, row⟩ := row_cons.mp row
      obtain ⟨all, apart⟩ := ih row
      have behind : lower ≤ first.span.stop := Nat.le_trans within.after within.placed.ordered
      refine ⟨fun part among => ?_, .cons (fun part among => (all part among).after) apart⟩
      rcases List.mem_cons.mp among with rfl | later
      · exact within
      · exact (all part later).mono behind (Nat.le_refl upper)

end

-----------------------------------------------------------------------------------------
-- What spans are filled with
-----------------------------------------------------------------------------------------

namespace Fills

variable {lower middle upper : Nat} {names more : List Token} {parts later : List Outline}

theorem nil (ordered : lower ≤ upper) : Fills file lower upper [] [] := ⟨ordered, by simp, trivial⟩

theorem mono {lower' upper' : Nat} (fills : Fills file lower upper names parts)
    (below : lower' ≤ lower) (above : upper ≤ upper')
    : Fills file lower' upper' names parts := by
  refine ⟨Nat.le_trans below (Nat.le_trans fills.ordered above), fun name among => ?_,
    fills.parts.mono below above⟩
  obtain ⟨text, after, before⟩ := fills.names name among
  exact ⟨text, Nat.le_trans below after, Nat.le_trans before above⟩

/-- What comes later fills the rest. -/
theorem append (fills : Fills file lower middle names parts)
    (rest : Fills file middle upper more later)
    : Fills file lower upper (names ++ more) (parts ++ later) := by
  refine ⟨Nat.le_trans fills.ordered rest.ordered, fun name among => ?_,
    fills.parts.append rest.parts fills.ordered rest.ordered⟩
  rcases List.mem_append.mp among with here | there
  · exact (fills.mono (Nat.le_refl lower) rest.ordered).names name here
  · exact (rest.mono fills.ordered (Nat.le_refl upper)).names name there

theorem part {outline : Outline} (within : outline.Within file lower upper)
    : Fills file lower upper [] [outline] :=
  ⟨Nat.le_trans within.after (Nat.le_trans within.placed.ordered within.before), by simp,
    row_cons.mpr ⟨within, trivial⟩⟩

/-- A node fills what it is read from, beginning with its own span. -/
theorem opening {outline : Outline} {span : Span} (within : outline.Within file lower upper)
    (own : outline.span = span)
    : Fills file span.start upper [] [outline] := by
  subst own
  exact part ⟨within.placed, Nat.le_refl _, within.before⟩

/-- A node fills what it is read from, ending with its own span. -/
theorem closing {outline : Outline} {span : Span} (within : outline.Within file lower upper)
    (own : outline.span = span)
    : Fills file lower span.stop [] [outline] := by
  subst own
  exact part ⟨within.placed, within.after, Nat.le_refl _⟩

theorem andParts (fills : Fills file lower middle names parts)
    (rest : Fills file middle upper [] later)
    : Fills file lower upper names (parts ++ later) := by
  have both := fills.append rest
  rwa [List.append_nil] at both

/-- Parts one after the other are their outlines. -/
theorem ofParts {α : Type} {outline : α → Outline} {values : List α}
    (fills : Fills file lower upper (values.flatMap fun _ => [])
      (values.flatMap fun value => [outline value]))
    : Fills file lower upper [] (values.map outline) := by
  rwa [← List.map_eq_flatMap, List.flatMap_eq_nil_iff.mpr fun _ _ => rfl] at fills

end Fills

mutual

theorem Placed.nodes {outline : Outline} {size : Nat} (placed : outline.Placed file)
    (inside : outline.span.stop ≤ size)
    : ∀ node ∈ outline.nodes, node.WellPlaced file size := by
  match outline with
  | .node span names parts =>
      intro node among
      rw [Outline.nodes] at among
      have row : Row file span.start span.stop parts := placed.2.2.2
      rcases List.mem_cons.mp among with rfl | below
      · exact {
          text := placed.text
          ordered := placed.ordered
          inside
          parts := fun part among => ⟨(row.spec.1 part among).after, (row.spec.1 part among).before⟩
          apart := row.spec.2
          names := placed.2.2.1
        }
      · exact row.nodes inside node below

theorem Row.nodes {lower upper size : Nat} {parts : List Outline} (row : Row file lower upper parts)
    (inside : upper ≤ size)
    : ∀ node ∈ allNodes parts, node.WellPlaced file size := by
  match parts with
  | [] => exact fun node among => nomatch among
  | first :: rest =>
      obtain ⟨within, row⟩ := row_cons.mp row
      intro node among
      rcases List.mem_append.mp among with here | later
      · exact within.placed.nodes (Nat.le_trans within.before inside) node here
      · exact row.nodes inside node later

end

end Outline

end BuildScript
