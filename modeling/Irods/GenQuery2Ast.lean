import Irods.CText

/-! The GenQuery2 syntax tree of genquery2_ast_types.hpp and the string literals in it.
A literal is an operand, which is bound, or a string argument of a function, which is
written into the SQL. Integer arguments are strings in the tree. -/
namespace Irods.GenQuery2Ast
open CText

structure Column where
  name : Text
  typeName : Text
  deriving DecidableEq, Repr

inductive Argument where
  | literal (v : Text)
  | column (c : Column)
  | function (name : Text) (arguments : List Argument) (distinct : Bool)
  deriving Repr

structure Function where
  name : Text
  arguments : List Argument
  distinct : Bool
  deriving Repr

inductive Projection where
  | function (f : Function)
  | column (c : Column)
  deriving Repr

inductive ConditionExpression where
  | like (v : Text)
  | inList (vs : List Text)
  | between (low high : Text)
  | equal (v : Text)
  | notEqual (v : Text)
  | lessThan (v : Text)
  | lessThanOrEqualTo (v : Text)
  | greaterThan (v : Text)
  | greaterThanOrEqualTo (v : Text)
  | isNull
  | isNotNull
  | operatorNot (e : ConditionExpression)
  deriving DecidableEq, Repr

structure Condition where
  lhs : Projection
  expression : ConditionExpression
  deriving Repr

inductive ConditionWrapper where
  | logicalAnd (cs : List ConditionWrapper)
  | logicalOr (cs : List ConditionWrapper)
  | logicalNot (cs : List ConditionWrapper)
  | logicalGrouping (cs : List ConditionWrapper)
  | condition (c : Condition)
  deriving Repr

structure SortExpression where
  expr : Projection
  ascendingOrder : Bool
  deriving Repr

structure Range where
  offset : Text
  numberOfRows : Text
  deriving DecidableEq, Repr

structure Select where
  projections : List Projection
  conditions : List ConditionWrapper
  groupBy : List Projection
  orderBy : List SortExpression
  range : Range
  distinct : Bool
  deriving Repr

mutual
def Argument.mask : Argument → Argument
  | .literal _ => .literal []
  | .column c => .column c
  | .function name args distinct => .function name (maskArguments args) distinct

def maskArguments : List Argument → List Argument
  | [] => []
  | a::as => a.mask::maskArguments as
end

def Function.mask (f : Function) : Function := { f with arguments := maskArguments f.arguments }

def Projection.mask : Projection → Projection
  | .function f => .function f.mask
  | .column c => .column c

def ConditionExpression.mask : ConditionExpression → ConditionExpression
  | .like _ => .like []
  | .inList vs => .inList (vs.map (fun _ => []))
  | .between _ _ => .between [] []
  | .equal _ => .equal []
  | .notEqual _ => .notEqual []
  | .lessThan _ => .lessThan []
  | .lessThanOrEqualTo _ => .lessThanOrEqualTo []
  | .greaterThan _ => .greaterThan []
  | .greaterThanOrEqualTo _ => .greaterThanOrEqualTo []
  | .isNull => .isNull
  | .isNotNull => .isNotNull
  | .operatorNot e => .operatorNot e.mask

def Condition.mask (c : Condition) : Condition := ⟨c.lhs.mask,c.expression.mask⟩

mutual
def ConditionWrapper.mask : ConditionWrapper → ConditionWrapper
  | .logicalAnd cs => .logicalAnd (maskConditions cs)
  | .logicalOr cs => .logicalOr (maskConditions cs)
  | .logicalNot cs => .logicalNot (maskConditions cs)
  | .logicalGrouping cs => .logicalGrouping (maskConditions cs)
  | .condition c => .condition c.mask

def maskConditions : List ConditionWrapper → List ConditionWrapper
  | [] => []
  | c::cs => c.mask::maskConditions cs
end

/- Equal for two statements that differ in the contents of literals only. -/
def Select.mask (s : Select) : Select where
  projections := s.projections.map Projection.mask
  conditions := maskConditions s.conditions
  groupBy := s.groupBy.map Projection.mask
  orderBy := s.orderBy.map (fun e => { e with expr := e.expr.mask })
  range := s.range
  distinct := s.distinct

mutual
def Argument.literals : Argument → List Text
  | .literal v => [v]
  | .column _ => []
  | .function _ args _ => argumentLiterals args

def argumentLiterals : List Argument → List Text
  | [] => []
  | a::as => a.literals ++ argumentLiterals as
end

def Projection.literals : Projection → List Text
  | .function f => argumentLiterals f.arguments
  | .column _ => []

mutual
def ConditionWrapper.literals : ConditionWrapper → List Text
  | .logicalAnd cs => conditionLiterals cs
  | .logicalOr cs => conditionLiterals cs
  | .logicalNot cs => conditionLiterals cs
  | .logicalGrouping cs => conditionLiterals cs
  | .condition c => c.lhs.literals

def conditionLiterals : List ConditionWrapper → List Text
  | [] => []
  | c::cs => c.literals ++ conditionLiterals cs
end

def Select.inlinedBefore (s : Select) : List Text :=
  s.projections.flatMap Projection.literals ++ conditionLiterals s.conditions

def Select.inlinedAfter (s : Select) : List Text :=
  s.groupBy.flatMap Projection.literals ++ s.orderBy.flatMap (fun e => e.expr.literals)

def ConditionExpression.operands : ConditionExpression → List Text
  | .like v => [v]
  | .inList vs => vs
  | .between low high => [low,high]
  | .equal v => [v]
  | .notEqual v => [v]
  | .lessThan v => [v]
  | .lessThanOrEqualTo v => [v]
  | .greaterThan v => [v]
  | .greaterThanOrEqualTo v => [v]
  | .isNull => []
  | .isNotNull => []
  | .operatorNot e => e.operands

mutual
def ConditionWrapper.operands : ConditionWrapper → List Text
  | .logicalAnd cs => conditionOperands cs
  | .logicalOr cs => conditionOperands cs
  | .logicalNot cs => conditionOperands cs
  | .logicalGrouping cs => conditionOperands cs
  | .condition c => c.expression.operands

def conditionOperands : List ConditionWrapper → List Text
  | [] => []
  | c::cs => c.operands ++ conditionOperands cs
end

/- The names of a tree: [a-zA-Z][a-zA-Z0-9_]*, a cast type with an optional length, digits in a range. -/
def isWordChar (c : Char) : Bool := c.isAlphanum || c == '_'

def isIdentifier : Text → Bool
  | [] => false
  | c::cs => c.isAlpha && cs.all isWordChar

def isDigits (t : Text) : Bool := !t.isEmpty && t.all Char.isDigit

def isTypeName (t : Text) : Bool :=
  isIdentifier t || isIdentifier (t.takeWhile isWordChar) &&
    match t.dropWhile isWordChar with
    | '('::rest => rest.getLast? == some ')' && isDigits rest.dropLast
    | _ => false

def Column.parsed (c : Column) : Bool := isIdentifier c.name && (c.typeName.isEmpty || isTypeName c.typeName)

mutual
def Argument.parsed : Argument → Bool
  | .literal _ => true
  | .column c => c.parsed
  | .function name args _ => isIdentifier name && argumentsParsed args

def argumentsParsed : List Argument → Bool
  | [] => true
  | a::as => a.parsed && argumentsParsed as
end

def Projection.parsed : Projection → Bool
  | .function f => isIdentifier f.name && argumentsParsed f.arguments
  | .column c => c.parsed

mutual
def ConditionWrapper.parsed : ConditionWrapper → Bool
  | .logicalAnd cs => conditionsParsed cs
  | .logicalOr cs => conditionsParsed cs
  | .logicalNot cs => conditionsParsed cs
  | .logicalGrouping cs => conditionsParsed cs
  | .condition c => c.lhs.parsed

def conditionsParsed : List ConditionWrapper → Bool
  | [] => true
  | c::cs => c.parsed && conditionsParsed cs
end

def Select.parsed (s : Select) : Bool :=
  s.projections.all Projection.parsed && conditionsParsed s.conditions && s.groupBy.all Projection.parsed &&
  s.orderBy.all (fun e => e.expr.parsed) && (s.range.offset.isEmpty || isDigits s.range.offset) &&
  (s.range.numberOfRows.isEmpty || isDigits s.range.numberOfRows)

end Irods.GenQuery2Ast
