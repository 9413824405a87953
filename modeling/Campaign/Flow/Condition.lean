import Campaign.Schema.Document
import Campaign.Schema.Scalar
import Campaign.Value.Path
/-!
# Conditions

A condition joins clauses by `AND` or `OR`.  A clause compares the value at a path of the context
with an operand: numbers compare by their exact values, texts by their characters, and nothing
else compares at all.

Clauses are examined in order and only as far as needed, so a faulty path counts only where it is
reached.
-/
namespace Campaign

/-- How a clause compares. -/
inductive Operator where
  | equals
  | contains
  | greater
  | less
  deriving DecidableEq

namespace Operator

/-- The name of an operator. -/
def name : Operator → String
  | equals => "equals"
  | contains => "contains"
  | greater => "greater_than"
  | less => "less_than"

/-- All operators, by name. -/
def names : List (String × Operator) :=
  [equals, contains, greater, less].map fun op => (op.name, op)

end Operator

/-- What a clause compares with. -/
inductive Operand where
  | text (s : String)
  | number (n : Number)
  deriving DecidableEq

namespace Operand

/-- Reads an operand: a text that is not blank, or a number. -/
def read : Schema.Reader Operand
  | .text s =>
    if Text.blankText s then .fail (.rule "right operand must not be empty") (.text s)
    else .valid (.text s)
  | .int i => .valid (.number (.int i))
  | .float x => .valid (.number (.float x))
  | v => .invalid [⟨[.key "str"], .notText, v⟩, ⟨[.key "int"], .notInteger, v⟩,
      ⟨[.key "float"], .notNumber, v⟩]

/-- The operand as a value. -/
def wire : Operand → Value
  | text s => .text s
  | number (.int i) => .int i
  | number (.float x) => .float x

end Operand

/-- Whether `part` stands somewhere in `whole`. -/
def occursIn (part : List Char) : List Char → Bool
  | [] => part.isEmpty
  | c :: cs => part.isPrefixOf (c :: cs) || occursIn part cs

/-- The comparison of a value with an operand. -/
def Operator.holds (op : Operator) (left : Value) (right : Operand) : Bool :=
  match op, left, right with
  | .equals, .text s, .text t => s == t
  | .contains, .text s, .text t => occursIn t.toList s.toList
  | .equals, v, .number n => (v.number?.map (·.equals n)).getD false
  | .greater, v, .number n => (v.number?.map (·.greater n)).getD false
  | .less, v, .number n => (v.number?.map (·.less n)).getD false
  | _, _, _ => false

/-- A comparison with the value at a path. -/
structure Clause where
  left : String
  op : Operator
  right : Operand
  deriving DecidableEq

namespace Clause

/-- Reads a clause. -/
def read : Schema.Reader Clause :=
  Schema.record .document "ConditionClause" fun r =>
    Clause.mk <$> r.required (.plain "left") Schema.someText
      <*> r.required (.plain "op") (Schema.oneOf Operator.names)
      <*> r.required (.plain "right") Operand.read

/-- The clause as a document. -/
def wire (c : Clause) : Value :=
  .object [("left", .text c.left), ("op", .text c.op.name), ("right", c.right.wire)]

/-- Whether a clause holds in a context; where the path leads nowhere it does not. -/
def eval (c : Clause) (context : Value) : Except PathFault Bool :=
  match context.resolve c.left with
  | .ok (some v) => .ok (c.op.holds v c.right)
  | .ok none => .ok false
  | .error fault => .error fault

end Clause

/-- How clauses are joined. -/
inductive Junction where
  | all
  | any
  deriving DecidableEq

namespace Junction

/-- The name of a junction. -/
def name : Junction → String
  | all => "AND"
  | any => "OR"

/-- Both junctions, by name. -/
def names : List (String × Junction) := [all, any].map fun j => (j.name, j)

/-- The result of a clause that settles the whole. -/
def settling : Junction → Bool
  | all => false
  | any => true

end Junction

/-- A condition: clauses and how they are joined. -/
structure Condition where
  junction : Junction
  clauses : List Clause
  deriving DecidableEq

namespace Condition

/-- Reads a condition; it has at least one clause. -/
def read : Schema.Reader Condition :=
  Schema.record .document "ConditionLogic" fun r =>
    Condition.mk <$> r.required (.plain "type") (Schema.oneOf Junction.names)
      <*> r.required (.plain "clauses") (Schema.someListOf Clause.read)

/-- The condition as a document. -/
def wire (c : Condition) : Value :=
  .object [("type", .text c.junction.name), ("clauses", .list (c.clauses.map Clause.wire))]

/-- Examines clauses in order up to the first that settles the whole. -/
def evalClauses (junction : Junction) (context : Value) : List Clause → Except PathFault Bool
  | [] => .ok !junction.settling
  | c :: cs =>
    match c.eval context with
    | .error fault => .error fault
    | .ok result =>
      if result = junction.settling then .ok result else evalClauses junction context cs

/-- Whether a condition holds in a context. -/
def eval (c : Condition) (context : Value) : Except PathFault Bool :=
  evalClauses c.junction context c.clauses

end Condition

end Campaign
