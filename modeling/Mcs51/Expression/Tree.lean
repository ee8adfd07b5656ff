import Mcs51.Expression.Lexeme

/-!
# Trees of expressions

What an expression is made of. A program is a row of statements, most of which only functions may
hold. Functions and comprehensions, which bind names of their own, carry a number that tells them
apart.
-/

namespace Mcs51.Expression

inductive UnaryOp where
  | plus
  | minus
  | invert
  | negate
  deriving Repr, DecidableEq

/-- The comparisons by order. -/
inductive Relation where
  | less
  | greater
  | lessEqual
  | greaterEqual
  | equal
  | notEqual
  deriving Repr, DecidableEq

inductive BinaryOp where
  | either
  | both
  | relation (r : Relation)
  | member
  | nonMember
  | bitOr
  | bitXor
  | bitAnd
  | shiftLeft
  | shiftRight
  | add
  | subtract
  | multiply
  | divide
  | floorDivide
  | modulo
  deriving Repr, DecidableEq

/-- How tightly an operator binds. -/
def BinaryOp.level : BinaryOp → Nat
  | .either => 0
  | .both => 1
  | .relation _ | .member | .nonMember => 3
  | .bitOr => 4
  | .bitXor => 5
  | .bitAnd => 6
  | .shiftLeft | .shiftRight => 7
  | .add | .subtract => 8
  | .multiply | .divide | .floorDivide | .modulo => 9

/-- How tightly `not` binds. -/
def notLevel : Nat := 2

/-- The level of the operators that do not chain. -/
def relationLevel : Nat := 3

/-- An argument of a call. -/
inductive Argument (α : Type) where
  | place (x : α)
  | named (name : Text) (x : α)
  /-- All items of a sequence, each as an argument by place. -/
  | spread (x : α)
  /-- All entries of a dictionary, each as an argument by name. -/
  | spreadNamed (x : α)

/-- A parameter of a function. -/
inductive Param (α : Type) where
  | required (name : Text)
  | optional (name : Text) (value : α)
  /-- Takes the arguments by place that are left over. Without a name it only tells that the
  parameters after it are given by name. -/
  | rest (name? : Option Text)
  /-- Takes the arguments by name that are left over. -/
  | restNamed (name : Text)

/-- A clause of a comprehension. -/
inductive Clause (α : Type) where
  | each (target source : α)
  | onlyIf (condition : α)

/-- An expression. -/
inductive Tree where
  | integer (n : Nat)
  | real (x : Binary64)
  | text (t : Text)
  | bytes (t : Text)
  | name (t : Text)
  | list (items : List Tree)
  | tuple (items : List Tree)
  | dict (entries : List (Tree × Tree))
  | unary (op : UnaryOp) (x : Tree)
  | binary (op : BinaryOp) (x y : Tree)
  | choice (condition yes no : Tree)
  | index (x i : Tree)
  | slice (x : Tree) (low high step : Option Tree)
  | field (x : Tree) (name : Text)
  | call (f : Tree) (args : List (Argument Tree))
  | lambda (number : Nat) (params : List (Param Tree)) (body : Tree)
  | listFor (number : Nat) (body : Tree) (clauses : List (Clause Tree))
  | dictFor (number : Nat) (key value : Tree) (clauses : List (Clause Tree))

/-- A statement. -/
inductive Statement where
  | evaluate (x : Tree)
  | assign (target value : Tree)
  | update (op : BinaryOp) (target value : Tree)
  | define (number : Nat) (name : Text) (params : List (Param Tree)) (body : List Statement)
  | branch (condition : Tree) (yes no : List Statement)
  | each (target source : Tree) (body : List Statement)
  | give (x? : Option Tree)
  | leave
  | next
  | pass

namespace Tree

/-- The literal that two literals of one kind make, if they are such. -/
def joined? : Tree → Tree → Option Tree
  | .text s, .text t => some (.text (s ++ t))
  | .bytes s, .bytes t => some (.bytes (s ++ t))
  | .list xs, .list ys => some (.list (xs ++ ys))
  | .tuple xs, .tuple ys => some (.tuple (xs ++ ys))
  | _, _ => none

/-- The terms of a sum, before `rest`. -/
def termsOnto (rest : List Tree) : Tree → List Tree
  | .binary .add x y => termsOnto (y :: rest) x
  | x => x :: rest

/-- The terms with neighbouring literals of one kind joined, after the term `last`. -/
def joinTerms (last : Tree) : List Tree → List Tree
  | [] => [last]
  | x :: rest => match joined? last x with
    | some both => joinTerms both rest
    | none => last :: joinTerms x rest

/-- The terms of the sum of two expressions. Neighbouring literals of one kind are joined, so that
all their items are evaluated before any of them is added to what stands before. -/
def terms (x y : Tree) : List Tree :=
  match termsOnto [y] x with
  | [] => []
  | first :: rest => joinTerms first rest

end Tree
end Mcs51.Expression
