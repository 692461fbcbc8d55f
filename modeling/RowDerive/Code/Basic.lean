import RowDerive.Token.Basic

/-!
# Code

The forms of statement that stand in the block of a generated method, read off its tokens. A statement
is a command with a semicolon, or commands in a block of their own. Whether a token is joint to the next
matters only where an operator has two characters.
-/

namespace RowDerive.Code

/-- What is handed on: a local, a field of the record, or a literal. -/
inductive Operand where
  | name (x : String)
  /-- A reference to a local. -/
  | borrow (mutable : Bool) (x : String)
  /-- What a local refers to. -/
  | deref (x : String)
  | field (f : String)
  /-- A reference to a field. -/
  | borrowField (f : String)
  | literal (text : String)
deriving DecidableEq, Repr

def Operand.read? : List Token → Option Operand
  | [.ident x _] => some (.name x)
  | [.punct '&' _ _, .ident x _] => some (.borrow false x)
  | [.punct '&' _ _, .ident "mut" _, .ident x _] => some (.borrow true x)
  | [.punct '*' _ _, .ident x _] => some (.deref x)
  | [.ident "self" _, .punct '.' _ _, .ident f _] => some (.field f)
  | [.punct '&' _ _, .ident "self" _, .punct '.' _ _, .ident f _] => some (.borrowField f)
  | [.literal text _] => some (.literal text)
  | _ => none

/-- The parts between separators. One after the last part does not count. -/
def parted (sep : Char) : List Token → List (List Token)
  | [] => []
  | .punct c j s :: ts =>
    if c = sep then [] :: parted sep ts
    else
      match parted sep ts with
      | [] => [[.punct c j s]]
      | us :: uss => (.punct c j s :: us) :: uss
  | t :: ts =>
    match parted sep ts with
    | [] => [[t]]
    | us :: uss => (t :: us) :: uss

/-- The names of a path from the root at the front, and what follows it. -/
def rooted : List Token → List String × List Token
  | .punct ':' true _ :: .punct ':' _ _ :: .ident x _ :: ts => (x :: (rooted ts).1, (rooted ts).2)
  | ts => ([], ts)

/-- What stands before the last `as`, and what after it. -/
def atLastAs? : List Token → Option (List Token × List Token)
  | [] => none
  | t :: ts =>
    match atLastAs? ts, t with
    | some (us, vs), t => some (t :: us, vs)
    | none, .ident "as" _ => some ([], ts)
    | none, _ => none

/-- What is computed. -/
inductive Expr where
  | operand (e : Operand)
  /-- A call of the function that a path from the root names. -/
  | call (path : List String) (args : List Operand)
  /-- A call of a method of a local. -/
  | method (object name : String) (args : List Operand)
  /-- A call, without arguments, of what a type has from a trait. -/
  | provided (type : List Token) (trait : List String) (name : String)
deriving DecidableEq, Repr

namespace Expr

/-- The arguments between parentheses. -/
def args? (ts : List Token) : Option (List Operand) := (parted ',' ts).mapM Operand.read?

/-- What stands behind the opening bracket of `<T as Trait>::f()`. Nothing in a path is `as`. -/
def provided? (ts : List Token) : Option Expr :=
  match atLastAs? ts with
  | some (type, rest) =>
    match rooted rest with
    | (trait, [.punct '>' _ _, .punct ':' true _, .punct ':' _ _, .ident f _, .group .paren [] _ _]) =>
      some (.provided type trait f)
    | _ => none
  | none => none

def read? : List Token → Option Expr
  | [.ident x _, .punct '.' _ _, .ident f _, .group .paren ts _ _] => (args? ts).map (.method x f)
  | .punct '<' _ _ :: ts => provided? ts
  | .punct ':' j s :: ts =>
    match rooted (.punct ':' j s :: ts) with
    | (path, [.group .paren us _ _]) => (args? us).map (.call path)
    | _ => none
  | ts => (Operand.read? ts).map .operand

end Expr

/-- A branch: it is taken for the variant that a path names, and what the variant holds is bound. -/
structure Arm where
  path : List String
  binder : Option String
  value : Expr
deriving DecidableEq, Repr

def Arm.read? (ts : List Token) : Option Arm :=
  match rooted ts with
  | (path, .group .paren [.ident x _] _ _ :: .punct '=' true _ :: .punct '>' _ _ :: us) =>
    (Expr.read? us).map fun e => ⟨path, some x, e⟩
  | (path, .punct '=' true _ :: .punct '>' _ _ :: us) => (Expr.read? us).map fun e => ⟨path, none, e⟩
  | _ => none

inductive Command where
  | bind (mutable : Bool) (x : String) (e : Expr)
  | eval (e : Expr)
  /-- Takes a branch by what a local refers to. -/
  | choose (x : String) (arms : List Arm)
deriving DecidableEq, Repr

def Command.read? : List Token → Option Command
  | .ident "let" _ :: .ident x _ :: .punct '=' _ _ :: us => (Expr.read? us).map (.bind false x)
  | .ident "let" _ :: .ident "mut" _ :: .ident x _ :: .punct '=' _ _ :: us =>
    (Expr.read? us).map (.bind true x)
  | [.ident "match" _, .ident x _, .group .brace us _ _] =>
    ((parted ',' us).mapM Arm.read?).map (.choose x)
  | us => (Expr.read? us).map .eval

inductive Line where
  | one (c : Command)
  | block (cs : List Command)
deriving DecidableEq, Repr

/-- The tokens before a semicolon at the end. -/
def ended? (ts : List Token) : Option (List Token) :=
  match ts.getLast? with
  | some (.punct ';' _ _) => some ts.dropLast
  | _ => none

def Line.read? : List Token → Option Line
  | [.group .brace us _ _] => ((parted ';' us).mapM Command.read?).map .block
  | us => (ended? us).bind fun us => (Command.read? us).map .one

end RowDerive.Code
