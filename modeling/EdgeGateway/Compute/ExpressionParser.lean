import EdgeGateway.Compute.Service
import EdgeGateway.Foundation.Numerals

/-! # The expression parser

The parser evaluates while it reads. Its position is the text that is still to come; the recursion
of the source is counted down by a fuel that the length of the expression covers.
-/

namespace EdgeGateway.Compute

open QuotedText Numerals

/-- The operations on doubles that the parser takes as they are. -/
structure DoubleOperations where
  add : RawDouble → RawDouble → RawDouble
  sub : RawDouble → RawDouble → RawDouble
  mul : RawDouble → RawDouble → RawDouble
  div : RawDouble → RawDouble → RawDouble
  fmod : RawDouble → RawDouble → RawDouble
  pow : RawDouble → RawDouble → RawDouble
  neg : RawDouble → RawDouble
  fabs : RawDouble → RawDouble
  round : RawDouble → RawDouble
  equal : RawDouble → RawDouble → Bool
  less : RawDouble → RawDouble → Bool
  lessEqual : RawDouble → RawDouble → Bool
  isfinite : RawDouble → Bool
  ofInt : Int → RawDouble

def doubleZero : RawDouble := 0

def doubleOne : RawDouble := BitVec.ofNat 64 0x3FF0000000000000

def doubleTen : RawDouble := BitVec.ofNat 64 0x4024000000000000

abbrev EvalValue := Option RawDouble

def flag (condition : Bool) : EvalValue := some (if condition then doubleOne else doubleZero)

inductive BinaryOperator where
  | or
  | and
  | eq
  | ne
  | ge
  | le
  | gt
  | lt
  | add
  | sub
  | mul
  | div
  | mod
deriving DecidableEq, Repr

def BinaryOperator.token : BinaryOperator → List Char
  | .or => ['|', '|']
  | .and => ['&', '&']
  | .eq => ['=', '=']
  | .ne => ['!', '=']
  | .ge => ['>', '=']
  | .le => ['<', '=']
  | .gt => ['>']
  | .lt => ['<']
  | .add => ['+']
  | .sub => ['-']
  | .mul => ['*']
  | .div => ['/']
  | .mod => ['%']

inductive Level where
  | logicalOr
  | logicalAnd
  | equality
  | comparison
  | addSub
  | mulDiv
deriving DecidableEq, Repr

def Level.operators : Level → List BinaryOperator
  | .logicalOr => [.or]
  | .logicalAnd => [.and]
  | .equality => [.eq, .ne]
  | .comparison => [.ge, .le, .gt, .lt]
  | .addSub => [.add, .sub]
  | .mulDiv => [.mul, .div, .mod]

def Level.next : Level → Option Level
  | .logicalOr => some .logicalAnd
  | .logicalAnd => some .equality
  | .equality => some .comparison
  | .comparison => some .addSub
  | .addSub => some .mulDiv
  | .mulDiv => none

def unaryMath (value : EvalValue) (fn : RawDouble → RawDouble) : EvalValue := value.map fn

def binaryMath (lhs rhs : EvalValue) (fn : RawDouble → RawDouble → RawDouble) : EvalValue :=
  match lhs, rhs with
  | some a, some b => some (fn a b)
  | _, _ => none

namespace DoubleOperations

variable (self : DoubleOperations)

/-- `std::min` and `std::max`, which give the first argument back when neither is less. -/
def min (a b : RawDouble) : RawDouble := if self.less b a then b else a

def max (a b : RawDouble) : RawDouble := if self.less a b then b else a

def truthy : EvalValue → Bool
  | none => false
  | some number => !self.equal number doubleZero

def arithmetic (lhs rhs : EvalValue) (op : BinaryOperator) : EvalValue :=
  match lhs, rhs with
  | some a, some b =>
    match op with
    | .add => some (self.add a b)
    | .sub => some (self.sub a b)
    | .mul => some (self.mul a b)
    | .div => if self.equal b doubleZero then none else some (self.div a b)
    | .mod => if self.equal b doubleZero then none else some (self.fmod a b)
    | _ => none
  | _, _ => none

def compare (lhs rhs : EvalValue) (op : BinaryOperator) : EvalValue :=
  match lhs, rhs with
  | some a, some b =>
    flag (match op with
      | .eq => self.equal a b
      | .ne => !self.equal a b
      | .gt => self.less b a
      | .ge => self.lessEqual b a
      | .lt => self.less a b
      | .le => self.lessEqual a b
      | _ => false)
  | _, _ => none

def combine (op : BinaryOperator) (left right : EvalValue) : EvalValue :=
  match op with
  | .or => flag (self.truthy left || self.truthy right)
  | .and => flag (self.truthy left && self.truthy right)
  | .eq | .ne | .ge | .le | .gt | .lt => self.compare left right op
  | .add | .sub | .mul | .div | .mod => self.arithmetic left right op

def clamp : EvalValue → EvalValue → EvalValue → EvalValue
  | some value, some low, some high => some (self.max low (self.min value high))
  | _, _, _ => none

def roundTo : EvalValue → EvalValue → EvalValue
  | some value, some digits =>
    let scale := self.pow doubleTen digits
    if self.equal scale doubleZero || !self.isfinite scale then none
    else some (self.div (self.round (self.mul value scale)) scale)
  | _, _ => none

end DoubleOperations

def isIdentifierStart (ch : Char) : Bool := ch.isAlpha || ch == '_'

def isIdentifierPart (ch : Char) : Bool := ch.isAlphanum || ch == '_'

/-- What follows the characters that the number scanner takes. -/
def afterNumber (text : List Char) : List Char :=
  let text := text.dropWhile fun ch => ch.isDigit || ch == '.'
  match text with
  | [] => []
  | mark :: rest =>
    if mark == 'e' || mark == 'E' then
      (match rest with
        | [] => []
        | sign :: digits => if sign == '+' || sign == '-' then digits else rest).dropWhile Char.isDigit
    else text

/-- `std::strtod`, which gives zero where no number stands. -/
def numberAt (text : List Char) : RawDouble := ((strtod text).map Prod.fst).getD doubleZero

/-- What follows the token, behind white space; nothing when it does not stand there. -/
def matchToken (token text : List Char) : Option (List Char) :=
  if token.isPrefixOf (skipWhitespace text) then some ((skipWhitespace text).drop token.length) else none

def Level.match (level : Level) (text : List Char) : Option (BinaryOperator × List Char) :=
  level.operators.findSome? fun op => (matchToken op.token text).map fun rest => (op, rest)

structure ExpressionParser where
  doubles : DoubleOperations
  inputs : NamedInputs RawDouble
  expression : List Char

namespace ExpressionParser

variable (self : ExpressionParser)

/-- A failure names the offset of the text that is still to come. -/
def fail {α : Type} (message text : List Char) : Except StdString α :=
  .error (message ++ " at expression offset ".toList ++ intText (self.expression.length - text.length))

def expect (token text : List Char) : Except StdString (List Char) :=
  match matchToken token text with
  | some rest => .ok rest
  | none => self.fail ("expected '".toList ++ token ++ "'".toList) (skipWhitespace text)

def parseIdentifier (text : List Char) : Except StdString (StdString × List Char) :=
  match skipWhitespace text with
  | [] => self.fail "expected identifier".toList []
  | first :: rest =>
    if isIdentifierStart first then .ok (first :: rest.takeWhile isIdentifierPart, rest.dropWhile isIdentifierPart)
    else self.fail "expected identifier".toList (first :: rest)

def requireArgs (name : StdString) (args : List EvalValue) (count : Nat) (value : EvalValue) :
    Except StdString EvalValue :=
  if args.length = count then .ok value
  else .error (name ++ " requires ".toList ++ intText count ++ " arguments".toList)

def applyFunction (name : StdString) (args : List EvalValue) (text : List Char) : Except StdString EvalValue :=
  let arg (i : Nat) : EvalValue := args.getD i none
  if name = "if".toList then
    if args.length = 3 then .ok (if self.doubles.truthy (arg 0) then arg 1 else arg 2)
    else self.fail "if requires 3 arguments".toList text
  else if name = "abs".toList then requireArgs name args 1 (unaryMath (arg 0) self.doubles.fabs)
  else if name = "min".toList then requireArgs name args 2 (binaryMath (arg 0) (arg 1) self.doubles.min)
  else if name = "max".toList then requireArgs name args 2 (binaryMath (arg 0) (arg 1) self.doubles.max)
  else if name = "clamp".toList then requireArgs name args 3 (self.doubles.clamp (arg 0) (arg 1) (arg 2))
  else if name = "round".toList then requireArgs name args 2 (self.doubles.roundTo (arg 0) (arg 1))
  else self.fail ("unsupported function: ".toList ++ name) text

def variableValue (name : StdString) : EvalValue :=
  match self.inputs name with
  | none => none
  | some state => if state.valid then some state.value else none

def probe (name input : StdString) : EvalValue :=
  if name = "valid".toList then flag ((self.inputs input).any (·.valid))
  else if name = "stale".toList then flag ((self.inputs input).any (·.stale))
  else (self.inputs input).map fun state => self.doubles.ofInt state.quality

def isProbe (name : StdString) : Bool := name = "valid".toList ∨ name = "stale".toList ∨ name = "quality".toList

def parseProbe (name : StdString) (text : List Char) : Except StdString (EvalValue × List Char) := do
  let (input, rest) ← self.parseIdentifier text
  let rest ← self.expect [')'] rest
  .ok (self.probe name input, rest)

def outOfFuel {α : Type} : Except StdString α := .error "out of fuel".toList

mutual

/-- A binary level: an operand, and the loop over the operators of the level. -/
def parseLevel : Nat → Level → List Char → Except StdString (EvalValue × List Char)
  | 0, _, _ => outOfFuel
  | fuel + 1, level, text => do
    let (left, rest) ← parseOperand fuel level.next text
    levelLoop fuel level left rest

def parseOperand : Nat → Option Level → List Char → Except StdString (EvalValue × List Char)
  | 0, _, _ => outOfFuel
  | fuel + 1, some level, text => parseLevel fuel level text
  | fuel + 1, none, text => parseUnary fuel text

def levelLoop : Nat → Level → EvalValue → List Char → Except StdString (EvalValue × List Char)
  | 0, _, _, _ => outOfFuel
  | fuel + 1, level, left, text =>
    match level.match text with
    | some (op, rest) => do
      let (right, rest) ← parseOperand fuel level.next rest
      levelLoop fuel level (self.doubles.combine op left right) rest
    | none => .ok (left, skipWhitespace text)

def parseUnary : Nat → List Char → Except StdString (EvalValue × List Char)
  | 0, _ => outOfFuel
  | fuel + 1, text =>
    match matchToken ['!'] text with
    | some rest => do
      let (value, rest) ← parseUnary fuel rest
      .ok (flag (!self.doubles.truthy value), rest)
    | none =>
      match matchToken ['-'] text with
      | some rest => do
        let (value, rest) ← parseUnary fuel rest
        .ok (value.map self.doubles.neg, rest)
      | none => parsePrimary fuel (skipWhitespace text)

def parsePrimary : Nat → List Char → Except StdString (EvalValue × List Char)
  | 0, _ => outOfFuel
  | fuel + 1, text =>
    match skipWhitespace text with
    | [] => self.fail "unexpected end of expression".toList []
    | first :: rest =>
      if first = '(' then do
        let (value, rest) ← parseLevel fuel .logicalOr rest
        let rest ← self.expect [')'] rest
        .ok (value, rest)
      else if first.isDigit || first == '.' then .ok (some (numberAt (first :: rest)), afterNumber (first :: rest))
      else if isIdentifierStart first then do
        let (name, rest) ← self.parseIdentifier (first :: rest)
        if name = "null".toList then .ok (none, rest)
        else if name = "true".toList then .ok (some doubleOne, rest)
        else if name = "false".toList then .ok (some doubleZero, rest)
        else
          match matchToken ['('] rest with
          | some rest => parseFunction fuel name rest
          | none => .ok (self.variableValue name, skipWhitespace rest)
      else self.fail "invalid expression token".toList (first :: rest)

def parseFunction : Nat → StdString → List Char → Except StdString (EvalValue × List Char)
  | 0, _, _ => outOfFuel
  | fuel + 1, name, text =>
    if isProbe name then self.parseProbe name text
    else do
      let (args, rest) ←
        match matchToken [')'] text with
        | some rest => .ok ([], rest)
        | none => parseArguments fuel [] (skipWhitespace text)
      let value ← self.applyFunction name args rest
      .ok (value, rest)

def parseArguments : Nat → List EvalValue → List Char → Except StdString (List EvalValue × List Char)
  | 0, _, _ => outOfFuel
  | fuel + 1, args, text => do
    let (value, rest) ← parseLevel fuel .logicalOr text
    match matchToken [')'] rest with
    | some rest => .ok (args ++ [value], rest)
    | none => do
      let rest ← self.expect [','] rest
      parseArguments fuel (args ++ [value]) rest

end

def parseLogicalOr (fuel : Nat) (text : List Char) : Except StdString (EvalValue × List Char) :=
  self.parseLevel fuel .logicalOr text

def parseLogicalAnd (fuel : Nat) (text : List Char) : Except StdString (EvalValue × List Char) :=
  self.parseLevel fuel .logicalAnd text

def parseEquality (fuel : Nat) (text : List Char) : Except StdString (EvalValue × List Char) :=
  self.parseLevel fuel .equality text

def parseComparison (fuel : Nat) (text : List Char) : Except StdString (EvalValue × List Char) :=
  self.parseLevel fuel .comparison text

def parseAddSub (fuel : Nat) (text : List Char) : Except StdString (EvalValue × List Char) :=
  self.parseLevel fuel .addSub text

def parseMulDiv (fuel : Nat) (text : List Char) : Except StdString (EvalValue × List Char) :=
  self.parseLevel fuel .mulDiv text

/-- The levels below each other take at most this many calls for each character. -/
def fuelFor (text : List Char) : Nat := 20 * text.length + 20

def parse : Except StdString EvalValue := do
  let (value, rest) ← self.parseLogicalOr (fuelFor self.expression) self.expression
  if skipWhitespace rest = [] then .ok value else self.fail "unexpected token".toList (skipWhitespace rest)

end ExpressionParser

end EdgeGateway.Compute
