import EdgeGateway.Compute.ExpressionParser
import EdgeGateway.Foundation.DecimalNumbers

/-! # Expressions and their texts -/

namespace EdgeGateway.Compute

open QuotedText DecimalNumbers

structure Identifier where
  first : Char
  others : List Char
  isStart : isIdentifierStart first = true
  isPart : ∀ c ∈ others, isIdentifierPart c = true

def Identifier.text (self : Identifier) : StdString := self.first :: self.others

inductive Constant where
  | null
  | true
  | false
deriving DecidableEq, Repr

def Constant.text : Constant → StdString
  | .null => "null".toList
  | .true => "true".toList
  | .false => "false".toList

def Constant.value : Constant → EvalValue
  | .null => none
  | .true => some doubleOne
  | .false => some doubleZero

structure InputName extends Identifier where
  not_constant : ∀ constant : Constant, toIdentifier.text ≠ constant.text

inductive UnaryOperator where
  | not
  | neg
deriving DecidableEq, Repr

def UnaryOperator.token : UnaryOperator → Char
  | .not => '!'
  | .neg => '-'

inductive ExpressionFunction where
  | abs
  | min
  | max
  | clamp
  | round
  | «if»
deriving DecidableEq, Repr

def ExpressionFunction.text : ExpressionFunction → StdString
  | .abs => "abs".toList
  | .min => "min".toList
  | .max => "max".toList
  | .clamp => "clamp".toList
  | .round => "round".toList
  | .if => "if".toList

def ExpressionFunction.arity : ExpressionFunction → Nat
  | .abs => 1
  | .min | .max | .round => 2
  | .clamp | .if => 3

inductive Probe where
  | valid
  | stale
  | quality
deriving DecidableEq, Repr

def Probe.text : Probe → StdString
  | .valid => "valid".toList
  | .stale => "stale".toList
  | .quality => "quality".toList

inductive Expr where
  | number (literal : NumberLiteral)
  | constant (name : Constant)
  | input (name : InputName)
  | unary (op : UnaryOperator) (operand : Expr)
  | binary (op : BinaryOperator) (left right : Expr)
  | call (function : ExpressionFunction) (args : Fin function.arity → Expr)
  | probe (question : Probe) (name : Identifier)

section Values

variable (doubles : DoubleOperations)

/-- Null is not true. -/
def isTrue (value : EvalValue) : Bool := value.any fun number => !doubles.equal number doubleZero

/-- A relation or an operation of numbers, null where an operand is null. -/
def strict (operation : RawDouble → RawDouble → EvalValue) (left right : EvalValue) : EvalValue :=
  left.bind fun a => right.bind (operation a)

def unlessZero (operation : RawDouble → RawDouble → RawDouble) (a b : RawDouble) : EvalValue :=
  if doubles.equal b doubleZero then none else some (operation a b)

def UnaryOperator.value : UnaryOperator → EvalValue → EvalValue
  | .not, operand => flag (!isTrue doubles operand)
  | .neg, operand => operand.map doubles.neg

def BinaryOperator.value : BinaryOperator → EvalValue → EvalValue → EvalValue
  | .or => fun left right => flag (isTrue doubles left || isTrue doubles right)
  | .and => fun left right => flag (isTrue doubles left && isTrue doubles right)
  | .eq => strict fun a b => flag (doubles.equal a b)
  | .ne => strict fun a b => flag (!doubles.equal a b)
  | .ge => strict fun a b => flag (doubles.lessEqual b a)
  | .le => strict fun a b => flag (doubles.lessEqual a b)
  | .gt => strict fun a b => flag (doubles.less b a)
  | .lt => strict fun a b => flag (doubles.less a b)
  | .add => strict fun a b => some (doubles.add a b)
  | .sub => strict fun a b => some (doubles.sub a b)
  | .mul => strict fun a b => some (doubles.mul a b)
  | .div => strict (unlessZero doubles doubles.div)
  | .mod => strict (unlessZero doubles doubles.fmod)

def rounded (number digits : RawDouble) : EvalValue :=
  let scale := doubles.pow doubleTen digits
  if doubles.isfinite scale then unlessZero doubles doubles.div (doubles.round (doubles.mul number scale)) scale
  else none

def ExpressionFunction.value : (function : ExpressionFunction) → (Fin function.arity → EvalValue) → EvalValue
  | .abs, args => (args ⟨0, by decide⟩).map doubles.fabs
  | .min, args => strict (fun a b => some (doubles.min a b)) (args ⟨0, by decide⟩) (args ⟨1, by decide⟩)
  | .max, args => strict (fun a b => some (doubles.max a b)) (args ⟨0, by decide⟩) (args ⟨1, by decide⟩)
  | .clamp, args =>
    (args ⟨0, by decide⟩).bind fun number =>
      strict (fun low high => some (doubles.max low (doubles.min number high))) (args ⟨1, by decide⟩) (args ⟨2, by decide⟩)
  | .round, args => strict (rounded doubles) (args ⟨0, by decide⟩) (args ⟨1, by decide⟩)
  | .if, args => if isTrue doubles (args ⟨0, by decide⟩) then args ⟨1, by decide⟩ else args ⟨2, by decide⟩

/-- An input that is not there is neither valid nor stale, and has no quality. -/
def Probe.value : Probe → Option (ComputeInputState RawDouble) → EvalValue
  | .valid, state => flag (state.any (·.valid))
  | .stale, state => flag (state.any (·.stale))
  | .quality, state => state.map fun state => doubles.ofInt state.quality

variable (inputs : NamedInputs RawDouble)

def Expr.value : Expr → EvalValue
  | .number literal => some literal.double
  | .constant name => name.value
  | .input name => ((inputs name.text).filter (·.valid)).map (·.value)
  | .unary op operand => op.value doubles operand.value
  | .binary op left right => op.value doubles left.value right.value
  | .call function args => function.value doubles fun i => (args i).value
  | .probe question name => question.value doubles (inputs name.text)

end Values

/-- An expression as an operand of a level, or a unary one. Only the levels ask for parentheses. -/
inductive Renders : Option Level → Expr → List Char → Prop
  | before {rank e text c} : isSpace c = true → Renders rank e text → Renders rank e (c :: text)
  | after {rank e text c} : isSpace c = true → Renders rank e text → Renders rank e (text ++ [c])
  | operand {level : Level} {e text} : Renders level.next e text → Renders (some level) e text
  | binary {level : Level} {op l r left right} : op ∈ level.operators → Renders (some level) l left →
      Renders level.next r right → Renders (some level) (.binary op l r) (left ++ (op.token ++ right))
  | unary {op : UnaryOperator} {e text} : Renders none e text → Renders none (.unary op e) (op.token :: text)
  | parentheses {e text} : Renders (some .logicalOr) e text → Renders none e ('(' :: (text ++ [')']))
  | number (literal : NumberLiteral) : Renders none (.number literal) literal.text
  | constant (constant : Constant) : Renders none (.constant constant) constant.text
  | input (name : InputName) : Renders none (.input name) name.text
  | call {function : ExpressionFunction} {args : Fin function.arity → Expr} {texts : Fin function.arity → List Char}
      {gap} : (∀ c ∈ gap, isSpace c = true) → (∀ i, Renders (some .logicalOr) (args i) (texts i)) →
      Renders none (.call function args)
        (function.text ++ (gap ++ '(' :: ([','].intercalate (List.ofFn texts) ++ [')'])))
  | probe {probe : Probe} {input : Identifier} {gap before after} : (∀ c ∈ gap, isSpace c = true) →
      (∀ c ∈ before, isSpace c = true) → (∀ c ∈ after, isSpace c = true) →
      Renders none (.probe probe input) (probe.text ++ (gap ++ '(' :: (before ++ (input.text ++ (after ++ [')'])))))

theorem Renders.atLevel {e : Expr} {text : List Char} (h : Renders none e text) (level : Level) :
    Renders (some level) e text := by
  have hMulDiv := @Renders.operand .mulDiv e text h
  have hAddSub := @Renders.operand .addSub e text hMulDiv
  have hComparison := @Renders.operand .comparison e text hAddSub
  have hEquality := @Renders.operand .equality e text hComparison
  have hLogicalAnd := @Renders.operand .logicalAnd e text hEquality
  cases level with
  | logicalOr => exact @Renders.operand .logicalOr e text hLogicalAnd
  | logicalAnd => exact hLogicalAnd
  | equality => exact hEquality
  | comparison => exact hComparison
  | addSub => exact hAddSub
  | mulDiv => exact hMulDiv

end EdgeGateway.Compute
