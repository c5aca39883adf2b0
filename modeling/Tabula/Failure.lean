import Tabula.Plan.Operator

/-!
Why something failed. A plan error has a cause and the place in the plan that it is traced to: a
cause of building, of compiling or of evaluating. Besides, arguments may be malformed, operands may
have no operation between them, a name may not be found, and a connection may fail by itself.
Every cause has one message, and every failure a class by which it is counted.
-/

namespace Tabula

/-- Why a text is no expression. -/
inductive SyntaxFault
  | empty
  /-- The text does not follow the grammar. -/
  | unparsable (text : String)
  | qualified (column text : String)
  | notFinite (x : Float) (text : String)
  /-- Digits and marks that make no number. -/
  | notANumber (numeral text : String)
  /-- A test by `IS` for something else than a null. -/
  | notNullTest (text : String)
  | windowClause (text : String)
  /-- The grammar knows the form, but no expression has it. -/
  | form (name text : String)
  | rankingArguments (f : Ranking)
  | argumentCount (f : ScalarFn) (count : Nat)
  | unknownFunction (name text : String)

def argumentCountText (f : ScalarFn) (count : Nat) : String :=
  f.name ++ "() takes " ++ f.arity ++ " argument(s), got " ++ toString count

def notFiniteText (x : Float) : String :=
  "literal must be a finite number, got " ++ Value.floatText x

def SyntaxFault.message : SyntaxFault → String
  | empty => "empty expression"
  | unparsable t => "failed to parse " ++ Text.quoted t ++ ": <sqlglot>"
  | qualified c t => "qualified column " ++ Text.quoted c ++ " not supported in " ++ Text.quoted t
  | notFinite x t => notFiniteText x ++ " in " ++ Text.quoted t
  | notANumber n t => "could not convert string to float: " ++ Text.quoted n ++ " in " ++
      Text.quoted t
  | notNullTest t => "only IS [NOT] NULL is supported in " ++ Text.quoted t
  | windowClause t => "OVER clauses are not supported in expression text " ++ Text.quoted t ++
      "; pass partition_by/order_by to extend()"
  | form n t => "unsupported expression " ++ n ++ " in " ++ Text.quoted t
  | rankingArguments f => f.name ++ "() takes no arguments"
  | argumentCount f n => argumentCountText f n
  | unknownFunction n t => "unknown function " ++ n ++ "() in " ++ Text.quoted t

/-- Why an operator cannot be added to a plan. -/
inductive BuildCause
  | unknownColumns (missing available : List String)
  | windowWithoutRanking (value : Expr)
  | rankingWithoutWindow (value : Expr)
  | nestedRanking (value : Expr)
  | rankingInCondition
  | emptyOrdering
  | duplicateColumn (name : String)
  | emptySelection
  | everyColumnDropped
  | terminated (kind after : String)
  | notAnExpression (fault : SyntaxFault)

def BuildCause.message : BuildCause → String
  | unknownColumns missing available =>
      "unknown column(s) " ++ Text.quotedList missing ++
      "; available: " ++ Text.quotedList available
  | windowWithoutRanking e => "window specification given for non-window expression " ++ e.text
  | rankingWithoutWindow e => e.text ++ " requires a window specification"
  | nestedRanking e => "window function nested inside " ++ e.text
  | rankingInCondition =>
      "window functions are not allowed in row predicates; extend a ranked column first"
  | emptyOrdering => "order_by requires at least one column"
  | duplicateColumn name => "column " ++ Text.quoted name ++ " declared more than once"
  | emptySelection => "select_columns requires at least one column"
  | everyColumnDropped => "drop_columns would remove every column"
  | terminated kind after => "cannot add " ++ kind ++ " after " ++ after
  | notAnExpression fault => fault.message

/-- Why a plan has no statement in a dialect. -/
inductive CompileCause
  | functionUnavailable (f : ScalarFn) (dialect : Dialect)
  | rankingOutsideExtend (f : Ranking)
  | rankingUnavailable (value : Expr) (dialect : Dialect)
  | orderingNotLast (ordering next : Operator)

def CompileCause.message : CompileCause → String
  | functionUnavailable f d => f.name ++ "() is not available in the " ++ d.name ++ " dialect"
  | rankingOutsideExtend f => f.name ++ "() is only valid as a windowed extend"
  | rankingUnavailable e d =>
      e.text ++ " tie policy is not expressible in the " ++ d.name ++ " dialect"
  | orderingNotLast o n =>
      o.text ++ " is followed by " ++ n.text ++ "; ordering does not survive " ++
      "further nesting, move order_by to the end of the pipeline"

/-- Why a number is out of range. -/
inductive RangeCause
  | integerTooLarge
  | quotientTooLarge
  | exponential
  | powerOfTen
  deriving DecidableEq, Repr

def RangeCause.message : RangeCause → String
  | integerTooLarge => "int too large to convert to float"
  | quotientTooLarge => "integer division result too large for a float"
  | exponential => "math range error"
  | powerOfTen => "(34, 'Numerical result out of range')"

/-- Why rows could not be computed. -/
inductive EvalCause
  | outOfRange (e : Expr) (cause : RangeCause)
  | rankingOutsideExtend (f : Ranking)
  | negativeRoot (v : Value)
  | nonPositiveLogarithm (v : Value)
  | notWindowed (o : Operator)
  | notDefined (what : String) (values : List Value)
  | notBoolean (condition : Expr) (v : Value)
  | cannotOrder (column : String) (clash : Clash)
  | noColumn (name : String)
  | lacksColumns (table : String) (missing : List String)
  | rowLacksColumn (row : Nat) (table name : String)

def kindText (v : Value) : String := v.kind.name ++ " " ++ v.text

def EvalCause.message : EvalCause → String
  | outOfRange e cause => e.text ++ " is out of range: " ++ cause.message
  | rankingOutsideExtend f => f.name ++ "() is only valid as a windowed extend"
  | negativeRoot v => "sqrt() of negative value " ++ v.text
  | nonPositiveLogarithm v => "ln() of non-positive value " ++ v.text
  | notWindowed o => o.text ++ " is not a windowed extend"
  | notDefined what values =>
      what ++ " not defined for " ++ ", ".intercalate (values.map kindText)
  | notBoolean c v => "predicate " ++ c.text ++ " produced " ++ kindText v ++ ", expected boolean"
  | cannotOrder column clash =>
      "cannot order column " ++ Text.quoted column ++ ": " ++ clash.message
  | noColumn name => "row has no column " ++ Text.quoted name
  | lacksColumns table missing =>
      "table " ++ Text.quoted table ++ " lacks declared column(s) " ++ Text.quotedList missing
  | rowLacksColumn row table name => "row " ++ toString row ++ " of " ++ Text.quoted table ++
      " lacks column " ++ Text.quoted name

/-- The values that a message shows. -/
def EvalCause.values : EvalCause → List Value
  | negativeRoot v | nonPositiveLogarithm v | notBoolean _ v => [v]
  | notDefined _ vs => vs
  | _ => []

/-- The classes of plan errors, in three families. -/
inductive ErrorClass
  | planError
  | planBuildError
  | unknownColumn
  | columnKindMismatch
  | emptyOrdering
  | duplicateColumn
  | emptySelection
  | pipelineTerminated
  | expressionSyntaxError
  | compileError
  | unsupportedExpression
  | dialectMismatch
  | orderingNotOutermost
  | evalError
  | typeMismatch
  | missingColumn
  deriving DecidableEq, Repr

/-- The stages at which a plan may fail. -/
inductive Stage
  | build
  | compile
  | eval
  | unknown
  deriving DecidableEq, Repr

def Stage.name : Stage → String
  | build => "build"
  | compile => "compile"
  | eval => "eval"
  | unknown => "unknown"

/-- The class that stands for the whole family of a stage. -/
def Stage.family : Stage → ErrorClass
  | build => .planBuildError
  | compile => .compileError
  | eval => .evalError
  | unknown => .planError

namespace ErrorClass

def name : ErrorClass → String
  | planError => "PlanError"
  | planBuildError => "PlanBuildError"
  | unknownColumn => "UnknownColumn"
  | columnKindMismatch => "ColumnKindMismatch"
  | emptyOrdering => "EmptyOrdering"
  | duplicateColumn => "DuplicateColumn"
  | emptySelection => "EmptySelection"
  | pipelineTerminated => "PipelineTerminated"
  | expressionSyntaxError => "ExpressionSyntaxError"
  | compileError => "CompileError"
  | unsupportedExpression => "UnsupportedExpression"
  | dialectMismatch => "DialectMismatch"
  | orderingNotOutermost => "OrderingNotOutermost"
  | evalError => "EvalError"
  | typeMismatch => "TypeMismatch"
  | missingColumn => "MissingColumn"

def all : List ErrorClass :=
  [planError, planBuildError, unknownColumn, columnKindMismatch, emptyOrdering, duplicateColumn,
    emptySelection, pipelineTerminated, expressionSyntaxError, compileError,
    unsupportedExpression, dialectMismatch, orderingNotOutermost, evalError, typeMismatch,
    missingColumn]

def named? (name : String) : Option ErrorClass := all.find? (·.name == name)

def stage : ErrorClass → Stage
  | planError => .unknown
  | planBuildError | unknownColumn | columnKindMismatch | emptyOrdering | duplicateColumn
  | emptySelection | pipelineTerminated | expressionSyntaxError => .build
  | compileError | unsupportedExpression | dialectMismatch | orderingNotOutermost => .compile
  | evalError | typeMismatch | missingColumn => .eval

end ErrorClass

inductive PlanCause
  | build (cause : BuildCause)
  | compile (cause : CompileCause)
  | eval (cause : EvalCause)
  /-- A cause of which only the class and the text are known. -/
  | stated (error : ErrorClass) (text : String)

namespace PlanCause

def message : PlanCause → String
  | build c => c.message
  | compile c => c.message
  | eval c => c.message
  | stated _ text => text

def errorClass : PlanCause → ErrorClass
  | build (.unknownColumns ..) => .unknownColumn
  | build (.windowWithoutRanking _) | build (.rankingWithoutWindow _) | build (.nestedRanking _)
  | build .rankingInCondition => .columnKindMismatch
  | build .emptyOrdering => .emptyOrdering
  | build (.duplicateColumn _) => .duplicateColumn
  | build .emptySelection | build .everyColumnDropped => .emptySelection
  | build (.terminated ..) => .pipelineTerminated
  | build (.notAnExpression _) => .expressionSyntaxError
  | compile (.functionUnavailable ..) | compile (.rankingOutsideExtend _) => .unsupportedExpression
  | compile (.rankingUnavailable ..) => .dialectMismatch
  | compile (.orderingNotLast ..) => .orderingNotOutermost
  | eval (.notDefined ..) | eval (.notBoolean ..) | eval (.cannotOrder ..) => .typeMismatch
  | eval (.noColumn _) | eval (.lacksColumns ..) | eval (.rowLacksColumn ..) => .missingColumn
  | eval (.outOfRange ..) | eval (.rankingOutsideExtend _) | eval (.negativeRoot _)
  | eval (.nonPositiveLogarithm _) | eval (.notWindowed _) => .evalError
  | stated c _ => c

end PlanCause

/-- An error of a plan, traced to a node: zero is the table, one the first operator. -/
structure PlanError where
  cause : PlanCause
  position : Option Int

/-- The place of a node before the message. -/
def atNode (position : Option Int) (message : String) : String :=
  match position with
  | none => message
  | some p => "node " ++ toString p ++ ": " ++ message

def PlanError.message (e : PlanError) : String := atNode e.position e.cause.message

/-- Arguments that can never be meant. -/
inductive ArgumentFault
  | columnName (v : Value)
  | tableName
  | noColumns (table : String)
  | strayReverse (names : List String)
  | windowTwice
  | reverseWithoutOrder
  | extendedName
  | materializedName
  | notFinite (x : Float)
  | notOneOperand
  | tooFewOperands (op : Junction)
  | argumentCount (f : ScalarFn) (count : Nat)
  | unknownFunction (name : String)
  | unknownDialect (name : String)
  | undeclaredColumns (record : Nat) (names : List String)
  | columnsRequired
  | unequalLengths (lengths : List Nat)
  | mixedForms (names : List String)

def ArgumentFault.message : ArgumentFault → String
  | columnName v => "column names must be non-empty strings, got " ++ v.text
  | tableName => "table name must be non-empty"
  | noColumns table => "table " ++ Text.quoted table ++ " must declare at least one column"
  | strayReverse names => "reverse names columns not in the ordering: " ++ Text.quotedList names
  | windowTwice => "pass either window or partition_by/order_by, not both"
  | reverseWithoutOrder => "reverse needs order_by columns to apply to"
  | extendedName => "extended column name must be non-empty"
  | materializedName => "materialized table name must be non-empty"
  | notFinite x => notFiniteText x
  | notOneOperand => "NOT takes exactly one operand"
  | tooFewOperands op => op.symbol ++ " takes at least two operands"
  | argumentCount f n => argumentCountText f n
  | unknownFunction name => Text.quoted name ++ " is not a valid ScalarFunction"
  | unknownDialect name => Text.quoted name ++ " is not a valid Dialect"
  | undeclaredColumns i names =>
      "record " ++ toString i ++ " has undeclared columns " ++ Text.quotedList names
  | columnsRequired => "columns are required for an empty table"
  | unequalLengths lengths =>
      "columns have differing lengths: " ++ Text.bracketed (lengths.map toString)
  | mixedForms names =>
      "cannot store mixed value types " ++ Text.quotedList names ++ " in one column"

/-- Operands of a form that an operation is not made for. -/
inductive OperandFault
  | literal (v : Value)
  | notAnExpression (v : Value)
  | notHashable
  | noOrder (clash : Clash)
  | noConnective (op : Junction) (left : Value) (right : Expr)
  /-- Something of a form without items was asked for them. -/
  | noItems (form : String)
  /-- An argument of a call was given by its place and by its name. -/
  | givenTwice (call : String) (byNames : Bool) (argument : String)

def OperandFault.message : OperandFault → String
  | literal v => "unsupported literal type " ++ v.formName ++ ": " ++ v.text
  | notAnExpression v => "expected an Expression or expression text, got " ++ v.formName
  | notHashable => "unhashable type: 'list'"
  | noOrder clash => clash.message
  | noConnective op l r => "unsupported operand type(s) for " ++
      (match op with | .and => "&" | .or => "|") ++ ": '" ++ l.formName ++ "' and '" ++
      r.formName ++ "'"
  | noItems form => "'" ++ form ++ "' object is not iterable"
  | givenTwice call byNames argument => call ++ "() got multiple values for " ++
      (if byNames then "keyword " else "") ++ "argument '" ++ argument ++ "'"

/-- A name under which nothing is found. -/
inductive LookupFault
  | column (name : String)
  | table (name : String)
  /-- The message is the bare name. -/
  | bare (name : String)

def LookupFault.message : LookupFault → String
  | column name => "Column '" ++ name ++ "' not found"
  | table name => "Table '" ++ name ++ "' is not registered"
  | bare name => name

inductive Failure
  | plan (error : PlanError)
  | argument (fault : ArgumentFault)
  | operand (fault : OperandFault)
  | lookup (fault : LookupFault)
  /-- What a connection says when it fails. -/
  | connection (text : String)
  /-- A double that is beyond all doubles once it is rounded. -/
  | roundedTooLarge
  /-- An integer has too many digits for a message. -/
  | unwritable
  /-- A numeral has too many digits for an integer. -/
  | tooManyDigits (count : Nat)
  /-- Something has nothing under a name. -/
  | noAttribute (owner name : String)

namespace Failure

def build (cause : BuildCause) (position : Option Int) : Failure := .plan ⟨.build cause, position⟩

def compile (cause : CompileCause) (position : Option Int) : Failure :=
  .plan ⟨.compile cause, position⟩

/-- A cause of evaluating, which is stated only if the values that it shows can be written. -/
def eval (cause : EvalCause) (position : Option Int) : Failure :=
  if cause.values.all Value.isWritable then .plan ⟨.eval cause, position⟩ else .unwritable

/-- A failure of a class with a text, at a place. Unknown columns are not stated by a text and a
place alone. -/
def stated? (error : ErrorClass) (text : String) (position : Int) : Except Failure Failure :=
  match error with
  | .unknownColumn => .error (.operand (.noItems "int"))
  | error => .ok (.plan ⟨.stated error text, some position⟩)

def message : Failure → String
  | plan e => e.message
  | argument f => f.message
  | operand f => f.message
  | lookup f => f.message
  | connection text => text
  | roundedTooLarge => "rounded value too large to represent"
  | unwritable => "Exceeds the limit (" ++ toString Number.maxIntegerDigits ++ " digits) for " ++
      "integer string conversion; use sys.set_int_max_str_digits() to increase the limit"
  | tooManyDigits count => "Exceeds the limit (" ++ toString Number.maxIntegerDigits ++
      " digits) for integer string conversion: value has " ++ toString count ++
      " digits; use sys.set_int_max_str_digits() to increase the limit"
  | noAttribute owner name => owner ++ " has no attribute '" ++ name ++ "'"

/-- The name of the class under which a failure is reported. -/
def className : Failure → String
  | plan e => e.cause.errorClass.name
  | argument _ | unwritable | tooManyDigits _ => "ValueError"
  | operand _ => "TypeError"
  | lookup _ => "KeyError"
  | connection _ => "RuntimeError"
  | roundedTooLarge => "OverflowError"
  | noAttribute .. => "AttributeError"

end Failure

/-- What may fail. -/
abbrev Result (α : Type) := Except Failure α

/-- The value itself, if it can be written. -/
def Value.written (v : Value) : Result Value :=
  if v.isWritable then .ok v else .error .unwritable

/-- The integer that a numeral stands for, unless it has too many digits; nothing if the text is no
numeral. -/
def Value.ofNumeral? (text : String) : Option (Result Value) :=
  (Number.readInt? text).map fun n =>
    let count := text.toList.countP Char.isDigit
    if count ≤ Number.maxIntegerDigits then .ok (.int n) else .error (.tooManyDigits count)

end Tabula
