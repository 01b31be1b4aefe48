import ClassCheck.Diagnostic.Basic
import ClassCheck.Ty

/-! # Semantic errors

The first semantic error ends the analysis of a program.
-/

namespace ClassCheck

/-- An operator whose operands have wrong types. -/
inductive Operator where
  | binary (op : BinaryOp)
  | not
  | length
  | index
  | newArray
  deriving DecidableEq

def Operator.symbol : Operator → String
  | .binary op => op.symbol
  | .not => "!"
  | .length => ".length"
  | .index => "[]"
  | .newArray => "new int[]"

/-- A statement with a condition. -/
inductive Conditional where
  | ifElse
  | loop
  deriving DecidableEq

def Conditional.keyword : Conditional → String
  | .ifElse => "if"
  | .loop => "while"

inductive SemanticCause where
  | duplicateClass (name : String)
  | unknownSuperclass (className parent : String)
  | selfInheritance (className : String)
  | unknownType (type name : String)
  | duplicateField (className field : String)
  | duplicateMethod (className method : String)
  | methodNamedLikeClass (className : String)
  | duplicateParameter (method param : String)
  | duplicateLocal (method name : String)
  | returnTypeMismatch (method superclass : String) (expected found : Ty)
  | arityMismatch (method : String) (expected found : Nat)
  | parameterTypeMismatch (method superclass : String) (position : Nat) (expected found : Ty)
  | unknownName (name : String)
  | incompatibleTypes (expected found : Ty)
  | invalidArrayType (found : Ty)
  | invalidIndexType (found : Ty)
  | invalidConditionType (statement : Conditional) (found : Ty)
  | typeMismatch (op : Operator) (left : Ty) (right : Option Ty)
  | unknownClass (name : String)
  | unknownMethod (className method : String)
  | noParametersExpected (method : String)
  | argumentTypeMismatch (method param : String) (expected found : Ty)
  | incompatibleReturnType (method : String) (expected found : Ty)
  deriving DecidableEq

structure SemanticError where
  cause : SemanticCause
  span : Span
  deriving DecidableEq

namespace SemanticCause

def code : SemanticCause → String
  | .duplicateClass .. => "E200"
  | .unknownSuperclass .. => "E201"
  | .selfInheritance .. => "E202"
  | .unknownType .. => "E203"
  | .duplicateField .. => "E204"
  | .duplicateMethod .. => "E205"
  | .methodNamedLikeClass .. => "E206"
  | .duplicateParameter .. => "E207"
  | .duplicateLocal .. => "E208"
  | .returnTypeMismatch .. => "E209"
  | .arityMismatch .. => "E210"
  | .parameterTypeMismatch .. => "E211"
  | .unknownName .. => "E300"
  | .incompatibleTypes .. => "E301"
  | .invalidArrayType .. => "E302"
  | .invalidIndexType .. => "E303"
  | .invalidConditionType .. => "E304"
  | .typeMismatch .. => "E305"
  | .unknownClass .. => "E306"
  | .unknownMethod .. => "E307"
  | .noParametersExpected .. => "E308"
  | .argumentTypeMismatch .. => "E309"
  | .incompatibleReturnType .. => "E310"

def quote (text : String) : String := "'" ++ text ++ "'"

def message : SemanticCause → String
  | .duplicateClass name => "class " ++ quote name ++ " is already defined"
  | .unknownSuperclass className parent =>
    "superclass " ++ quote parent ++ " of class " ++ quote className ++ " does not exist"
  | .selfInheritance className => "class " ++ quote className ++ " cannot extend itself"
  | .unknownType type name => "invalid type " ++ quote type ++ " for " ++ quote name
  | .duplicateField className field =>
    "field " ++ quote field ++ " is already defined in class " ++ quote className
  | .duplicateMethod className method =>
    "method " ++ quote method ++ " is already defined in class " ++ quote className
  | .methodNamedLikeClass className =>
    "method " ++ quote className ++ " cannot have the same name as its class"
  | .duplicateParameter method param =>
    "parameter " ++ quote param ++ " is already defined in method " ++ quote method
  | .duplicateLocal method name =>
    "variable " ++ quote name ++ " is already defined in method " ++ quote method
  | .returnTypeMismatch method superclass expected found =>
    "method " ++ quote method ++ " returns " ++ quote found.text ++ " but overrides a method of " ++
      quote superclass ++ " returning " ++ quote expected.text
  | .arityMismatch method expected found =>
    "method " ++ quote method ++ " takes " ++ toString expected ++ " argument(s) but " ++
      toString found ++ " were given"
  | .parameterTypeMismatch method superclass position expected found =>
    "parameter " ++ toString position ++ " of method " ++ quote method ++ " is " ++
      quote found.text ++ " but the overridden method in " ++ quote superclass ++ " takes " ++
      quote expected.text
  | .unknownName name => "unknown name " ++ quote name
  | .incompatibleTypes expected found =>
    "incompatible types: expected " ++ quote expected.text ++ ", found " ++ quote found.text
  | .invalidArrayType found => "invalid array type " ++ quote found.text
  | .invalidIndexType found => "invalid index type " ++ quote found.text
  | .invalidConditionType statement found =>
    "invalid condition type " ++ quote found.text ++ " in " ++ statement.keyword ++ " statement"
  | .typeMismatch op left none =>
    "bad operand types for " ++ quote op.symbol ++ ": " ++ quote left.text
  | .typeMismatch op left (some right) =>
    "bad operand types for " ++ quote op.symbol ++ ": " ++ quote left.text ++ " and " ++
      quote right.text
  | .unknownClass name => quote name ++ " is not a declared class"
  | .unknownMethod className method =>
    "method " ++ quote method ++ " does not exist in class " ++ quote className ++
      " or its superclasses"
  | .noParametersExpected method => "method " ++ quote method ++ " does not take arguments"
  | .argumentTypeMismatch method param expected found =>
    "invalid type for argument " ++ quote param ++ " of method " ++ quote method ++ ": expected " ++
      quote expected.text ++ ", found " ++ quote found.text
  | .incompatibleReturnType method expected found =>
    "incompatible return type " ++ quote found.text ++ " for method " ++ quote method ++
      ", expected " ++ quote expected.text

def help? : SemanticCause → Option String
  | .unknownSuperclass _ parent =>
    some ("declare class " ++ quote parent ++ " before any class that extends it")
  | .returnTypeMismatch .. | .parameterTypeMismatch .. =>
    some "an overriding method must repeat the overridden signature exactly"
  | .incompatibleTypes (.object className) _ =>
    some ("only " ++ quote className ++ " or one of its subclasses can be assigned here")
  | .unknownName name =>
    some ("declare " ++ quote name ++ " as a local variable, a parameter or a field")
  | _ => none

end SemanticCause

def SemanticError.diagnostic (source : Source) (e : SemanticError) : Diagnostic :=
  Diagnostic.pointAt source e.span ""
    { level := .error, code := e.cause.code, message := e.cause.message, help := e.cause.help? }

end ClassCheck
