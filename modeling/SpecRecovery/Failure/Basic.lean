import SpecRecovery.Abi.Spelling
import SpecRecovery.Machine.Program
import SpecRecovery.Machine.Rendering
import SpecRecovery.Spec.Expression
import SpecRecovery.Spec.Rendering
import SpecRecovery.Verification.Outcome

namespace SpecRecovery

inductive StorageError
  | symbolicKey (key : Machine.Expr)
  | unknownSlot (slot : Word)
  | packedSlot (slot : Word) (names : List String)
  | mappingSlot (slot : Word) (name : String)
  | unsupportedSlotType (name : String) (type : AbiType)
  | overlappingVariables (first second : String)
deriving DecidableEq

def StorageError.message : StorageError → String
  | symbolicKey key =>
      "Write to symbolic storage key " ++ key.render ++ " cannot be separated from other writes"
  | unknownSlot slot => "No storage variable is declared at slot " ++ slot.text
  | packedSlot slot names =>
      "Slot " ++ slot.text ++ " holds packed variables " ++
        Text.bracketed (names.map Text.quoted)
  | mappingSlot slot name => "Slot " ++ slot.text ++ " holds the mapping " ++ name
  | unsupportedSlotType name type =>
      "Storage variable " ++ name ++ " has unsupported type " ++ type.text
  | overlappingVariables first second =>
      "Storage variables " ++ first ++ " and " ++ second ++ " are declared at the same position"

inductive LiftingError
  | unsupportedExpr (expr : Machine.Expr)
  | unsupportedRead (expr : Machine.Expr)
  | signedOperand (expr : Machine.Expr)
  | signedComparison (cond : Machine.Cond)
  | nonWordComparison (cond : Machine.Cond)
  | unknownVariable (name : String)
  | unsupportedVariableType (name : String) (type : AbiType)
  | storage (error : StorageError)
deriving DecidableEq

def LiftingError.message : LiftingError → String
  | unsupportedExpr expr => "Unsupported term " ++ expr.render
  | unsupportedRead expr => "Unsupported storage read " ++ expr.render
  | signedOperand expr => "Unsigned operation " ++ expr.render ++ " reads a signed value"
  | signedComparison cond => "Unsigned comparison " ++ cond.render ++ " reads a signed value"
  | nonWordComparison cond => "Comparison between non-word terms " ++ cond.render
  | unknownVariable name => "Unknown calldata variable " ++ name
  | unsupportedVariableType name type =>
      "Calldata variable " ++ name ++ " has unsupported type " ++ type.text
  | storage error => error.message

inductive ExplorationError
  | unfinished (branches : List String)
  | dynamicArgument (name : String) (type : AbiType)
  | unsupportedArgument (name : String) (type : AbiType)
  | engine (reason : String)
deriving DecidableEq

def ExplorationError.message : ExplorationError → String
  | unfinished branches =>
      "Exploration was incomplete on " ++ toString branches.length ++ " branches: " ++
        Text.bracketed (branches.map Text.quoted)
  | dynamicArgument name type => "Argument " ++ name ++ " has dynamically sized type " ++ type.text
  | unsupportedArgument name type => "Argument " ++ name ++ " has unsupported type " ++ type.text
  | engine reason => "Symbolic execution failed: " ++ reason

inductive AssemblyError
  | foreignWrite (address : Machine.Address)
  | creationBranchCount (count : Nat)
  | dynamicReturn (type : AbiType)
  | tupleReturn (type : AbiType)
  | functionReturn
  | arrayReturn (type : AbiType)
  | multipleReturns (count : Nat)
  | unsupportedReturnBuffer (buffer : Machine.Buffer)
deriving DecidableEq

def AssemblyError.message : AssemblyError → String
  | foreignWrite address =>
      "Storage of " ++ address.text ++
        " is written, but only the entrypoint contract may be written"
  | creationBranchCount count =>
      "Creation code has " ++ toString count ++
        " successful branches, but exactly one is supported"
  | dynamicReturn type => "Unsupported dynamically sized return of type " ++ type.text
  | tupleReturn type => "Unsupported tuple return of type " ++ type.text
  | functionReturn => "Unsupported function pointer return"
  | arrayReturn type => "Unsupported multi-word array return of type " ++ type.text
  | multipleReturns count => "Unsupported return of " ++ toString count ++ " values"
  | unsupportedReturnBuffer buffer => "Cannot read a return word from " ++ buffer.render

inductive Unevaluable
  | abstractBuffer (name : String)
  | distantWrite
  | incomparable (cond : Machine.Cond)
  | noRange (type : AbiType)
  | distinctTerms (kind : Spec.Kind)
  | negativeExponent (exponent : Int)
  | largeExponent (exponent : Int)
deriving DecidableEq

def Unevaluable.message : Unevaluable → String
  | abstractBuffer name => "abstract buffer " ++ name
  | distantWrite => "buffer write beyond the maximum offset"
  | incomparable cond => "comparison " ++ cond.render
  | noRange type => "no integer range for " ++ type.text
  | distinctTerms kind => kind.name ++ " equality between distinct terms"
  | negativeExponent exponent => "negative exponent " ++ Text.integerText exponent
  | largeExponent exponent => "exponent " ++ Text.integerText exponent ++ " is too large"

inductive Uncompilable
  | unequatable (left right : Spec.IntExpr)
  | equationKind (kind : Spec.Kind)
  | noRange (type : AbiType)
  | powerRange (expr : Spec.IntExpr)
  | compoundRange (expr : Spec.IntExpr)
  | signedOperand (expr : Spec.Expr)
  | foreignItem (item : Spec.StorageItem) (contract : String)
  | noSlot (item : Spec.StorageItem)
  | noPostState
  | nonWordComparison
deriving DecidableEq

def Uncompilable.message : Uncompilable → String
  | unequatable left right =>
      "word equality of " ++ left.text ++ " and " ++ right.text ++
        " differs from their integer equality"
  | equationKind kind => kind.name ++ " equality has no word representation"
  | noRange type => type.text ++ " has no integer range"
  | powerRange expr => "range of the exponentiation " ++ expr.text
  | compoundRange expr => "range of the compound expression " ++ expr.text
  | signedOperand expr => "unsigned reading of a signed operand in " ++ expr.text
  | foreignItem item contract => item.text ++ " is not storage of " ++ contract
  | noSlot item => item.text ++ " has no slot"
  | noPostState => "post-state read without a post-state"
  | nonWordComparison => "comparison of terms that are not words"

inductive VerificationError
  | counterexample (found : Counterexample)
  | missingSelectors (selectors : List Selector)
  | uncompilable (reason : Uncompilable)
  | literalOutOfRange (value : Int)
  | unevaluable (reason : Unevaluable)
  | solver (reason : String)
deriving DecidableEq

def VerificationError.message : VerificationError → String
  | counterexample found => "Specification disagrees with the bytecode: " ++ found.text
  | missingSelectors selectors =>
      "Runtime code dispatches selectors that no behaviour covers: " ++
        Text.commaList (selectors.map Selector.text)
  | uncompilable reason => "Cannot compile specification: " ++ reason.message
  | literalOutOfRange value => "Literal " ++ Text.integerText value ++ " does not fit in a word"
  | unevaluable reason => "Cannot evaluate: " ++ reason.message
  | solver reason => "Solver failed: " ++ reason

inductive Failure
  | exploration (error : ExplorationError)
  | storage (error : StorageError)
  | lifting (error : LiftingError)
  | assembly (error : AssemblyError)
  | verification (error : VerificationError)
  | other (reason : String)
deriving DecidableEq

def Failure.message : Failure → String
  | exploration error => error.message
  | storage error => error.message
  | lifting error => error.message
  | assembly error => error.message
  | verification error => error.message
  | other reason => "Unknown Error: " ++ Text.quoted reason

end SpecRecovery
