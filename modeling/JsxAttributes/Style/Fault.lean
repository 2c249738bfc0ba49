import JsxAttributes.Style.Position

/-!
Why a style text cannot be read, and where.
-/
namespace JsxAttributes.Style

inductive Cause where
  | colonMissing
  | commentUnclosed
  deriving DecidableEq

def Cause.message : Cause → String
  | .colonMissing => "property missing ':'"
  | .commentUnclosed => "End of comment missing"

structure Fault where
  cause : Cause
  position : Position
  deriving DecidableEq

def Fault.message (f : Fault) : String :=
  toString f.position.line ++ ":" ++ toString f.position.column ++ ": " ++ f.cause.message

end JsxAttributes.Style
