import Mathlib.Tactic.Common

/-!
# The error handler

`Error` keeps the last reported text; `get_error` of the classes reads it and clears it.
-/

namespace RealTimeTransfer

/-- the class `Error` -/
structure Error where
  isError : Bool
  errorMsg : String
  ownerIdentifier : String
  deriving DecidableEq, Repr

namespace Error

/-- the constructor -/
def construct (ownerIdentifier : String) : Error := ⟨false, "", ownerIdentifier⟩

def setError (e : Error) (msg : String) : Error := { e with errorMsg := msg, isError := true }

def getError (e : Error) : String := e.errorMsg

def clearError (e : Error) : Error := { e with isError := false, errorMsg := "" }

/-- `get_error` of a class that owns the handler: the text, and the handler cleared -/
def take (e : Error) : String × Error := (e.getError, e.clearError)

end Error
end RealTimeTransfer
