import ResourceEngine.Value.Kind

/-!
# Errors

An error has a kind, which fixes the response status, a message, and possibly a cause. The message
of an internal error is kept from the public.
-/

namespace ResourceEngine

/-- The kind of an error. -/
inductive ErrorKind where
  | badRequest
  | forbidden
  | notFound
  | internal
  deriving DecidableEq, Inhabited

namespace ErrorKind

def all : List ErrorKind := [.badRequest, .forbidden, .notFound, .internal]

def name : ErrorKind → String
  | .badRequest => "bad request"
  | .forbidden => "forbidden"
  | .notFound => "not found"
  | .internal => "internal error"

/-- The response status of errors of the kind. -/
def status : ErrorKind → Nat
  | .badRequest => 400
  | .forbidden => 403
  | .notFound => 404
  | .internal => 500

end ErrorKind

/-- What lies behind an error: a failed conversion, another error of the engine known by its text,
or an error of a component outside it. -/
inductive Cause where
  | coercion (failure : CoercionFailure)
  | error (text : String)
  | foreign
  deriving DecidableEq

/-- What a caller is told when something fails. -/
structure Error where
  kind : ErrorKind
  message : String
  cause : Option Cause
  deriving DecidableEq

namespace Error

def badRequest (message : String) : Error := ⟨.badRequest, message, none⟩

def notFound (message : String) : Error := ⟨.notFound, message, none⟩

def internal (message : String) : Error := ⟨.internal, message, none⟩

/-- The kind and the message. -/
def text (e : Error) : String := e.kind.name ++ ": " ++ e.message

def status (e : Error) : Nat := e.kind.status

/-- The message that may be shown to a client. -/
def publicMessage (e : Error) : String :=
  match e.kind with
  | .internal => ErrorKind.internal.name
  | _ => e.message

def isNotFound (e : Error) : Bool := e.kind == .notFound

/-- The same error with another message; the cause stays. -/
def withMessage (e : Error) (message : String) : Error := { e with message := message }

/-- The same error with another error as its cause. -/
def withCause (e cause : Error) : Error := { e with cause := some (.error cause.text) }

end Error

/-- A failure reported by the database driver. -/
inductive DriverFailure where
  | noRows
  | interrupted
  | other (text : String)

/-- The error a driver failure becomes. -/
def DriverFailure.error : DriverFailure → Error
  | .noRows => ⟨.notFound, "no rows in result set", some .foreign⟩
  | .interrupted => ⟨.internal, "execution cancelled", some .foreign⟩
  | .other text => ⟨.internal, text, some .foreign⟩

end ResourceEngine
