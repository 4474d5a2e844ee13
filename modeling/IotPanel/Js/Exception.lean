/-!
# Exceptions

The HTTP exceptions that the program throws, with their texts. An `AppException` is known by
the code of its definition and its status.
-/

namespace IotPanel

inductive Exception
  | badRequest (message : String)
  | unauthorized (message : String)
  | forbidden (message : String)
  | notFound (message : String)
  | app (code : String) (status : Nat)
  | error (message : String)
  deriving DecidableEq, Repr

end IotPanel
