/-!
# References to callables

What a wiring directive points at is code of the host program. A reference names it: a member of
the service locator, a class whose instance is called, or a static method of a class.
-/

namespace WiredGraph

/-- A name for code of the host program. -/
inductive CallableRef where
  | service (name : String)
  | constructor (className : String)
  | staticMethod (className method : String)
deriving DecidableEq, Repr

namespace CallableRef

/-- How messages name a callable. -/
def text : CallableRef → String
  | .service name => s!"service `{name}`"
  | .constructor className => s!"new `{className}`"
  | .staticMethod className method => s!"`{className}::{method}`"

end CallableRef

end WiredGraph
