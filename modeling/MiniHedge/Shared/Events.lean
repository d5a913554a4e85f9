import MiniHedge.Python.Json

/-! The envelope of the domain events. -/

set_option autoImplicit false

namespace MiniHedge.Shared

open MiniHedge.Python

structure BaseEvent where
  eventId : String
  eventType : String
  eventVersion : Int := 1
  /-- As `isoformat` writes it. -/
  timestamp : String
  data : Parameters
  actorId : Option String := none
  actorType : Option String := none
  customerId : Option String := none
  fundSlug : Option String := none
  actedOnBehalfOf : Option String := none
  deriving DecidableEq, Repr

end MiniHedge.Shared
