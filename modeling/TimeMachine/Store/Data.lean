import TimeMachine.Store.ID

/-!
# The stored message

What a `Save` puts into the database is the serialised `Data` message. The
serialiser is the generated protobuf code; the program relies on it only through
the law that parsing recovers the message that was serialised.
-/

namespace TimeMachine.Store
open TimeMachine.Base

/-- The `Data` message: an optional identifier and the payload; `timeMachine_pb2.py`,
descriptor `Data`. -/
structure Data where
  id : Option ID := none
  data : Bytes := []
  deriving DecidableEq, Repr

/-- Generated protobuf code for `Data`. `parseFromString` is the message left behind by
`ParseFromString`, whose result the program never looks at. -/
structure Protobuf where
  serializeAsString : Data → Bytes
  parseFromString : Bytes → Data
  parse_serialize : ∀ d, parseFromString (serializeAsString d) = d

end TimeMachine.Store
