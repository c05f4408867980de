import RuleService.Http.Call

namespace RuleService.Http

/-- A request with what comes of its body: pieces, or why no more of them come. -/
structure Arrival where
  method : String
  uri : Uri
  headers : Headers := []
  /-- The address of the client, empty if it is not known. -/
  ip : String := ""
  pieces : List (Except String ByteArray) := []
  deriving Inhabited

namespace Arrival

/-- A request whose body comes in one piece. -/
def ofCall (call : Call) : Arrival where
  method := call.method
  uri := call.uri
  headers := call.headers
  ip := call.ip
  pieces := [.ok call.body]

/-- The request once its body has been received. -/
def withBody (a : Arrival) (body : ByteArray) : Call where
  method := a.method
  uri := a.uri
  headers := a.headers
  ip := a.ip
  body := body

/-- What is said of a body above the limit. -/
def tooLong : String := "length limit exceeded"

/-- Takes pieces in after those that have been taken, as long as they stay within the limit. -/
def takeIn (limit : Nat) (taken : ByteArray) : List (Except String ByteArray) → Except String ByteArray
  | [] => .ok taken
  | .error why :: _ => .error why
  | .ok piece :: rest =>
    if limit < taken.size + piece.size then .error tooLong else takeIn limit (taken ++ piece) rest

/-- The body of a request, or why it is not received. -/
def body (a : Arrival) : Except String ByteArray := takeIn Call.bodyLimit ByteArray.empty a.pieces

theorem body_ofCall (call : Call) :
    (ofCall call).body = if Call.bodyLimit < call.body.size then .error tooLong else .ok call.body := by
  simp [body, ofCall, takeIn]

end Arrival

end RuleService.Http
