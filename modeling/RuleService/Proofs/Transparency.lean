import RuleService.Equipment
import RuleService.Http.AccessLog

namespace RuleService.Http

namespace Arrival

variable {limit : Nat} {taken body : ByteArray} {a : Arrival} {parts : List ByteArray}

/-- The body comes in these parts. -/
def ComesIn (a : Arrival) (parts : List ByteArray) : Prop := a.pieces = parts.map .ok

/-- Parts one after the other. -/
def whole (parts : List ByteArray) : ByteArray := parts.foldl (· ++ ·) ByteArray.empty

theorem le_size_foldl (taken : ByteArray) (parts : List ByteArray) :
    taken.size ≤ (parts.foldl (· ++ ·) taken).size := by
  induction parts generalizing taken with
  | nil => exact Nat.le_refl _
  | cons part parts ih =>
    have more := ih (taken ++ part)
    rw [ByteArray.size_append] at more
    exact Nat.le_trans (Nat.le_add_right ..) more

theorem takeIn_parts (limit : Nat) (taken : ByteArray) (parts : List ByteArray)
    (fits : taken.size ≤ limit) :
    takeIn limit taken (parts.map .ok) =
      if limit < (parts.foldl (· ++ ·) taken).size then .error tooLong
      else .ok (parts.foldl (· ++ ·) taken) := by
  induction parts generalizing taken with
  | nil => simp [takeIn, Nat.not_lt.mpr fits]
  | cons part parts ih =>
    rw [List.map_cons, takeIn, List.foldl_cons]
    by_cases large : limit < taken.size + part.size
    · have larger : limit < (parts.foldl (· ++ ·) (taken ++ part)).size := by
        refine Nat.lt_of_lt_of_le ?_ (le_size_foldl ..)
        rwa [ByteArray.size_append]
      rw [if_pos large, if_pos larger]
    · rw [if_neg large, ih _ (by rw [ByteArray.size_append]; omega)]

/-- What is taken in stays within the limit. -/
theorem size_takeIn {pieces : List (Except String ByteArray)} (fits : taken.size ≤ limit)
    (received : takeIn limit taken pieces = .ok body) : body.size ≤ limit := by
  induction pieces generalizing taken with
  | nil =>
    obtain rfl := Except.ok.inj received
    exact fits
  | cons piece pieces ih =>
    cases piece with
    | error why => cases received
    | ok piece =>
      rw [takeIn] at received
      split at received
      · cases received
      · exact ih (by rw [ByteArray.size_append]; omega) received

theorem body_of_comesIn (comes : a.ComesIn parts) :
    a.body = if Call.bodyLimit < (whole parts).size then .error tooLong else .ok (whole parts) := by
  rw [body, comes]
  exact takeIn_parts _ _ _ (Nat.zero_le _)

/-- A body that has been received is received again when it is given on. -/
theorem body_given_on (received : a.body = .ok body) :
    { a with pieces := [.ok body] : Arrival }.body = .ok body := by
  have fits : body.size ≤ Call.bodyLimit := size_takeIn (Nat.zero_le _) received
  exact (body_ofCall (a.withBody body)).trans (if_neg (Nat.not_lt.mpr fits))

end Arrival

theorem Reply.status_finish (method : String) (r : Reply) : (r.finish method).status = r.status := by
  have length : r.withLength.status = r.status := by
    unfold withLength
    split <;> rfl
  unfold finish
  split
  · rfl
  · split <;> exact length

namespace Server

variable {server : Server} {setup : Setup} {time time' : String} {a : Arrival} {accessLog : Bool}
  {parts : List ByteArray}

theorem finish_passOn (method : String) (r : Reply) :
    (passOn method r).finish method = r.finish method := by
  unfold passOn
  split
  · next tunnel => simp [Reply.finish, tunnel]
  · rfl

/-- The service answers a request that the log gives on as it answers the request itself. -/
theorem receive_given_on {body : ByteArray} (received : a.body = .ok body) :
    receive server setup time { a with pieces := [.ok body] } = receive server setup time a := by
  simp only [receive, received, Arrival.body_given_on received]
  rfl

/-- Whether the log is on or off, a request is received, and the reply is made ready for its method. -/
theorem respond_eq (server : Server) (accessLog : Bool) (setup : Setup) (time : String) (a : Arrival) :
    (respond server accessLog setup time a).1 = (receive server setup time a).1.finish a.method ∧
      (respond server accessLog setup time a).2.1 = (receive server setup time a).2 := by
  cases accessLog with
  | false => exact ⟨rfl, rfl⟩
  | true =>
    cases received : a.body with
    | error why => simp [respond, answerLogged, logged, receive, received]
    | ok body =>
      simp [respond, answerLogged, logged, received, receive_given_on received, finish_passOn]

theorem receive_of_comesIn (comes : a.ComesIn parts) :
    receive server setup time a =
      if Call.bodyLimit < (Arrival.whole parts).size then (tooLarge, server)
      else handle server setup time (a.withBody (Arrival.whole parts)) := by
  rw [receive, Arrival.body_of_comesIn comes]
  by_cases large : Call.bodyLimit < (Arrival.whole parts).size
  · rw [if_pos large, if_pos large]
    rfl
  · rw [if_neg large, if_neg large]

/-- Replies to a request that differ at most in when the server was asked to stop. -/
inductive SameButTime (server : Server) (a : Arrival) : Reply → Reply → Prop
  | same (r : Reply) : SameButTime server a r r
  | stop (asked : purpose server.service a.method a.uri.path = .stop) (time time' : String) :
      SameButTime server a ((stopReply time).finish a.method) ((stopReply time').finish a.method)

/-- The time goes into the reply that the server stops, and nowhere else. -/
theorem receive_time (server : Server) (setup : Setup) (a : Arrival) (time time' : String) :
    SameButTime server a ((receive server setup time a).1.finish a.method)
        ((receive server setup time' a).1.finish a.method) ∧
      (receive server setup time a).2 = (receive server setup time' a).2 := by
  cases received : a.body with
  | error why =>
    simp only [receive, received]
    exact ⟨.same _, trivial⟩
  | ok body =>
    simp only [receive, received, handle]
    cases asked : purpose server.service a.method a.uri.path with
    | stop =>
      simp only [Arrival.withBody, asked]
      exact ⟨.stop asked _ _, trivial⟩
    | _ =>
      simp only [Arrival.withBody, asked]
      exact ⟨.same _, trivial⟩

/-- The replies to requests that come one after the other, and the server after them. -/
def session (accessLog : Bool) (server : Server) :
    List (Setup × String × Arrival) → List Reply × Server
  | [] => ([], server)
  | (setup, time, a) :: rest =>
    let (reply, server, _) := respond server accessLog setup time a
    let (replies, server) := session accessLog server rest
    (reply :: replies, server)

theorem session_accessLog (accessLog : Bool) (server : Server)
    (requests : List (Setup × String × Arrival)) :
    session accessLog server requests = session false server requests := by
  induction requests generalizing server with
  | nil => rfl
  | cons request rest ih =>
    obtain ⟨setup, time, a⟩ := request
    obtain ⟨reply, after⟩ := respond_eq server accessLog setup time a
    obtain ⟨reply', after'⟩ := respond_eq server false setup time a
    simp only [session, reply, after, reply', after', ih]

/-- What it is for the access log to make no difference: with it and without it requests get the same
replies and leave the same server. One that is too large is refused before anything else, and all others
are handled with the whole of their bodies. -/
structure Transparent (server : Server) (setup : Setup) (a : Arrival) : Prop where
  same : ∀ time, (respond server true setup time a).1 = (respond server false setup time a).1 ∧
    (respond server true setup time a).2.1 = (respond server false setup time a).2.1
  sameButTime : ∀ time time', SameButTime server a (respond server true setup time a).1
      (respond server false setup time' a).1 ∧
    (respond server true setup time a).2.1 = (respond server false setup time' a).2.1
  refused : ∀ parts, a.ComesIn parts → Call.bodyLimit < (Arrival.whole parts).size →
    ∀ accessLog time,
      (respond server accessLog setup time a).1 = tooLarge.finish a.method ∧
      (respond server accessLog setup time a).1.status = 413 ∧
      (respond server accessLog setup time a).2.1 = server
  handled : ∀ parts, a.ComesIn parts → (Arrival.whole parts).size ≤ Call.bodyLimit →
    ∀ accessLog time,
      (respond server accessLog setup time a).1 =
        (handle server setup time (a.withBody (Arrival.whole parts))).1.finish a.method ∧
      (respond server accessLog setup time a).2.1 =
        (handle server setup time (a.withBody (Arrival.whole parts))).2
  sessions : ∀ requests, session true server requests = session false server requests

/-- Every request is answered with the access log as without it. -/
theorem respond_transparent (server : Server) (setup : Setup) (a : Arrival) :
    Transparent server setup a := by
  constructor
  case same =>
    intro time
    obtain ⟨reply, after⟩ := respond_eq server true setup time a
    exact ⟨reply, after⟩
  case sameButTime =>
    intro time time'
    obtain ⟨reply, after⟩ := respond_eq server true setup time a
    obtain ⟨reply', after'⟩ := respond_eq server false setup time' a
    rw [reply, after, reply', after']
    exact receive_time server setup a time time'
  case refused =>
    intro parts comes large accessLog time
    obtain ⟨reply, after⟩ := respond_eq server accessLog setup time a
    rw [reply, after, receive_of_comesIn comes, Reply.status_finish, if_pos large]
    exact ⟨rfl, rfl, rfl⟩
  case handled =>
    intro parts comes fits accessLog time
    obtain ⟨reply, after⟩ := respond_eq server accessLog setup time a
    rw [reply, after, receive_of_comesIn comes, if_neg (Nat.not_lt.mpr fits)]
    exact ⟨rfl, rfl⟩
  case sessions => exact session_accessLog true server

/-- A setup without files, objects and pages. -/
def bareSetup : Setup where
  host := Equipment.host { objects := fun path => .error (.fileNotFound path) }

/-- A request for the head of the page that stops the server, with a body in two parts. -/
def stopRequest : Arrival where
  method := "HEAD"
  uri := ⟨"/_stop", none, some "/_stop"⟩
  pieces := [.ok "no".toUTF8, .ok "w".toUTF8]

theorem respond_transparent_stopping :
    stopRequest.ComesIn ["no".toUTF8, "w".toUTF8] ∧
    (Arrival.whole ["no".toUTF8, "w".toUTF8]).size ≤ Call.bodyLimit ∧
    (respond {} true bareSetup "noon" stopRequest).1 = (respond {} false bareSetup "noon" stopRequest).1 ∧
    (respond {} true bareSetup "noon" stopRequest).1.body = "" ∧
    (respond {} true bareSetup "noon" stopRequest).2.1.stopping = true := by
  have transparent := respond_transparent {} bareSetup stopRequest
  have comes : stopRequest.ComesIn ["no".toUTF8, "w".toUTF8] := rfl
  have fits : (Arrival.whole ["no".toUTF8, "w".toUTF8]).size ≤ Call.bodyLimit := by decide +kernel
  obtain ⟨reply, after⟩ := transparent.handled _ comes fits true "noon"
  refine ⟨comes, fits, (transparent.same "noon").1, ?_, ?_⟩
  · rw [reply]
    decide +kernel
  · rw [after]
    decide +kernel

end Server

end RuleService.Http
