import HCServer.Http.Conversation
import HCServer.Uri.Print

/-! The requests that `HttpConnection::DoRequest` and `HttpConnectionPool::doRequest` make of what
their callers ask for, and the results. Headers are in the order of the caller's map. -/
namespace HCServer.Http
open Lib
open Uris (Uri)

/-! ### The request -/

/-- One round of the loop over the headers, with `has_host`. -/
def addHeader (s : HttpRequest × Bool) (i : Bytes × Bytes) : HttpRequest × Bool :=
  if strcasecmpEq i.1 (bytes "connection") then
    (if strcasecmpEq i.2 (bytes "keep-alive") then { s.1 with close := false } else s.1, s.2)
  else
    (s.1.setHeader i.1 i.2,
      if !s.2 && strcasecmpEq i.1 (bytes "host") then decide (i.2 ≠ []) else s.2)

/-- What follows the loop. -/
def addHost (host : Bytes) (s : HttpRequest × Bool) : HttpRequest :=
  if s.2 then s.1 else s.1.setHeader (bytes "Host") host

def addHeaders (req : HttpRequest) (headers : MapType) (host : Bytes) : HttpRequest :=
  addHost host (headers.foldl addHeader (req, false))

/-- The request of `HttpConnection::DoRequest`. -/
def connectionRequest (method : HttpMethod) (uri : Uri) (headers : MapType) (body : Bytes) :
    HttpRequest :=
  { addHeaders { method, path := uri.getPath, query := uri.query, fragment := uri.fragment }
      headers uri.host with body := body }

/-- The request of `HttpConnectionPool::doRequest`, to whose path the whole `url` goes. -/
def poolRequest (host vhost : Bytes) (method : HttpMethod) (url : Bytes) (headers : MapType)
    (body : Bytes) : HttpRequest :=
  { addHeaders { method, path := url, close := false } headers
      (if vhost = [] then host else vhost) with body := body }

/-- The headers that go into the request's map. -/
def keptHeaders (headers : MapType) : MapType :=
  headers.filter fun i => !strcasecmpEq i.1 (bytes "connection")

/-- The host headers of the caller, in any spelling. -/
def hostHeaders (headers : MapType) : MapType :=
  headers.filter fun i => strcasecmpEq i.1 (bytes "host")

/-- What the request's map is made of. -/
def sentHeaders (headers : MapType) (host : Bytes) : MapType :=
  keptHeaders headers ++
    if (hostHeaders headers).any fun i => decide (i.2 ≠ []) then [] else [(bytes "Host", host)]

/-- The caller asks for the connection to be kept. -/
def asksKeepAlive (headers : MapType) : Bool :=
  headers.any fun i => strcasecmpEq i.1 (bytes "connection") && strcasecmpEq i.2 (bytes "keep-alive")

theorem foldl_addHeader (headers : MapType) (req : HttpRequest) (hasHost : Bool) :
    headers.foldl addHeader (req, hasHost) =
      ({ req with
          close := req.close && !asksKeepAlive headers
          headers := (keptHeaders headers).foldl (fun m i => m.assign i.1 i.2) req.headers },
        hasHost || (hostHeaders headers).any fun i => decide (i.2 ≠ [])) := by
  have hapart : strcasecmpEq (bytes "connection") (bytes "host") = false := by decide
  induction headers generalizing req hasHost with
  | nil => simp [asksKeepAlive, keptHeaders, hostHeaders]
  | cons i headers ih =>
      rw [List.foldl_cons, addHeader]
      cases hconnection : strcasecmpEq i.1 (bytes "connection")
      · rw [if_neg Bool.false_ne_true, ih]
        cases hhost : strcasecmpEq i.1 (bytes "host")
        · simp [asksKeepAlive, keptHeaders, hostHeaders, hconnection, hhost, HttpRequest.setHeader]
        · cases hasHost
          all_goals
            simp [asksKeepAlive, keptHeaders, hostHeaders, hconnection, hhost,
              HttpRequest.setHeader]
      · have hhost : strcasecmpEq i.1 (bytes "host") = false := by
          rw [strcasecmpEq_congr hconnection, hapart]
        rw [if_pos rfl, ih]
        cases hkeep : strcasecmpEq i.2 (bytes "keep-alive")
        · simp [asksKeepAlive, keptHeaders, hostHeaders, hconnection, hhost, hkeep]
        · simp [asksKeepAlive, keptHeaders, hostHeaders, hconnection, hhost, hkeep]

/-- The loop and what follows it, at once. -/
theorem addHeaders_eq (req : HttpRequest) (headers : MapType) (host : Bytes) :
    addHeaders req headers host =
      { req with
        close := req.close && !asksKeepAlive headers
        headers := (sentHeaders headers host).foldl (fun m i => m.assign i.1 i.2) req.headers } := by
  rw [addHeaders, foldl_addHeader, addHost, sentHeaders, List.foldl_append, Bool.false_or]
  split
  · rfl
  · rfl

/-- The last header of that name in the caller's order. -/
def lastOf (headers : MapType) (key : Bytes) : Option Bytes :=
  (headers.filter fun i => strcasecmpEq i.1 key).getLast?.map Prod.snd

theorem find_reverse (headers : MapType) (key : Bytes) :
    MapType.find headers.reverse key = lastOf headers key := by
  rw [MapType.find, lastOf, List.getLast?_eq_head?_reverse, ← List.filter_reverse,
    List.head?_filter]

/-- What a receiver finds in the request under a name: never a connection, under `host` the default
if no host header has a text, and otherwise the last header given, even an empty one. -/
theorem find_addHeaders (req : HttpRequest) (hreq : req.headers = []) (headers : MapType)
    (host key : Bytes) :
    (addHeaders req headers host).headers.find key =
      if strcasecmpEq key (bytes "connection") then none
      else if strcasecmpEq key (bytes "host") ∧ ∀ i ∈ hostHeaders headers, i.2 = [] then some host
      else lastOf headers key := by
  have hkept : lastOf (keptHeaders headers) key =
      if strcasecmpEq key (bytes "connection") then none else lastOf headers key := by
    rw [lastOf, keptHeaders, List.filter_filter]
    split
    · case isTrue hkey =>
        have hnone : headers.filter (fun i => strcasecmpEq i.1 key &&
            !strcasecmpEq i.1 (bytes "connection")) = [] := by
          apply List.filter_eq_nil_iff.mpr
          intro i _
          rw [Bool.and_eq_true, Bool.not_eq_true', not_and_or, Bool.not_eq_true, Bool.not_eq_false]
          cases hname : strcasecmpEq i.1 key
          · exact Or.inl rfl
          · exact Or.inr ((strcasecmpEq_congr hname _).trans hkey)
        rw [hnone]
        rfl
    · case isFalse hkey =>
        have hsame : headers.filter (fun i => strcasecmpEq i.1 key &&
            !strcasecmpEq i.1 (bytes "connection")) =
            headers.filter fun i => strcasecmpEq i.1 key := by
          apply List.filter_congr
          intro i _
          cases hname : strcasecmpEq i.1 key
          · rfl
          · rw [strcasecmpEq_congr hname, Bool.eq_false_of_not_eq_true hkey]
            rfl
        rw [hsame, lastOf]
  have hany : ((hostHeaders headers).any fun i => decide (i.2 ≠ [])) = true ↔
      ¬ ∀ i ∈ hostHeaders headers, i.2 = [] := by
    simp [List.any_eq_true]
  have hnil : MapType.find req.headers key = none := by
    rw [hreq]
    rfl
  rw [addHeaders_eq, MapType.find_foldl_assign, hnil, Option.or_none, sentHeaders,
    List.reverse_append, MapType.find_append, find_reverse (keptHeaders headers), hkept]
  by_cases hnone : ∀ i ∈ hostHeaders headers, i.2 = []
  · rw [if_neg (fun h => hany.mp h hnone), List.reverse_singleton, MapType.find_cons,
      strcasecmpEq_comm (bytes "Host")]
    have hspelling : strcasecmpEq key (bytes "Host") = strcasecmpEq key (bytes "host") := by
      rw [strcasecmpEq_comm, strcasecmpEq_comm key]
      exact strcasecmpEq_congr (by decide) key
    have hapart (hkey : strcasecmpEq key (bytes "host") = true) :
        strcasecmpEq key (bytes "connection") = false := by
      rw [strcasecmpEq_congr hkey]
      decide
    rw [hspelling]
    cases hkey : strcasecmpEq key (bytes "host")
    · simp [MapType.find]
    · rw [if_pos rfl, Option.some_or, hapart hkey, if_neg Bool.false_ne_true, if_pos ⟨rfl, hnone⟩]
  · have hgiven : ¬ (strcasecmpEq key (bytes "host") = true ∧
        ∀ i ∈ hostHeaders headers, i.2 = []) := fun h => hnone h.2
    have hnothing : MapType.find [] key = none := rfl
    rw [if_pos (hany.mpr hnone), List.reverse_nil, hnothing, Option.none_or, if_neg hgiven]

/-- What the map of a request may hold. -/
structure SendableHeaders (m : MapType) : Prop where
  plain : ∀ i ∈ m, PlainField i
  distinct : m.Pairwise Apart
  reserved : ∀ i ∈ m, strcasecmpEq i.1 (bytes "connection") = false ∧
    strcasecmpEq i.1 (bytes "content-length") = false

theorem SendableHeaders.assign {m : MapType} (h : SendableHeaders m) {i : Bytes × Bytes}
    (hplain : PlainField i) (hreserved : strcasecmpEq i.1 (bytes "connection") = false ∧
      strcasecmpEq i.1 (bytes "content-length") = false) :
    SendableHeaders (m.assign i.1 i.2) := by
  refine ⟨?_, MapType.assign_apart h.distinct _ _, ?_⟩
  · intro j hj
    obtain hj | ⟨hvalue, hj | ⟨e, he, hj⟩⟩ := MapType.mem_assign hj
    · exact h.plain j hj
    · rw [show j = i from Prod.ext hj hvalue]
      exact hplain
    · have hname := h.plain e he
      refine ⟨hj ▸ hname.name_ne, hj ▸ hname.name, ?_, ?_, ?_⟩
      · rw [hvalue]
        exact hplain.value_ne
      · rw [hvalue]
        exact hplain.start
      · rw [hvalue]
        exact hplain.value
  · intro j hj
    obtain hj | ⟨_, hj | ⟨e, he, hj⟩⟩ := MapType.mem_assign hj
    · exact h.reserved j hj
    · rw [hj]
      exact hreserved
    · rw [← hj]
      exact h.reserved e he

theorem SendableHeaders.foldl {is m : MapType} (h : SendableHeaders m)
    (hplain : ∀ i ∈ is, PlainField i)
    (hreserved : ∀ i ∈ is, strcasecmpEq i.1 (bytes "connection") = false ∧
      strcasecmpEq i.1 (bytes "content-length") = false) :
    SendableHeaders (is.foldl (fun m i => m.assign i.1 i.2) m) := by
  induction is generalizing m with
  | nil => exact h
  | cons i is ih =>
      have hfirst := h.assign (hplain i List.mem_cons_self) (hreserved i List.mem_cons_self)
      exact ih hfirst (fun j hj => hplain j (List.mem_cons_of_mem i hj))
        fun j hj => hreserved j (List.mem_cons_of_mem i hj)

namespace HttpResult

inductive Error
  | ok | invalidUrl | invalidHost | connectFail | sendCloseByPeer | sendSocketError | timeout
  | createSocketError | poolGetConnection | poolInvalidConnection
  deriving DecidableEq, Repr

/-- `(int)`, the number of the enumerator. -/
def Error.toInt : Error → Int
  | .ok => 0
  | .invalidUrl => 1
  | .invalidHost => 2
  | .connectFail => 3
  | .sendCloseByPeer => 4
  | .sendSocketError => 5
  | .timeout => 6
  | .createSocketError => 7
  | .poolGetConnection => 8
  | .poolInvalidConnection => 9

end HttpResult

structure HttpResult where
  result : Int
  response : Option HttpResponse
  error : Bytes
  deriving DecidableEq, Repr

namespace HttpResult

def fail (e : Error) (error : Bytes) : HttpResult := ⟨e.toInt, none, error⟩

def ofResponse (rsp : HttpResponse) : HttpResult := ⟨Error.ok.toInt, some rsp, bytes "ok"⟩

end HttpResult

/-- What a call writes, if it comes to that, and what it returns; `none` is an exception. -/
structure Call where
  written : Option Bytes
  result : Option HttpResult

/-- What a request meets: the text of the address that its host has, how the socket fares, what
`writeFixSize` returns, and what the peer sends. -/
structure Attempt where
  addr : Option Bytes
  created : Bool
  connected : Bool
  sent : Int
  errno : Int
  strerror : Bytes
  down : Socket

namespace Attempt
variable (a : Attempt)

def errnoText : Bytes :=
  bytes " errno=" ++ numberString a.errno ++ bytes " errstr=" ++ a.strerror

/-- From `sendRequest` on, which `DoRequest` and the pool do alike but for the text of an error. -/
def exchange (client : ConnectionEnv) (req : HttpRequest) (addr : Bytes) (timeout_ms : Nat) : Call :=
  ⟨some req.dump,
    if a.sent = 0 then
      some (.fail .sendCloseByPeer (bytes "send request closed by peer: " ++ addr))
    else if a.sent < 0 then
      some (.fail .sendSocketError (bytes "send request socket error" ++ a.errnoText))
    else
      match recvResponse client a.down with
      | .thrown => none
      | .closed => some (.fail .timeout
          (bytes "recv response timeout: " ++ addr ++ bytes " timeout_ms:" ++ decimal timeout_ms))
      | .got (rsp, _) _ => some (.ofResponse rsp)⟩

/-- `HttpConnection::DoRequest` of a request. -/
def doRequest (client : ConnectionEnv) (req : HttpRequest) (uri : Uri) (timeout_ms : Nat) : Call :=
  match a.addr with
  | none => ⟨none, some (.fail .invalidHost (bytes "invalid host: " ++ uri.host))⟩
  | some addr =>
    if !a.created then
      ⟨none, some (.fail .createSocketError (bytes "create socket fail: " ++ addr ++ a.errnoText))⟩
    else if !a.connected then
      ⟨none, some (.fail .connectFail (bytes "connect fail: " ++ addr))⟩
    else a.exchange client req addr timeout_ms

/-- `HttpConnection::DoRequest` of a text, and with it `DoGet` and `DoPost`. -/
def doRequestUrl (client : ConnectionEnv) (method : HttpMethod) (url : Bytes) (timeout_ms : Nat)
    (headers : MapType) (body : Bytes) : Call :=
  match Uri.create url with
  | .raised => ⟨none, none⟩
  | .null => ⟨none, some (.fail .invalidUrl (bytes "invalid url: " ++ url))⟩
  | .uri uri =>
    a.doRequest client (connectionRequest method uri headers body) uri timeout_ms

/-- `HttpConnectionPool::doRequest` with what `getConnection` returns: nothing, or a connection whose
socket may be null. The pool has the host and the port. -/
def poolDoRequest (client : ConnectionEnv) (host : Bytes) (port : Nat) (connection : Option Bool)
    (req : HttpRequest) (addr : Bytes) (timeout_ms : Nat) : Call :=
  let pool := bytes "pool host:" ++ host ++ bytes " port:" ++ decimal port
  match connection with
  | none => ⟨none, some (.fail .poolGetConnection pool)⟩
  | some false => ⟨none, some (.fail .poolInvalidConnection pool)⟩
  | some true => a.exchange client req addr timeout_ms

end Attempt

/-- What the two kinds of request carry under a name, whatever the caller's headers are: no connection
header of theirs, the default host unless a host header has a text, and else the last header given,
which for `host` may be an empty one behind one with a text. -/
theorem request_headers (method : HttpMethod) (uri : Uri) (headers : MapType)
    (body host vhost url key : Bytes) :
    (connectionRequest method uri headers body).headers.find key =
        (if strcasecmpEq key (bytes "connection") then none
        else if strcasecmpEq key (bytes "host") ∧ ∀ i ∈ hostHeaders headers, i.2 = [] then
          some uri.host
        else lastOf headers key) ∧
      (poolRequest host vhost method url headers body).headers.find key =
        (if strcasecmpEq key (bytes "connection") then none
        else if strcasecmpEq key (bytes "host") ∧ ∀ i ∈ hostHeaders headers, i.2 = [] then
          some (if vhost = [] then host else vhost)
        else lastOf headers key) :=
  ⟨find_addHeaders _ rfl headers uri.host key, find_addHeaders _ rfl headers _ key⟩

namespace Client
open RoundTrip Conversation

def uri : Uri := { scheme := bytes "http", host := bytes "h", query := bytes "q=1" }

def headers : MapType :=
  [(bytes "Accept", bytes "text/html"), (bytes "Connection", bytes "Keep-Alive")]

def request : HttpRequest := connectionRequest .get uri headers []

def attempt : Attempt :=
  { addr := some (bytes "1.2.3.4:80"), created := true, connected := true, sent := 1, errno := 0,
    strerror := [], down := [⟨(answer 0x11 false (bytes "q=1")).dump, by decide⟩] }

def up : Socket := [⟨request.dump, by decide⟩]

end Client
end HCServer.Http
