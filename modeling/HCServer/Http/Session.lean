import HCServer.Http.Request

/-! `HttpSession::recvRequest`, and `HttpServer::handleClient` as far as what it receives. -/
namespace HCServer.Http

/-- The configured size of the request buffer, the field `uri_relaxed` of a new parser and
`boost::lexical_cast<uint64_t>`. -/
structure SessionEnv where
  buffSize : Nat
  uriRelaxed : Bool
  lexicalCast : Bytes → Option UInt64

variable (env : SessionEnv)

def recvHead (parser : HttpRequestParser) (sock : Socket) :
    Received (HttpRequestParser × Bytes) :=
  recvLoop HttpRequestParser.incremental env.buffSize parser [] sock

theorem recvHead_cons {env : SessionEnv} {a : Arrival} {p p' : HttpRequestParser} {rest : Bytes}
    (hread : Socket.ready env.buffSize [a] = a.bytes.length)
    (hexec : p.execute a.bytes = some (p', rest)) (sock : Socket) :
    recvHead env p (a :: sock) =
      if p'.hasError then .closed
      else if (rest.length : Int) = toInt env.buffSize then .closed
      else if p'.isFinished then .got (p', rest) sock
      else recvLoop HttpRequestParser.incremental env.buffSize p' rest sock := by
  have hstep : HttpRequestParser.incremental.execute p a.bytes = some (p', rest) := hexec
  rw [recvHead, recvLoop_cons hread, hstep]
  rfl

def recvBody (length : Int) (rest : Bytes) (sock : Socket) : Received Bytes :=
  let first := if rest.length ≤ length then rest else rest.take length.toNat
  let left := length - rest.length
  if 0 < left then
    match readFixSize left.toNat sock with
    | none => .closed
    | some (more, sock') => if toInt left.toNat ≤ 0 then .closed else .got (first ++ more) sock'
  else .got first sock

/-- What follows the reading loop, from the parsed head and the bytes read after it. -/
def recvRest (parsed : Parsed) (rest : Bytes) (sock : Socket) : Received HttpRequest :=
  let length := (parsed.getContentLength env.lexicalCast).toInt64.toInt
  if 0 < length then
    (recvBody length rest sock).bind fun body sock =>
      .got { parsed.data with body := body }.init sock
  else .got parsed.data.init sock

def recvRequest (sock : Socket) : Received HttpRequest :=
  (recvHead env { uriRelaxed := env.uriRelaxed } sock).bind fun r sock =>
    recvRest env r.1.toParsed r.2 sock

theorem length_recvBody_le {length : Int} {rest body : Bytes} {sock sock' : Socket}
    (h : recvBody length rest sock = .got body sock') : sock'.bytes.length ≤ sock.bytes.length := by
  simp only [recvBody, readFixSize_eq] at h
  split at h
  · split at h
    · cases h
    · case h_2 more t hread =>
        split at h
        · cases h
        · cases h
          obtain ⟨_, heq⟩ := Option.ite_none_right_eq_some.mp hread
          cases heq
          rw [Socket.bytes_skip, List.length_drop]
          exact Nat.sub_le _ _
  · cases h
    exact le_refl _

theorem length_recvRest_le {parsed : Parsed} {rest : Bytes} {sock sock' : Socket}
    {req : HttpRequest} (h : recvRest env parsed rest sock = .got req sock') :
    sock'.bytes.length ≤ sock.bytes.length := by
  simp only [recvRest] at h
  split at h
  · obtain ⟨body, sock₁, hbody, h⟩ := Received.bind_eq_got h
    cases h
    exact length_recvBody_le hbody
  · cases h
    exact le_refl _

theorem length_recvRequest_lt {sock sock' : Socket} {req : HttpRequest}
    (h : recvRequest env sock = .got req sock') : sock'.bytes.length < sock.bytes.length := by
  obtain ⟨r, sock₁, hhead, h⟩ := Received.bind_eq_got h
  exact (length_recvRest_le env h).trans_lt (length_recvLoop_lt hhead)

/-- The requests that the loop receives, each with what is then still to be read. A null result or
an exception ends it. -/
def handleClient (isKeepalive : Bool) (sock : Socket) : List (HttpRequest × Socket) :=
  match _h : recvRequest env sock with
  | .closed => []
  | .thrown => []
  | .got req sock' =>
    (req, sock') :: if !isKeepalive || req.close then [] else handleClient isKeepalive sock'
termination_by sock.bytes.length
decreasing_by exact length_recvRequest_lt env ‹_›

end HCServer.Http
