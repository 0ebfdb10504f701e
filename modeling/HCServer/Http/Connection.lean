import HCServer.Http.Session
import HCServer.Http.Response

/-! `HttpConnection::recvResponse`. The two branches for a `content-encoding` have lost their code
and do nothing. -/
namespace HCServer.Http

/-- The configured size of the response buffer, which the loops compare as an `int`, and
`boost::lexical_cast<uint64_t>`. -/
structure ConnectionEnv where
  buffSize : Nat
  buffSize_lt : buffSize < 2 ^ 31
  lexicalCast : Bytes → Option UInt64

variable (env : ConnectionEnv)

/-- The inner loop over one chunk's header: it reads only when nothing is buffered or the bytes
there were did not make a header. -/
def recvChunkHeader (parser : HttpResponseParser) (data : Bytes) (sock : Socket) :
    Received (HttpResponseParser × Bytes) :=
  if data = [] then recvLoop (HttpResponseParser.incremental true) env.buffSize parser [] sock
  else
    match parser.execute true data with
    | none => .thrown
    | some (parser', rest) =>
      if parser'.hasError then .closed
      else if (rest.length : Int) = toInt env.buffSize then .closed
      else if parser'.isFinished then .got (parser', rest) sock
      else recvLoop (HttpResponseParser.incremental true) env.buffSize parser' rest sock

/-- What the loop asks for when `left` bytes are missing. -/
def pieceSize (left : Nat) : Nat := if left > env.buffSize then env.buffSize else left

theorem pieceSize_pos (hbuff : 0 < env.buffSize) (left : Nat) (hleft : 0 < left) :
    0 < pieceSize env left := by
  rw [pieceSize]
  split
  · exact hbuff
  · exact hleft

theorem pieceSize_le (left : Nat) : pieceSize env left ≤ left := by
  rw [pieceSize]
  split
  · case isTrue hlarge => exact hlarge.le
  · exact le_refl _

/-- Appends a chunk to the body and takes it out of the buffer, together with two more bytes. A
negative length makes `append` throw, a body below two bytes `resize`. -/
def recvChunkBody (contentLen : Int) (data body : Bytes) (sock : Socket) :
    Received (Bytes × Bytes) :=
  if contentLen + 2 ≤ data.length then
    if contentLen < 0 then .thrown
    else .got (body ++ data.take contentLen.toNat, data.drop (contentLen + 2).toNat) sock
  else
    match readPieces (pieceSize env) (contentLen - data.length + 2).toNat sock with
    | none => .closed
    | some (more, sock') =>
      if (body ++ data ++ more).length < 2 then .thrown
      else .got ((body ++ data ++ more).take ((body ++ data ++ more).length - 2), []) sock'

theorem length_recvChunkHeader_lt {parser parser' : HttpResponseParser} {data rest : Bytes}
    {sock sock' : Socket} (h : recvChunkHeader env parser data sock = .got (parser', rest) sock') :
    rest.length + sock'.bytes.length < data.length + sock.bytes.length := by
  have hloop (p : HttpResponseParser) (pending : Bytes)
      (h : recvLoop (HttpResponseParser.incremental true) env.buffSize p pending sock =
        .got (parser', rest) sock') :
      rest.length + sock'.bytes.length < pending.length + sock.bytes.length :=
    length_recvLoop_rest (fun _ _ _ _ => HttpResponseParser.length_execute_le)
      (fun _ _ _ _ => HttpResponseParser.length_execute_lt) h
  rw [recvChunkHeader] at h
  split at h
  · case isTrue hdata =>
      subst hdata
      exact hloop parser [] h
  · split at h
    · cases h
    · case h_2 p rest' hexec =>
        split at h
        · cases h
        · split at h
          · cases h
          · split at h
            · case isFalse.isFalse.isTrue herror _ hfinished =>
                cases h
                have hlt := HttpResponseParser.length_execute_lt hexec
                  (Bool.eq_false_of_not_eq_true herror) hfinished
                omega
            · have hle := HttpResponseParser.length_execute_le hexec
              have hlt := hloop p rest' h
              omega

theorem length_recvChunkBody_le {contentLen : Int} {data body body' rest : Bytes}
    {sock sock' : Socket} (h : recvChunkBody env contentLen data body sock = .got (body', rest) sock') :
    rest.length + sock'.bytes.length ≤ data.length + sock.bytes.length := by
  rw [recvChunkBody] at h
  split at h
  · split at h
    · cases h
    · cases h
      rw [List.length_drop]
      omega
  · split at h
    · cases h
    · case h_2 more t hread =>
        split at h
        · cases h
        · cases h
          have hle : sock'.bytes.length ≤ sock.bytes.length := length_readPieces_le hread
          rw [List.length_nil]
          omega

/-- The loop over the chunks: the body, and the bytes left in the buffer. -/
def recvChunks (parser : HttpResponseParser) (data body : Bytes) (sock : Socket) :
    Received (HttpResponseParser × Bytes × Bytes) :=
  match _h : recvChunkHeader env parser data sock with
  | .closed => .closed
  | .thrown => .thrown
  | .got (parser', data') sock' =>
    match _h' : recvChunkBody env parser'.contentLen data' body sock' with
    | .closed => .closed
    | .thrown => .thrown
    | .got (body', data'') sock'' =>
      if parser'.chunksDone then .got (parser', body', data'') sock''
      else recvChunks parser' data'' body' sock''
termination_by data.length + sock.bytes.length
decreasing_by
  exact (length_recvChunkBody_le env ‹_›).trans_lt (length_recvChunkHeader_lt env ‹_›)

/-- The response, with the bytes that are left in the buffer and go with it. -/
def recvResponse (sock : Socket) : Received (HttpResponse × Bytes) :=
  (recvLoop (HttpResponseParser.incremental false) env.buffSize {} [] sock).bind fun r sock =>
    if r.1.chunked then
      (recvChunks env r.1 r.2 [] sock).bind fun c sock =>
        .got (if c.2.1 = [] then c.1.data else { c.1.data with body := c.2.1 }, c.2.2) sock
    else
      let length := (r.1.getContentLength env.lexicalCast).toInt64.toInt
      if 0 < length then
        (recvBody length r.2 sock).bind fun body sock =>
          .got ({ r.1.data with body := body }, r.2.drop length.toNat) sock
      else .got (r.1.data, r.2) sock

end HCServer.Http
