import HCServer.Http.Connection

/-! Bodies of an announced length, on the request and on the response side: what is in the buffer
behind the head counts first, and the socket is asked for the rest and for nothing more. -/
namespace HCServer.Http

/-- The header gives the length as `lexical_cast` reads it. -/
def MapType.Announces (headers : MapType) (lexicalCast : Bytes → Option UInt64) (length : UInt64) :
    Prop :=
  ∃ text, headers.find (bytes "content-length") = some text ∧ lexicalCast text = some length

theorem Parsed.getContentLength_of {p : Parsed} {lexicalCast : Bytes → Option UInt64}
    {length : UInt64} (h : p.data.headers.Announces lexicalCast length) :
    p.getContentLength lexicalCast = length := by
  obtain ⟨text, hfind, hcast⟩ := h
  rw [getContentLength, hfind, Option.bind_some, hcast]
  rfl

theorem ParsedResponse.getContentLength_of {p : ParsedResponse}
    {lexicalCast : Bytes → Option UInt64} {length : UInt64}
    (h : p.data.headers.Announces lexicalCast length) :
    p.getContentLength lexicalCast = length := by
  obtain ⟨text, hfind, hcast⟩ := h
  rw [getContentLength, hfind, Option.bind_some, hcast]
  rfl

/-- A body of `length` bytes, of which `buffered` have been read: the first bytes of what there is,
with only those taken from the socket that the buffer lacks. -/
def framed (length : Nat) (buffered : Bytes) (sock : Socket) : Received Bytes :=
  if length ≤ (buffered ++ sock.bytes).length then
    .got ((buffered ++ sock.bytes).take length) (sock.skip (length - buffered.length))
  else .closed

theorem toInt64_of_lt {length : UInt64} (h : length.toNat < 2 ^ 63) :
    length.toInt64.toInt = length.toNat := by
  refine BitVec.toInt_eq_toNat_of_lt ?_
  change 2 * length.toNat < 2 ^ 64
  omega

/-- The three cases of what the buffer holds: part of the body, all of it, more than it. -/
theorem recvBody_eq_framed {length : Nat} (hlt : length < 2 ^ 31) (buffered : Bytes)
    (sock : Socket) : recvBody length buffered sock = framed length buffered sock := by
  simp only [recvBody, framed, readFixSize_eq, List.length_append]
  obtain hless | hmore := Nat.lt_or_ge buffered.length length
  · have hleft : ((length : Int) - buffered.length).toNat = length - buffered.length := by omega
    have hpos : (0 : Int) < (length : Int) - buffered.length := by omega
    have hfirst : (buffered.length : Int) ≤ length := by omega
    have hcast : toInt (length - buffered.length) = (length - buffered.length : Nat) :=
      toInt_of_lt (by omega)
    have hsize : ¬ toInt (length - buffered.length) ≤ 0 := by omega
    rw [if_pos hpos, if_pos hfirst, hleft]
    by_cases henough : length - buffered.length ≤ sock.bytes.length
    · have hall : length ≤ buffered.length + sock.bytes.length := by omega
      have htake : (buffered ++ sock.bytes).take length =
          buffered ++ sock.bytes.take (length - buffered.length) := by
        rw [List.take_append, List.take_of_length_le hless.le]
      rw [if_pos henough, if_pos hall, htake]
      simp only [hsize, if_false]
    · have hshort : ¬ length ≤ buffered.length + sock.bytes.length := by omega
      rw [if_neg henough, if_neg hshort]
  · have hnone : ¬ (0 : Int) < (length : Int) - buffered.length := by omega
    have hall : length ≤ buffered.length + sock.bytes.length := by omega
    have hzero : length - buffered.length = 0 := by omega
    have htake : (buffered ++ sock.bytes).take length = buffered.take length :=
      List.take_append_of_le_length hmore
    rw [if_neg hnone, if_pos hall, hzero, Socket.skip_zero, htake]
    obtain heq | hlonger := Nat.eq_or_lt_of_le hmore
    · have hwhole : buffered.take length = buffered := List.take_of_length_le heq.ge
      rw [if_pos (by omega), hwhole]
    · rw [if_neg (by omega), Int.toNat_natCast]

theorem recvRequest_framed {env : SessionEnv} {sock rest : Socket} {p : HttpRequestParser}
    {buffered : Bytes} {length : UInt64}
    (hhead : recvHead env { uriRelaxed := env.uriRelaxed } sock = .got (p, buffered) rest)
    (hlength : p.data.headers.Announces env.lexicalCast length) (hpos : 0 < length.toNat)
    (hlt : length.toNat < 2 ^ 31) :
    recvRequest env sock = (framed length.toNat buffered rest).bind fun body later =>
      .got { p.data with body := body }.init later := by
  have hint := toInt64_of_lt (hlt.trans (by decide))
  have hsign : (0 : Int) < length.toNat := Int.natCast_pos.mpr hpos
  rw [recvRequest, hhead, Received.bind, recvRest, Parsed.getContentLength_of hlength]
  simp only [hint, hsign, if_true, recvBody_eq_framed hlt]

theorem recvResponse_framed {env : ConnectionEnv} {sock rest : Socket} {p : HttpResponseParser}
    {buffered : Bytes} {length : UInt64}
    (hhead : recvLoop (HttpResponseParser.incremental false) env.buffSize {} [] sock =
      .got (p, buffered) rest) (hchunked : p.chunked = false)
    (hlength : p.data.headers.Announces env.lexicalCast length) (hpos : 0 < length.toNat)
    (hlt : length.toNat < 2 ^ 31) :
    recvResponse env sock = (framed length.toNat buffered rest).bind fun body later =>
      .got ({ p.data with body := body }, buffered.drop length.toNat) later := by
  have hint := toInt64_of_lt (hlt.trans (by decide))
  have hsign : (0 : Int) < length.toNat := Int.natCast_pos.mpr hpos
  rw [recvResponse, hhead, Received.bind, if_neg (by simp [hchunked]),
    ParsedResponse.getContentLength_of hlength]
  simp only [hint, hsign, if_true, recvBody_eq_framed hlt, Int.toNat_natCast]

/-- Once a head has been received, with `buffered` behind it, its body is framed as it announces. -/
theorem content_length_framing :
    (∀ (env : SessionEnv) (sock rest : Socket) (p : HttpRequestParser) (buffered : Bytes)
      (length : UInt64),
      recvHead env { uriRelaxed := env.uriRelaxed } sock = .got (p, buffered) rest →
      p.data.headers.Announces env.lexicalCast length → 0 < length.toNat →
      length.toNat < 2 ^ 31 →
      recvRequest env sock = (framed length.toNat buffered rest).bind fun body later =>
        .got { p.data with body := body }.init later) ∧
    (∀ (env : ConnectionEnv) (sock rest : Socket) (p : HttpResponseParser) (buffered : Bytes)
      (length : UInt64),
      recvLoop (HttpResponseParser.incremental false) env.buffSize {} [] sock =
        .got (p, buffered) rest →
      p.chunked = false → p.data.headers.Announces env.lexicalCast length → 0 < length.toNat →
      length.toNat < 2 ^ 31 →
      recvResponse env sock = (framed length.toNat buffered rest).bind fun body later =>
        .got ({ p.data with body := body }, buffered.drop length.toNat) later) := by
  constructor
  · intro env sock rest p buffered length hhead hlength hpos hlt
    exact recvRequest_framed hhead hlength hpos hlt
  · intro env sock rest p buffered length hhead hchunked hlength hpos hlt
    exact recvResponse_framed hhead hchunked hlength hpos hlt

namespace Framing

def castFive (text : Bytes) : Option UInt64 := if text = bytes "5" then some 5 else none

def requestHead : Bytes := bytes "POST / HTTP/1.1\r\nContent-Length: 5\r\n\r\n"

def request : HttpRequestParser :=
  ((HttpRequestParser.execute { uriRelaxed := false } requestHead).get (by decide)).1

def responseHead : Bytes := bytes "HTTP/1.1 200 OK\r\nContent-Length: 5\r\n\r\n"

def response : HttpResponseParser :=
  ((HttpResponseParser.execute {} false responseHead).get (by decide)).1

/-- The request's body comes in three pieces, the last of which holds more; the response's peer
closes early. -/
theorem content_length_framing_run :
    recvRequest ⟨4096, false, castFive⟩
        [⟨requestHead ++ bytes "he", by decide⟩, ⟨bytes "l", by decide⟩, ⟨bytes "lo!", by decide⟩] =
      .got { request.data with body := bytes "hello" }.init [⟨bytes "!", by decide⟩] ∧
    recvResponse ⟨4096, by decide, castFive⟩ [⟨responseHead ++ bytes "hell", by decide⟩] = .closed := by
  constructor
  · exact content_length_framing.1 ⟨4096, false, castFive⟩ _
      [⟨bytes "l", by decide⟩, ⟨bytes "lo!", by decide⟩] request (bytes "he") 5
      ((recvLoop_start (by decide) _).trans (by decide))
      ⟨bytes "5", by decide, by decide⟩ (by decide) (by decide)
  · exact content_length_framing.2 ⟨4096, by decide, castFive⟩ _ [] response (bytes "hell") 5
      ((recvLoop_start (by decide) _).trans (by decide)) (by decide) ⟨bytes "5", by decide, by decide⟩ (by decide) (by decide)

end Framing
end HCServer.Http
