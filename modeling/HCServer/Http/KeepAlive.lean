import HCServer.Http.Session

/-! Requests that a client writes back to back on one connection. What `recvRequest` has read
beyond the end of its request is lost when it returns. -/
namespace HCServer.Http

/-- A request as it is written, with what the parser makes of its head. -/
structure WireRequest (env : SessionEnv) where
  head : Bytes
  body : Bytes
  parser : HttpRequestParser
  accepts : HttpRequestParser.Accepts env.uriRelaxed head parser
  contentLength : (parser.getContentLength env.lexicalCast).toNat = body.length
  body_lt : body.length < 2 ^ 63

namespace WireRequest
variable {env : SessionEnv} (r : WireRequest env)

def bytes : Bytes := r.head ++ r.body

/-- What `recvRequest` should return. -/
def request : HttpRequest := HttpRequest.init { r.parser.data with body := r.body }

theorem contentLength_eq :
    (r.parser.getContentLength env.lexicalCast).toInt64.toInt = r.body.length := by
  have hlt := r.body_lt
  rw [← r.contentLength] at hlt ⊢
  refine BitVec.toInt_eq_toNat_of_lt ?_
  change 2 * (r.parser.getContentLength env.lexicalCast).toNat < 2 ^ 64
  omega

theorem head_pos : 0 < r.head.length := by
  cases hhead : r.head with
  | nil =>
      have hends := r.accepts.ends
      rw [hhead] at hends
      cases hends
  | cons b head => exact Nat.succ_pos _

end WireRequest

variable {env : SessionEnv}

/-- The requests back to back. -/
def wire (rs : List (WireRequest env)) : Bytes := rs.flatMap WireRequest.bytes

/-- Each head arrives within one read: the read that starts with a request holds its head. -/
def headsWhole : List (WireRequest env) → Socket → Prop
  | [], _ => True
  | r :: rs, sock =>
    r.head.length ≤ sock.ready env.buffSize ∧ headsWhole rs (sock.skip r.bytes.length)

/-- No byte lost: every call returns its request, and the next one begins with the next request. -/
def delivery : List (WireRequest env) → List (HttpRequest × Bytes)
  | [] => []
  | r :: rs => (r.request, wire rs) :: delivery rs

/-- The read that holds a head holds nothing of the next request, what is left of the body has a
length that an `int` holds, and the session's check of a full buffer does not fail on the cast of
a buffer size beyond `int`. -/
structure ReadAlone (r : WireRequest env) (n : Nat) : Prop where
  within : n ≤ r.bytes.length
  left : r.bytes.length - n = 0 ∨ 0 < toInt (r.bytes.length - n)
  roomy : ((n - r.head.length : Nat) : Int) ≠ toInt env.buffSize

def readsAligned : List (WireRequest env) → Socket → Prop
  | [], _ => True
  | r :: rs, sock =>
    ReadAlone r (sock.ready env.buffSize) ∧ readsAligned rs (sock.skip r.bytes.length)

section
variable {r : WireRequest env} {later : Bytes} {sock : Socket}

/-- The reading loop makes one read. -/
theorem recvHead_request (hsock : sock.bytes = r.bytes ++ later)
    (hhead : r.head.length ≤ sock.ready env.buffSize) :
    recvHead env { uriRelaxed := env.uriRelaxed } sock =
      let extra := (r.body ++ later).take (sock.ready env.buffSize - r.head.length)
      if (extra.length : Int) = toInt env.buffSize then .closed
      else .got (r.parser, extra) (sock.skip (sock.ready env.buffSize)) := by
  have htake : sock.bytes.take (sock.ready env.buffSize) =
      r.head ++ (r.body ++ later).take (sock.ready env.buffSize - r.head.length) := by
    rw [hsock, WireRequest.bytes, List.append_assoc, List.take_append,
      List.take_of_length_le hhead]
  rw [recvHead, recvLoop_start (r.head_pos.trans_le hhead), htake]
  simp [HttpRequestParser.incremental, r.accepts.execute_append, r.accepts.sound,
    r.accepts.finished]

theorem recvBody_eq {body : Bytes} {m : Nat} (hm : m ≤ (body ++ later).length)
    (hsock : sock.bytes = (body ++ later).drop m) :
    recvBody body.length ((body ++ later).take m) sock =
      if m ≤ body.length then
        if body.length - m = 0 ∨ 0 < toInt (body.length - m) then
          .got body (sock.skip (body.length - m))
        else .closed
      else .got body sock := by
  have hlen : ((body ++ later).take m).length = m := List.length_take_of_le hm
  by_cases hwithin : m ≤ body.length
  · have htake : (body ++ later).take m = body.take m := List.take_append_of_le_length hwithin
    have hrest : sock.bytes = body.drop m ++ later := by
      rw [hsock, List.drop_append_of_le_length hwithin]
    have hfirst : (m : Int) ≤ body.length := Int.ofNat_le.mpr hwithin
    rw [if_pos hwithin]
    by_cases hall : m = body.length
    · subst hall
      simp [recvBody]
    · have hleft : (0 : Int) < (body.length : Int) - m := by omega
      have htoNat : ((body.length : Int) - m).toNat = body.length - m := by omega
      have henough : body.length - m ≤ sock.bytes.length := by
        rw [hrest, List.length_append, List.length_drop]
        omega
      have hmore : sock.bytes.take (body.length - m) = body.drop m := by
        rw [hrest, ← List.length_drop, List.take_left']
        rfl
      have hne : body.length - m ≠ 0 := by omega
      rw [htake] at hlen ⊢
      simp only [recvBody, hlen, hfirst, hleft, if_true, htoNat, readFixSize_eq, henough, hmore,
        List.take_append_drop, hne, false_or]
      by_cases hfits : 0 < toInt (body.length - m)
      · rw [if_pos hfits, if_neg (Int.not_le.mpr hfits)]
      · rw [if_neg hfits, if_pos (Int.not_lt.mp hfits)]
  · have hnone : ¬ (0 : Int) < (body.length : Int) - m := by omega
    have hshort : ¬ (m : Int) ≤ body.length := by omega
    rw [if_neg hwithin]
    simp only [recvBody, hlen, hnone, hshort, if_false, Int.toNat_natCast]
    rw [List.take_take, Nat.min_eq_left (by omega), List.take_left']
    rfl

theorem recvRest_request {m : Nat} (hm : m ≤ (r.body ++ later).length)
    (hsock : sock.bytes = (r.body ++ later).drop m) :
    recvRest env r.parser.toParsed ((r.body ++ later).take m) sock =
      if m ≤ r.body.length then
        if r.body.length - m = 0 ∨ 0 < toInt (r.body.length - m) then
          .got r.request (sock.skip (r.body.length - m))
        else .closed
      else .got r.request sock := by
  have hbody := recvBody_eq hm hsock
  rw [recvRest, r.contentLength_eq]
  by_cases hempty : r.body = []
  · have hdata : r.parser.data = { r.parser.data with body := r.body } := by
      rw [hempty, ← r.accepts.body_eq]
    rw [WireRequest.request, ← hdata]
    simp [hempty]
  · have hpos : (0 : Int) < r.body.length := Int.ofNat_lt.mpr (List.length_pos_of_ne_nil hempty)
    simp only [hpos, if_true, hbody]
    split
    · split
      · rfl
      · rfl
    · rfl

/-- What one call makes of a request that arrives with its head in one read. -/
theorem recvRequest_request (hsock : sock.bytes = r.bytes ++ later)
    (hhead : r.head.length ≤ sock.ready env.buffSize) :
    recvRequest env sock =
      if ((sock.ready env.buffSize - r.head.length : Nat) : Int) = toInt env.buffSize then .closed
      else if sock.ready env.buffSize ≤ r.bytes.length then
        if r.bytes.length - sock.ready env.buffSize = 0 ∨
            0 < toInt (r.bytes.length - sock.ready env.buffSize) then
          .got r.request (sock.skip r.bytes.length)
        else .closed
      else .got r.request (sock.skip (sock.ready env.buffSize)) := by
  have hready := Socket.ready_le_length env.buffSize sock
  generalize hk : sock.ready env.buffSize = k at hhead hready ⊢
  have hbytes : r.bytes.length = r.head.length + r.body.length := List.length_append
  have hm : k - r.head.length ≤ (r.body ++ later).length := by
    rw [hsock, List.length_append, hbytes] at hready
    rw [List.length_append]
    omega
  have hskip : (sock.skip k).bytes = (r.body ++ later).drop (k - r.head.length) := by
    rw [Socket.bytes_skip, hsock, WireRequest.bytes, List.append_assoc, List.drop_append,
      List.drop_eq_nil_of_le hhead, List.nil_append]
  have hrest := recvRest_request hm hskip
  have hloop := recvHead_request hsock (hk ▸ hhead)
  rw [hk] at hloop
  simp only [List.length_take_of_le hm] at hloop
  rw [recvRequest, hloop]
  by_cases hroomy : ((k - r.head.length : Nat) : Int) = toInt env.buffSize
  · rw [if_pos hroomy, if_pos hroomy]
    rfl
  · rw [if_neg hroomy, if_neg hroomy]
    have hleft : r.body.length - (k - r.head.length) = r.bytes.length - k := by omega
    have hwithin : k - r.head.length ≤ r.body.length ↔ k ≤ r.bytes.length := by omega
    simp only [Received.bind, hrest, hleft, hwithin, Socket.skip_skip]
    split
    · case isTrue hle => rw [Nat.add_sub_cancel' hle]
    · rfl

theorem recvRequest_alone (hsock : sock.bytes = r.bytes ++ later)
    (hhead : r.head.length ≤ sock.ready env.buffSize) (halone : ReadAlone r (sock.ready env.buffSize)) :
    recvRequest env sock = .got r.request (sock.skip r.bytes.length) := by
  rw [recvRequest_request hsock hhead, if_neg halone.roomy, if_pos halone.within, if_pos halone.left]

theorem recvRequest_not_alone (hsock : sock.bytes = r.bytes ++ later)
    (hhead : r.head.length ≤ sock.ready env.buffSize) (hnot : ¬ ReadAlone r (sock.ready env.buffSize)) :
    recvRequest env sock = .closed ∨ r.bytes.length < sock.ready env.buffSize ∧
      recvRequest env sock = .got r.request (sock.skip (sock.ready env.buffSize)) := by
  rw [recvRequest_request hsock hhead]
  by_cases hroomy : ((sock.ready env.buffSize - r.head.length : Nat) : Int) = toInt env.buffSize
  · exact Or.inl (if_pos hroomy)
  · rw [if_neg hroomy]
    by_cases hwithin : sock.ready env.buffSize ≤ r.bytes.length
    · rw [if_pos hwithin]
      refine Or.inl (if_neg ?_)
      intro hleft
      exact hnot ⟨hwithin, hleft, hroomy⟩
    · exact Or.inr ⟨Nat.lt_of_not_le hwithin, if_neg hwithin⟩

end

theorem handleClient_got {isKeepalive : Bool} {sock sock' : Socket} {req : HttpRequest}
    (h : recvRequest env sock = .got req sock') :
    handleClient env isKeepalive sock =
      (req, sock') :: if !isKeepalive || req.close then [] else handleClient env isKeepalive sock' := by
  rw [handleClient]
  split
  · case h_1 hr => rw [h] at hr; cases hr
  · case h_2 hr => rw [h] at hr; cases hr
  · case h_3 hr =>
      rw [h] at hr
      cases hr
      rfl

theorem handleClient_closed {isKeepalive : Bool} {sock : Socket}
    (h : recvRequest env sock = .closed) : handleClient env isKeepalive sock = [] := by
  rw [handleClient]
  split
  · rfl
  · rfl
  · case h_3 hr => rw [h] at hr; cases hr

theorem handleClient_nil (isKeepalive : Bool) : handleClient env isKeepalive [] = [] := by
  refine handleClient_closed ?_
  rw [recvRequest, recvHead, recvLoop]
  simp [Socket.recv, Received.bind]

/-- On a connection that is kept open, every request is received and no byte is lost exactly when
no read goes beyond the request whose head it holds. -/
theorem keep_alive_delivery (env : SessionEnv) (rs : List (WireRequest env)) (sock : Socket)
    (hopen : ∀ r ∈ rs.dropLast, r.request.close = false) (hwritten : sock.bytes = wire rs)
    (hheads : headsWhole rs sock) :
    (handleClient env true sock).map (fun x => (x.1, x.2.bytes)) = delivery rs ↔
      readsAligned rs sock := by
  induction rs generalizing sock with
  | nil =>
      rw [Socket.eq_nil_of_bytes hwritten, handleClient_nil]
      exact ⟨fun _ => trivial, fun _ => rfl⟩
  | cons r rs ih =>
      have hfront : sock.bytes = r.bytes ++ wire rs := hwritten
      have hready := Socket.ready_le_length env.buffSize sock
      have hrest : (sock.skip r.bytes.length).bytes = wire rs := by
        rw [Socket.bytes_skip, hwritten]
        exact List.drop_left
      by_cases halone : ReadAlone r (sock.ready env.buffSize)
      · have hnext : (if !true || r.request.close then [] else
            handleClient env true (sock.skip r.bytes.length)).map (fun x => (x.1, x.2.bytes)) =
              delivery rs ↔ readsAligned rs (sock.skip r.bytes.length) := by
          have hopen' : ∀ r' ∈ rs.dropLast, r'.request.close = false := by
            intro r' hr'
            cases rs with
            | nil => cases hr'
            | cons q rs => exact hopen r' (List.mem_cons_of_mem r hr')
          have hlater := ih (sock.skip r.bytes.length) hopen' hrest hheads.2
          cases hclose : r.request.close with
          | false => exact hlater
          | true =>
              cases rs with
              | nil => exact ⟨fun _ => trivial, fun _ => rfl⟩
              | cons q rs =>
                  have hkept := hopen r List.mem_cons_self
                  rw [hclose] at hkept
                  cases hkept
        rw [handleClient_got (recvRequest_alone hfront hheads.1 halone), List.map_cons, hrest, delivery,
          List.cons.injEq, hnext]
        exact ⟨fun h => ⟨halone, h.2⟩, fun h => ⟨rfl, h.2⟩⟩
      · rcases recvRequest_not_alone hfront hheads.1 halone with hclosed | ⟨hbeyond, hgot⟩
        · rw [handleClient_closed hclosed]
          exact ⟨fun h => (nomatch h), fun h => absurd h.1 halone⟩
        · rw [handleClient_got hgot]
          constructor
          · intro h
            -- the rest of the stream is shorter than it should be
            have hbytes := congrArg Prod.snd (List.cons.inj h).1
            have hlength := congrArg List.length (hbytes.trans hrest.symm)
            simp only [Socket.bytes_skip, List.length_drop] at hlength
            omega
          · intro h
            exact absurd h.1 halone

namespace Pipelining

def sampleEnv : SessionEnv := ⟨4096, false, fun text => if text = bytes "5" then some 5 else none⟩

def postHead : Bytes :=
  bytes "POST / HTTP/1.1\r\nConnection: keep-alive\r\nContent-Length: 5\r\n\r\n"

def post : WireRequest sampleEnv where
  head := postHead
  body := bytes "hello"
  parser := ((HttpRequestParser.execute { uriRelaxed := false } postHead).get (by decide)).1
  accepts := ⟨by decide, by decide, by decide⟩
  contentLength := by decide
  body_lt := by decide

def getHead : Bytes := bytes "GET /next HTTP/1.1\r\nConnection: keep-alive\r\n\r\n"

def get : WireRequest sampleEnv where
  head := getHead
  body := []
  parser := ((HttpRequestParser.execute { uriRelaxed := false } getHead).get (by decide)).1
  accepts := ⟨by decide, by decide, by decide⟩
  contentLength := by decide
  body_lt := by decide

/-- The body comes in two reads, the next request in a read of its own. -/
def apart : Socket :=
  [⟨postHead ++ bytes "he", by decide⟩, ⟨bytes "llo", by decide⟩,
    ⟨getHead, by decide⟩]

theorem keep_alive_delivery_apart :
    (handleClient sampleEnv true apart).map (fun x => (x.1, x.2.bytes)) = delivery [post, get] :=
  (keep_alive_delivery sampleEnv [post, get] apart (by decide) (by decide)
    ⟨by decide, by decide, trivial⟩).mpr
    ⟨⟨by decide, by decide, by decide⟩,
      ⟨by decide, by decide, by decide⟩, trivial⟩

/-- Two requests in one read: the second one is not received. -/
theorem pipelined_request_lost :
    ¬ ∀ (env : SessionEnv) (rs : List (WireRequest env)) (sock : Socket),
      (∀ r ∈ rs.dropLast, r.request.close = false) → sock.bytes = wire rs → headsWhole rs sock →
      (handleClient env true sock).map (fun x => (x.1, x.2.bytes)) = delivery rs := by
  intro h
  have hlost := h sampleEnv [get, get] [⟨getHead ++ getHead, by decide⟩] (by decide)
    (by decide) ⟨by decide, by decide, trivial⟩
  exact absurd hlost (by decide +kernel)

end Pipelining
end HCServer.Http
