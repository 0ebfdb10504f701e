import HCServer.Http.ChunkSize

/-! Bodies in chunks. A chunk's header has to be in the buffer as a whole when it is looked at,
since `execute` starts afresh each time and drops what it has consumed. -/
namespace HCServer.Http
open Lib

/-- A chunk as it is written, its size in hexadecimal digits of either case. -/
structure Chunk where
  size : Bytes
  data : Bytes
  size_ne : size ≠ []
  digits : ∀ b ∈ size, digitValue b < 16
  value : digitsValue 16 size = data.length
  data_lt : data.length < 2 ^ 31 - 2

namespace Chunk
variable (c : Chunk)

def line : Bytes := c.size ++ [13, 10]

def wire : Bytes := c.line ++ c.data ++ [13, 10]

/-- The parser when the header has been read. -/
def read (p : HttpResponseParser) : HttpResponseParser :=
  { p.parserInit with cs := httpclientParserFirstFinal, contentLen := c.data.length,
                      chunked := true, chunksDone := decide ((c.data.length : Int) ≤ 0) }

def sizeLine : SizeLine := ⟨c.size, c.size_ne, c.digits⟩

theorem contentLen_sizeLine : c.sizeLine.contentLen = c.data.length := by
  have hlt := c.data_lt
  have hvalue : c.sizeLine.value = c.data.length := c.value
  rw [SizeLine.contentLen_of_lt _ (by omega), hvalue]

theorem execute_line (p : HttpResponseParser) (rest : Bytes) :
    p.execute true (c.line ++ rest) = some (c.read p, rest) := by
  have hread : c.sizeLine.read p = c.read p := by
    rw [SizeLine.read, read, contentLen_sizeLine]
  exact hread ▸ c.sizeLine.execute_line p rest

end Chunk

variable (env : ConnectionEnv)

/-- How many bytes are in the buffer when the header of a chunk is looked at, `n` of them left from
before. -/
def filled (n : Nat) (sock : Socket) : Nat := if n = 0 then sock.ready env.buffSize else n

/-- No read ends inside the size line of a chunk: each line is in the buffer as a whole when it is
looked at. -/
def linesWhole : List Chunk → Nat → Socket → Prop
  | [], _, _ => True
  | c :: cs, n, sock =>
    c.line.length ≤ filled env n sock ∧
      linesWhole cs (filled env n sock - c.wire.length)
        (sock.skip (max (filled env n sock) c.wire.length - n))

section
variable {env} {c : Chunk} {p : HttpResponseParser} {data next : Bytes} {segs : Socket}

theorem filled_le (hdata : data.length ≤ env.buffSize) (segs : Socket) :
    filled env data.length segs ≤ env.buffSize := by
  rw [filled]
  split
  · exact Socket.ready_le env.buffSize segs
  · exact hdata

theorem le_filled (env : ConnectionEnv) (data : Bytes) (segs : Socket) :
    data.length ≤ filled env data.length segs := by
  rw [filled]
  split
  · omega
  · exact le_refl _

theorem filled_le_length (env : ConnectionEnv) (data : Bytes) (segs : Socket) :
    filled env data.length segs ≤ (data ++ Socket.bytes segs).length := by
  rw [filled, List.length_append]
  split
  · exact (Socket.ready_le_length env.buffSize segs).trans (Nat.le_add_left _ _)
  · exact Nat.le_add_right _ _

/-- One look at the buffer is enough for the header. -/
theorem recvChunkHeader_line (herror : p.error = 0) (hdata : data.length ≤ env.buffSize)
    {tail : Bytes} (hbytes : data ++ Socket.bytes segs = c.line ++ tail)
    (hwhole : c.line.length ≤ filled env data.length segs) (later : Socket) :
    recvChunkHeader env p data (segs ++ later) =
      .got (c.read p, tail.take (filled env data.length segs - c.line.length))
        (segs.skip (filled env data.length segs - data.length) ++ later) := by
  have hline : 0 < c.line.length := by simp [Chunk.line]
  have hsmall := filled_le hdata segs
  have htotal := filled_le_length env data segs
  have hsound : (c.read p).hasError = false := by
    simp [HttpResponseParser.hasError, Chunk.read, HttpResponseParser.parserInit, herror,
      httpclientParserFirstFinal, httpclientParserError]
  have hroom : ¬ ((tail.take (filled env data.length segs - c.line.length)).length : Int) =
      toInt env.buffSize := by
    rw [toInt_of_lt env.buffSize_lt, List.length_take]
    omega
  have hfront : (data ++ Socket.bytes segs).take (filled env data.length segs) =
      c.line ++ tail.take (filled env data.length segs - c.line.length) := by
    rw [hbytes, List.take_append, List.take_of_length_le hwhole]
  by_cases hempty : data = []
  · subst hempty
    have hfilled : filled env 0 segs = Socket.ready env.buffSize segs := rfl
    rw [List.length_nil] at hwhole hroom hfront ⊢
    rw [hfilled] at hwhole hroom hfront ⊢
    have hsegs : segs ≠ [] := by
      rintro rfl
      have hnone : Socket.ready env.buffSize [] = 0 := rfl
      omega
    have hready := Socket.ready_append hsegs env.buffSize later
    have hle := Socket.ready_le_length env.buffSize segs
    have hpos : 0 < Socket.ready env.buffSize (segs ++ later) := by omega
    have hexec := c.execute_line p (tail.take (Socket.ready env.buffSize segs - c.line.length))
    have hstep : (HttpResponseParser.incremental true).execute p
        ((Socket.bytes (segs ++ later)).take (Socket.ready env.buffSize segs)) =
          some (c.read p, tail.take (Socket.ready env.buffSize segs - c.line.length)) := by
      rw [Socket.bytes_append, List.take_append_of_le_length hle]
      rw [List.nil_append] at hfront
      rw [hfront]
      exact hexec
    rw [recvChunkHeader, if_pos rfl, recvLoop_start hpos, hready, hstep,
      Socket.skip_append_of_le hle, Nat.sub_zero]
    simp only [HttpResponseParser.incremental, hsound, Bool.false_eq_true, if_false, hroom]
    rfl
  · have hfilled : filled env data.length segs = data.length :=
      if_neg fun h => hempty (List.length_eq_zero_iff.mp h)
    rw [hfilled] at hfront hroom ⊢
    rw [List.take_left] at hfront
    have hexec := c.execute_line p (tail.take (data.length - c.line.length))
    rw [← hfront] at hexec
    rw [recvChunkHeader, if_neg hempty, hexec]
    simp only [hsound, Bool.false_eq_true, if_false, hroom, Nat.sub_self, Socket.skip_zero]
    rfl

/-- The chunk's data and the line end after it, from the buffer as far as they are there. -/
theorem recvChunkBody_data {m : Nat} (hbuff : 0 < env.buffSize)
    (hm : m ≤ (c.data ++ [13, 10] ++ next).length)
    (hsegs : Socket.bytes segs = (c.data ++ [13, 10] ++ next).drop m) (body : Bytes)
    (later : Socket) :
    recvChunkBody env c.data.length ((c.data ++ [13, 10] ++ next).take m) body (segs ++ later) =
      .got (body ++ c.data, next.take (m - (c.data.length + 2)))
        (segs.skip (c.data.length + 2 - m) ++ later) := by
  have hlength : ((c.data ++ [13, 10] ++ next).take m).length = m := List.length_take_of_le hm
  have hall : (c.data ++ [13, 10]).length = c.data.length + 2 := by simp
  rw [recvChunkBody, hlength]
  by_cases hin : c.data.length + 2 ≤ m
  · have htake : (c.data ++ [13, 10] ++ next).take m =
        c.data ++ [13, 10] ++ next.take (m - (c.data.length + 2)) := by
      rw [List.take_append, hall, List.take_of_length_le (by omega)]
    have hdata : (c.data ++ [13, 10] ++ next.take (m - (c.data.length + 2))).take c.data.length =
        c.data := by
      rw [List.append_assoc, List.take_left]
    have hrest : (c.data ++ [13, 10] ++ next.take (m - (c.data.length + 2))).drop
        (c.data.length + 2) = next.take (m - (c.data.length + 2)) := by
      rw [← hall, List.drop_left]
    have hcond : (c.data.length : Int) + 2 ≤ m := by omega
    have hsign : ¬ (c.data.length : Int) < 0 := by omega
    have hnat : ((c.data.length : Int) + 2).toNat = c.data.length + 2 := by omega
    have hnone : c.data.length + 2 - m = 0 := by omega
    rw [if_pos hcond, if_neg hsign, Int.toNat_natCast, hnat, htake, hdata, hrest, hnone,
      Socket.skip_zero]
  · have htake : (c.data ++ [13, 10] ++ next).take m = (c.data ++ [13, 10]).take m :=
      List.take_append_of_le_length (by omega)
    have hbytes : Socket.bytes segs = (c.data ++ [13, 10]).drop m ++ next := by
      rw [hsegs, List.drop_append_of_le_length (by omega)]
    have hrest : ((c.data ++ [13, 10]).drop m).length = c.data.length + 2 - m := by
      rw [List.length_drop, hall]
    have hcond : ¬ (c.data.length : Int) + 2 ≤ m := by omega
    have hnat : ((c.data.length : Int) - m + 2).toNat = c.data.length + 2 - m := by omega
    have henough : c.data.length + 2 - m ≤ (Socket.bytes segs).length := by
      rw [hbytes, List.length_append, hrest]
      exact Nat.le_add_right _ _
    have hmore : (Socket.bytes (segs ++ later)).take (c.data.length + 2 - m) =
        (c.data ++ [13, 10]).drop m := by
      rw [Socket.bytes_append, hbytes, ← hrest, List.append_assoc, List.take_left]
    have henough' : c.data.length + 2 - m ≤ (Socket.bytes (segs ++ later)).length := by
      rw [Socket.bytes_append, List.length_append]
      omega
    have hread := readPieces_eq (pieceSize_pos env hbuff) (pieceSize_le env)
      (c.data.length + 2 - m) (segs ++ later)
    rw [if_pos henough', hmore, Socket.skip_append_of_le henough] at hread
    have hjoin : body ++ (c.data ++ [13, 10]).take m ++ (c.data ++ [13, 10]).drop m =
        body ++ c.data ++ [13, 10] := by
      rw [List.append_assoc, List.take_append_drop, List.append_assoc]
    have hlen : (body ++ c.data ++ [13, 10]).length = (body ++ c.data).length + 2 :=
      List.length_append
    have hlong : ¬ (body ++ c.data ++ [13, 10]).length < 2 := by omega
    have hcut : (body ++ c.data ++ [13, 10]).length - 2 = (body ++ c.data).length := by omega
    have hnone : m - (c.data.length + 2) = 0 := by omega
    rw [if_neg hcond, hnat, hread]
    simp only [htake, hjoin, hlong, if_false, hcut, List.take_left, hnone, List.take_zero]

/-- One round of the loop over the chunks. -/
theorem recvChunk (herror : p.error = 0) (hdata : data.length ≤ env.buffSize)
    (hbytes : data ++ Socket.bytes segs = c.wire ++ next)
    (hwhole : c.line.length ≤ filled env data.length segs) (body : Bytes) (later : Socket) :
    ∃ rest sock, recvChunkHeader env p data (segs ++ later) = .got (c.read p, rest) sock ∧
      recvChunkBody env c.data.length rest body sock =
        .got (body ++ c.data, next.take (filled env data.length segs - c.wire.length))
          (segs.skip (max (filled env data.length segs) c.wire.length - data.length) ++ later) := by
  have htail : data ++ Socket.bytes segs = c.line ++ (c.data ++ [13, 10] ++ next) := by
    rw [hbytes, Chunk.wire]
    simp only [List.append_assoc]
  have hlength := congrArg List.length htail
  have hsmall := filled_le hdata segs
  have hge := le_filled env data segs
  have htotal := filled_le_length env data segs
  have hwire : c.wire.length = c.line.length + (c.data.length + 2) := by
    simp [Chunk.wire]
  have hline : 0 < c.line.length := by simp [Chunk.line]
  generalize hk : filled env data.length segs = k at hwhole hsmall hge htotal ⊢
  have hheader := recvChunkHeader_line herror hdata htail (hk.symm ▸ hwhole) later
  rw [hk] at hheader
  have hm : k - c.line.length ≤ (c.data ++ [13, 10] ++ next).length := by
    rw [hlength, List.length_append] at htotal
    omega
  have hrest : Socket.bytes (segs.skip (k - data.length)) =
      (c.data ++ [13, 10] ++ next).drop (k - c.line.length) := by
    have hdrop := congrArg (List.drop k) htail
    rw [List.drop_append, List.drop_eq_nil_of_le hge, List.nil_append, List.drop_append,
      List.drop_eq_nil_of_le hwhole, List.nil_append] at hdrop
    rw [Socket.bytes_skip, hdrop]
  have hbuff : 0 < env.buffSize := by omega
  have hbody := recvChunkBody_data hbuff hm hrest body later
  have hleft : k - c.line.length - (c.data.length + 2) = k - c.wire.length := by omega
  have hskip : k - data.length + (c.data.length + 2 - (k - c.line.length)) =
      max k c.wire.length - data.length := by omega
  rw [hleft, Socket.skip_skip, hskip] at hbody
  exact ⟨_, _, hheader, hbody⟩

end

/-- The chunks and the last one, which has no data. -/
def encoded (cs : List Chunk) (last : Chunk) : Bytes := cs.flatMap Chunk.wire ++ last.wire

theorem recvChunks_step {env : ConnectionEnv} {p p' : HttpResponseParser}
    {data rest body body' data' : Bytes} {sock sock' sock'' : Socket}
    (hheader : recvChunkHeader env p data sock = .got (p', rest) sock')
    (hbody : recvChunkBody env p'.contentLen rest body sock' = .got (body', data') sock'') :
    recvChunks env p data body sock =
      if p'.chunksDone then .got (p', body', data') sock''
      else recvChunks env p' data' body' sock'' := by
  rw [recvChunks]
  split
  · case h_1 h => rw [hheader] at h; cases h
  · case h_2 h => rw [hheader] at h; cases h
  · case h_3 h =>
      rw [hheader] at h
      cases h
      split
      · case h_1 h => rw [hbody] at h; cases h
      · case h_2 h => rw [hbody] at h; cases h
      · case h_3 h =>
          rw [hbody] at h
          cases h
          rfl

/-- The induction over the chunks. -/
theorem recvChunks_encoded (env : ConnectionEnv) (cs : List Chunk) (last : Chunk)
    (hlast : last.data = []) (hne : ∀ c ∈ cs, c.data ≠ []) {p : HttpResponseParser}
    {data : Bytes} {segs later : Socket} (herror : p.error = 0)
    (hdata : data.length ≤ env.buffSize) (hbytes : data ++ Socket.bytes segs = encoded cs last)
    (hwhole : linesWhole env (cs ++ [last]) data.length segs) (body : Bytes) :
    ∃ p', recvChunks env p data body (segs ++ later) =
        .got (p', body ++ cs.flatMap Chunk.data, []) later ∧
      p'.toParsedResponse = p.toParsedResponse := by
  induction cs generalizing p data body segs with
  | nil =>
      have hbytes' : data ++ Socket.bytes segs = last.wire ++ [] := by
        rw [hbytes, List.append_nil]
        rfl
      obtain ⟨rest, sock, hheader, hbody⟩ := recvChunk herror hdata hbytes' hwhole.1 body later
      have hempty : segs.skip (max (filled env data.length segs) last.wire.length - data.length) =
          [] := by
        have hlength := congrArg List.length hbytes'
        rw [List.length_append, List.append_nil] at hlength
        refine Socket.eq_nil_of_bytes ?_
        rw [Socket.bytes_skip]
        exact List.drop_eq_nil_of_le (by omega)
      have hdone : (last.read p).chunksDone = true := by simp [Chunk.read, hlast]
      rw [hempty, hlast, List.append_nil, List.take_nil, List.nil_append] at hbody
      refine ⟨last.read p, ?_, rfl⟩
      rw [recvChunks_step hheader (hlast ▸ hbody), if_pos hdone]
      simp [hlast]
  | cons c cs ih =>
      have hbytes' : data ++ Socket.bytes segs = c.wire ++ encoded cs last := by
        rw [hbytes]
        simp [encoded]
      obtain ⟨rest, sock, hheader, hbody⟩ := recvChunk herror hdata hbytes' hwhole.1 body later
      have hsmall := filled_le hdata segs
      have hge := le_filled env data segs
      have htotal := filled_le_length env data segs
      have hmore := hwhole.2
      rw [hbytes', List.length_append] at htotal
      generalize filled env data.length segs = k at hbody hsmall hge htotal hmore
      have hlen : ((encoded cs last).take (k - c.wire.length)).length = k - c.wire.length :=
        List.length_take_of_le (by omega)
      have hnext : (encoded cs last).take (k - c.wire.length) ++
          Socket.bytes (segs.skip (max k c.wire.length - data.length)) = encoded cs last := by
        have hdrop := congrArg (List.drop (max k c.wire.length)) hbytes'
        have hsub : max k c.wire.length - c.wire.length = k - c.wire.length := by omega
        have hold : data.drop (max k c.wire.length) = [] := List.drop_eq_nil_of_le (by omega)
        have hwire : c.wire.drop (max k c.wire.length) = [] := List.drop_eq_nil_of_le (by omega)
        rw [List.drop_append, hold, List.nil_append, List.drop_append, hwire, List.nil_append,
          hsub] at hdrop
        rw [Socket.bytes_skip, hdrop, List.take_append_drop]
      have hpos := List.length_pos_of_ne_nil (hne c List.mem_cons_self)
      have hdone : (c.read p).chunksDone = false := decide_eq_false (by omega)
      obtain ⟨p', hp', hparsed⟩ := ih (fun d hd => hne d (List.mem_cons_of_mem c hd))
        (p := c.read p) herror (by omega) hnext (by rw [hlen]; exact hmore) (body ++ c.data)
      refine ⟨p', ?_, hparsed⟩
      rw [recvChunks_step hheader hbody, hdone, hp', List.append_assoc]
      rfl

/-- Once the head of a chunked response has been received, with `buffered` after it in the buffer,
the chunks come out as they were put in, if no read ends inside a size line. -/
theorem chunked_decoding (env : ConnectionEnv) (cs : List Chunk) (last : Chunk)
    (p : HttpResponseParser) (buffered : Bytes) (sock segs later : Socket)
    (hlast : last.data = []) (hne : ∀ c ∈ cs, c.data ≠ [])
    (hhead : recvLoop (HttpResponseParser.incremental false) env.buffSize {} [] sock =
      .got (p, buffered) (segs ++ later))
    (hchunked : p.chunked = true) (hbytes : buffered ++ Socket.bytes segs = encoded cs last)
    (hwhole : linesWhole env (cs ++ [last]) buffered.length segs) :
    recvResponse env sock = .got ({ p.data with body := cs.flatMap Chunk.data }, []) later := by
  obtain ⟨hbody, hsound, hdata⟩ := recvLoop_got (K := fun q => q.data.body = [])
    (fun _ _ _ _ hq hexec => (HttpResponseParser.execute_body hexec).trans hq)
    (fun _ _ _ _ => HttpResponseParser.length_execute_le) rfl (Nat.zero_le _) hhead
  have herror : p.error = 0 := by
    have hor : (p.error != 0 || p.cs == httpclientParserError) = false := hsound
    simpa using (Bool.or_eq_false_iff.mp hor).1
  obtain ⟨p', hp', hparsed⟩ :=
    recvChunks_encoded env cs last hlast hne herror hdata hbytes hwhole []
  have hdata' : p'.data = p.data := congrArg ParsedResponse.data hparsed
  rw [recvResponse, hhead, Received.bind, if_pos hchunked, hp', Received.bind, hdata']
  by_cases hempty : cs.flatMap Chunk.data = []
  · simp only [List.nil_append, hempty, if_true]
    rw [← hbody]
  · simp only [List.nil_append, hempty, if_false]

namespace Hello

def sampleEnv : ConnectionEnv := ⟨4096, by decide, fun _ => none⟩

def head : Bytes := bytes "HTTP/1.1 200 OK\r\nTransfer-Encoding: chunked\r\n\r\n"

def parsed : HttpResponseParser :=
  ((HttpResponseParser.execute {} false head).get (by decide)).1

def chunk : Chunk where
  size := bytes "5"
  data := bytes "hello"
  size_ne := by decide
  digits := by decide +kernel
  value := by decide +kernel
  data_lt := by decide

def zero : Chunk where
  size := bytes "0"
  data := []
  size_ne := by decide
  digits := by decide +kernel
  value := by decide +kernel
  data_lt := by decide

/-- The first size line comes with the head, the data and the last chunk in pieces. -/
def pieces : Socket :=
  [⟨bytes "hel", by decide⟩, ⟨bytes "lo\r", by decide⟩,
    ⟨bytes "\n", by decide⟩, ⟨bytes "0\r\n\r", by decide⟩,
    ⟨bytes "\n", by decide⟩]

theorem chunked_decoding_pieces :
    recvResponse sampleEnv (⟨head ++ bytes "5\r\n", by decide⟩ :: pieces) =
      .got ({ parsed.data with body := bytes "hello" }, []) [] :=
  chunked_decoding sampleEnv [chunk] zero parsed (bytes "5\r\n")
    (⟨head ++ bytes "5\r\n", by decide⟩ :: pieces) pieces [] rfl (by decide)
    (by decide +kernel) (by decide +kernel) (by decide +kernel)
    ⟨by decide, by decide, trivial⟩

/-- A read that ends inside the size line: what is left of the line is no header. -/
theorem cut_inside_size_line :
    ¬ ∀ (env : ConnectionEnv) (cs : List Chunk) (last : Chunk) (p : HttpResponseParser)
      (buffered : Bytes) (sock segs later : Socket), last.data = [] → (∀ c ∈ cs, c.data ≠ []) →
      recvLoop (HttpResponseParser.incremental false) env.buffSize {} [] sock =
        .got (p, buffered) (segs ++ later) →
      p.chunked = true → buffered ++ Socket.bytes segs = encoded cs last →
      recvResponse env sock = .got ({ p.data with body := cs.flatMap Chunk.data }, []) later := by
  intro h
  have hcut := h sampleEnv [chunk] zero parsed []
    [⟨head, by decide⟩, ⟨bytes "5", by decide⟩,
      ⟨bytes "\r\nhello\r\n0\r\n\r\n", by decide⟩]
    [⟨bytes "5", by decide⟩, ⟨bytes "\r\nhello\r\n0\r\n\r\n", by decide⟩] [] rfl
    (by decide +kernel) (by decide +kernel) (by decide +kernel) (by decide +kernel)
  exact absurd hcut (by decide +kernel)

def padded : Chunk :=
  { chunk with
    size := bytes "05"
    size_ne := by decide
    digits := by decide +kernel
    value := by decide +kernel }

-- A cut line may come out right all the same: the digit that is lost is a leading zero.
example :
    ¬ linesWhole sampleEnv [padded, zero] 0
        [⟨bytes "0", by decide⟩, ⟨bytes "5\r\nhello\r\n0\r\n\r\n", by decide⟩] ∧
      recvResponse sampleEnv
          [⟨head, by decide⟩, ⟨bytes "0", by decide⟩,
            ⟨bytes "5\r\nhello\r\n0\r\n\r\n", by decide⟩] =
        .got ({ parsed.data with body := bytes "hello" }, []) [] :=
  ⟨fun h => absurd h.1 (by decide +kernel), by decide +kernel⟩

end Hello
end HCServer.Http
