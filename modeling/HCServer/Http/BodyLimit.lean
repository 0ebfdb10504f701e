import HCServer.Http.Connection

/-! The limits on the sizes of bodies, which are configured and cached and which nothing consults:
the runs of `recvRequest` and `recvResponse` again, with the sizes that they give to a body and with
all that they append to one. -/
namespace HCServer.Http

/-- Decimal digits. -/
def IsNumber (text : Bytes) : Prop := text ≠ [] ∧ ∀ b ∈ text, digitValue b < 10

instance : DecidablePred IsNumber := fun text =>
  decidable_of_iff (text ≠ [] ∧ (text.all fun b => decide (digitValue b < 10)) = true)
    (by simp only [List.all_eq_true, decide_eq_true_eq, IsNumber])

/-- A number above the limit, with or without a plus, or one with a minus. -/
inductive Oversized (limit : Nat) : Bytes → Prop
  | above {digits : Bytes} : IsNumber digits → limit < digitsValue 10 digits →
      Oversized limit digits
  | plus {digits : Bytes} : IsNumber digits → limit < digitsValue 10 digits →
      Oversized limit (43 :: digits)
  | negative {digits : Bytes} : IsNumber digits → digitsValue 10 digits ≠ 0 →
      Oversized limit (45 :: digits)

/-- The headers announce a body that is over the limit. -/
def MapType.Oversized (headers : MapType) (limit : Nat) : Prop :=
  ∃ text, headers.find (bytes "content-length") = some text ∧ Http.Oversized limit text

section Request
variable (env : SessionEnv)

/-- `recvRest`, with the sizes that `body.resize` is called with. -/
def recvRestSized (parsed : Parsed) (rest : Bytes) (sock : Socket) :
    List Nat × Received HttpRequest :=
  let length := (parsed.getContentLength env.lexicalCast).toInt64.toInt
  if 0 < length then
    ([length.toNat], (recvBody length rest sock).bind fun body sock =>
      .got { parsed.data with body := body }.init sock)
  else ([], .got parsed.data.init sock)

def recvRequestSized (sock : Socket) : List Nat × Received HttpRequest :=
  match recvHead env { uriRelaxed := env.uriRelaxed } sock with
  | .closed => ([], .closed)
  | .thrown => ([], .thrown)
  | .got r sock => recvRestSized env r.1.toParsed r.2 sock

theorem recvRestSized_snd (parsed : Parsed) (rest : Bytes) (sock : Socket) :
    (recvRestSized env parsed rest sock).2 = recvRest env parsed rest sock := by
  simp only [recvRestSized, recvRest]
  split <;> rfl

theorem recvRequestSized_snd (sock : Socket) :
    (recvRequestSized env sock).2 = recvRequest env sock := by
  rw [recvRequestSized, recvRequest]
  cases recvHead env { uriRelaxed := env.uriRelaxed } sock with
  | closed => rfl
  | thrown => rfl
  | got r sock => exact recvRestSized_snd env r.1.toParsed r.2 sock

end Request

/-- A round of the loop over the chunks, with its size line read. -/
structure ChunkRound where
  contentLen : Int
  data : Bytes
  body : Bytes
  sock : Socket

namespace ChunkRound
variable (env : ConnectionEnv) (r : ChunkRound)

/-- How many bytes of the chunk come: its line end counts where the buffer does not hold all of the
chunk. -/
def share : Nat :=
  if r.contentLen + 2 ≤ r.data.length then r.contentLen.toNat
  else r.data.length + min (r.contentLen - r.data.length + 2).toNat r.sock.bytes.length

variable {env r} {limit : Nat}

end ChunkRound

section Response
variable (env : ConnectionEnv)

/-- With `total` bytes in the chunks so far, none of the chunks to come takes it past the limit. -/
def Within (limit : Nat) : Int → List ChunkRound → Prop
  | _, [] => True
  | total, r :: rs => total + r.share ≤ limit ∧ Within limit (total + r.contentLen) rs

/-- `recvResponse`, with the sizes that `body.resize` is called with for an announced length. -/
def recvResponseSized (sock : Socket) : List Nat × Received (HttpResponse × Bytes) :=
  match recvLoop (HttpResponseParser.incremental false) env.buffSize {} [] sock with
  | .closed => ([], .closed)
  | .thrown => ([], .thrown)
  | .got r sock =>
    if r.1.chunked then
      ([], (recvChunks env r.1 r.2 [] sock).bind fun c sock =>
        .got (if c.2.1 = [] then c.1.data else { c.1.data with body := c.2.1 }, c.2.2) sock)
    else
      let length := (r.1.getContentLength env.lexicalCast).toInt64.toInt
      if 0 < length then
        ([length.toNat], (recvBody length r.2 sock).bind fun body sock =>
          .got ({ r.1.data with body := body }, r.2.drop length.toNat) sock)
      else ([], .got (r.1.data, r.2) sock)

theorem recvResponseSized_snd (sock : Socket) :
    (recvResponseSized env sock).2 = recvResponse env sock := by
  rw [recvResponseSized, recvResponse]
  cases recvLoop (HttpResponseParser.incremental false) env.buffSize {} [] sock with
  | closed => rfl
  | thrown => rfl
  | got r sock =>
      simp only [Received.bind]
      split
      · rfl
      · split <;> rfl

end Response

namespace BodyLimit

def announced : Bytes := bytes "99999999"

def sampleEnv : SessionEnv :=
  ⟨4096, false, fun text => if text = announced then some 99999999 else none⟩

def head : Bytes := bytes "POST / HTTP/1.1\r\nContent-Length: 99999999\r\n\r\n"

def parser : HttpRequestParser :=
  ((HttpRequestParser.execute { uriRelaxed := false } head).get (by decide)).1

end BodyLimit

end HCServer.Http
