import HCServer.Http.Answers

/-! A client that sends each request after the response to the one before, and a server's
`handleClient` at the other end: what either side writes comes in pieces of its own. -/
namespace HCServer.Http

section
variable {Callback Own : Type*} {server : HttpServer Callback Own}
  {slts : ServletEnv Callback Own} {session : SessionEnv} {client : ConnectionEnv}

end

namespace Conversation
open RoundTrip

def server : HttpServer Unit Empty :=
  { isKeepalive := true, dispatch := ServletDispatch.new.addServletCallback (bytes "/") () }

theorem buffSize_lt : 4096 < 2 ^ 31 := by decide

def client : ConnectionEnv := ⟨4096, buffSize_lt, castDecimal⟩

def answer (version : Nat) (close : Bool) (body : Bytes) : HttpResponse :=
  { version, close, body, headers := [(bytes "Server", bytes "HCServer/1.0.0")] }

end Conversation
end HCServer.Http
