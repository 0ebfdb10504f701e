import HCServer.Http.Dump
import HCServer.Http.Servlet
import HCServer.Http.Session

/-! `HttpServer::handleClient`: requests are answered one after the other on one connection. What
`sendResponse` returns is not looked at, so a response stands for the call that writes it. -/
namespace HCServer.Http

/-- `fnmatch`, and what the user's servlets make of a response; `none` is an exception. They leave
the session alone. -/
structure ServletEnv (Callback Own : Type*) where
  fnmatch : Bytes → Bytes → Int
  callback : Callback → HttpRequest → HttpResponse → Option HttpResponse
  own : Own → HttpRequest → HttpResponse → Option HttpResponse

/-- `NotFoundServlet`, whose page has the name it was made with. -/
def notFoundContent (name : Bytes) : Bytes :=
  bytes "<html><head><title>404 Not Found" ++
    bytes "</title></head><body><center><h1>404 Not Found</h1></center>" ++
    bytes "<hr><center>" ++ name ++ bytes "</center></body></html>"

def notFoundHandle (name : Bytes) (response : HttpResponse) : HttpResponse :=
  { ((({ response with status := 404 }).setHeader (bytes "Server")
      (bytes "HCServer/1.0.0")).setHeader (bytes "Content-Type") (bytes "text/html")) with
    body := notFoundContent name }

variable {Callback Own : Type*}

/-- `slt->handle` -/
def Servlet.handle (slts : ServletEnv Callback Own) (request : HttpRequest)
    (response : HttpResponse) : Servlet Callback Own → Option HttpResponse
  | .function cb => slts.callback cb request response
  | .notFound name => some (notFoundHandle name response)
  | .own slt => slts.own slt request response

/-- A null servlet leaves the response as it is. `none` where there is an exception, or `get` is
called on a null pointer. -/
def ServletDispatch.handle (d : ServletDispatch Callback Own) (slts : ServletEnv Callback Own)
    (request : HttpRequest) (response : HttpResponse) : Option HttpResponse :=
  (d.getMatchedServlet request.path slts.fnmatch).bind fun slt =>
    match slt with
    | none => some response
    | some slt => slt.handle slts request response

structure HttpServer (Callback Own : Type*) where
  isKeepalive : Bool
  name : Bytes := bytes "HCServer/1.0.0"
  dispatch : ServletDispatch Callback Own := .new

/-- A request with its response, and what is then still to be read. -/
structure Exchange where
  request : HttpRequest
  response : Option HttpResponse
  rest : Socket

namespace HttpServer
variable (server : HttpServer Callback Own) (slts : ServletEnv Callback Own) (env : SessionEnv)

def setName (v : Bytes) : HttpServer Callback Own :=
  { server with name := v, dispatch := server.dispatch.setDefault (some (.notFound v)) }

/-- The response as it goes to the servlet. -/
def newResponse (req : HttpRequest) : HttpResponse :=
  ({ version := req.version, close := req.close || !server.isKeepalive,
     body := bytes "hello zhangyanzhou" } : HttpResponse).setHeader (bytes "Server") server.name

def respond (req : HttpRequest) : Option HttpResponse :=
  server.dispatch.handle slts req (server.newResponse req)

def handleClient (sock : Socket) : List Exchange :=
  match _h : recvRequest env sock with
  | .closed => []
  | .thrown => []
  | .got req sock' =>
    match server.respond slts req with
    | none => [⟨req, none, sock'⟩]
    | some rsp =>
      ⟨req, some rsp, sock'⟩ ::
        if !server.isKeepalive || req.close then [] else handleClient sock'
termination_by sock.bytes.length
decreasing_by exact length_recvRequest_lt env ‹_›

variable {server slts env}

/-- The step of the loop. -/
theorem handleClient_got {sock sock' : Socket} {req : HttpRequest}
    (h : recvRequest env sock = .got req sock') :
    server.handleClient slts env sock =
      ⟨req, server.respond slts req, sock'⟩ ::
        if server.respond slts req = none ∨ (!server.isKeepalive || req.close) = true then []
        else server.handleClient slts env sock' := by
  rw [handleClient]
  split
  · case h_1 hclosed => cases h.symm.trans hclosed
  · case h_2 hthrown => cases h.symm.trans hthrown
  · case h_3 req' sock₁ hgot =>
      cases h.symm.trans hgot
      cases server.respond slts req with
      | none => rw [if_pos (Or.inl rfl)]
      | some rsp => simp

theorem handleClient_none {sock : Socket} (h : ∀ req sock', recvRequest env sock ≠ .got req sock') :
    server.handleClient slts env sock = [] := by
  rw [handleClient]
  split
  · rfl
  · rfl
  · case h_3 req sock' hgot => exact absurd hgot (h req sock')

/-- Every exchange is a request received, with its response. -/
theorem mem_handleClient {sock : Socket} :
    ∀ e ∈ server.handleClient slts env sock, e.response = server.respond slts e.request := by
  fun_induction server.handleClient slts env sock with
  | case1 => exact fun e he => nomatch he
  | case2 => exact fun e he => nomatch he
  | case3 sock req sock' hgot hrsp =>
      intro e he
      rw [List.mem_singleton.mp he]
      exact hrsp.symm
  | case4 sock req sock' hgot rsp hrsp ih =>
      intro e he
      obtain rfl | he := List.mem_cons.mp he
      · exact hrsp.symm
      · split at he
        · cases he
        · exact ih e he

theorem newResponse_close (req : HttpRequest) :
    (server.newResponse req).close = (req.close || !server.isKeepalive) := rfl

/-- The loop as far as it receives requests, where no servlet fails. -/
theorem map_handleClient (h : ∀ req, server.respond slts req ≠ none) (sock : Socket) :
    (server.handleClient slts env sock).map (fun e => (e.request, e.rest)) =
      Http.handleClient env server.isKeepalive sock := by
  fun_induction Http.handleClient env server.isKeepalive sock with
  | case1 sock hclosed => rw [handleClient_none (by simp [hclosed]), List.map_nil]
  | case2 sock hthrown => rw [handleClient_none (by simp [hthrown]), List.map_nil]
  | case3 sock req sock' hgot ih =>
      rw [handleClient_got hgot, List.map_cons]
      simp only [h req, false_or]
      split
      · rfl
      · rw [← ih]

end HttpServer
end HCServer.Http
