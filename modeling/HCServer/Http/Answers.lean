import HCServer.Http.ResponseRoundTrip
import HCServer.Http.Server

/-! What the server writes can be read: from a received request on, over the response that goes to
the servlets, to the bytes that the client parses. -/
namespace HCServer.Http
open Lib
open Uris (Chars)

/-! ### What is received -/

/-- What holds of every request that the parser makes. -/
structure Accepted (d : HttpRequest) : Prop where
  version : d.version = 0x10 ∨ d.version = 0x11
  method : d.method ≠ .invalidMethod
  distinct : d.headers.Pairwise Apart
  named : ∀ i ∈ d.headers, i.1 ≠ []

theorem Accepted.init {d : HttpRequest} (h : Accepted d) : Accepted d.init := by
  unfold HttpRequest.init
  split
  · exact h
  · exact ⟨h.version, h.method, h.distinct, h.named⟩

namespace MapType
variable {m : MapType} {key val : Bytes}

theorem mem_assign {i : Bytes × Bytes} (h : i ∈ m.assign key val) :
    i ∈ m ∨ i.2 = val ∧ (i.1 = key ∨ ∃ e ∈ m, e.1 = i.1) := by
  unfold assign at h
  split at h
  · obtain ⟨e, he, rfl⟩ := List.mem_map.mp h
    split
    · exact Or.inr ⟨rfl, Or.inr ⟨e, he, rfl⟩⟩
    · exact Or.inl he
  · obtain h | h := List.mem_append.mp h
    · exact Or.inl h
    · rw [List.mem_singleton.mp h]
      exact Or.inr ⟨rfl, Or.inl rfl⟩

/-- The names stay apart. -/
theorem assign_apart (h : m.Pairwise Apart) (key val : Bytes) :
    (m.assign key val).Pairwise Apart := by
  unfold assign
  split
  · apply List.Pairwise.map _ _ h
    intro i j hij
    have hname (e : Bytes × Bytes) :
        (if strcasecmpEq e.1 key then (e.1, val) else e).1 = e.1 := by
      split
      · rfl
      · rfl
    change strcasecmpEq _ _ = false
    rw [hname, hname]
    exact hij
  · case isFalse hnone =>
      refine List.pairwise_append.mpr ⟨h, List.pairwise_singleton _ _, ?_⟩
      intro e he i hi
      rw [List.mem_singleton.mp hi]
      change strcasecmpEq e.1 key = false
      rw [← Bool.not_eq_true]
      exact fun hsame => hnone (List.any_eq_true.mpr ⟨e, he, hsame⟩)

end MapType

namespace Answerable
variable {r : HttpResponse}

/-- A servlet may set headers. -/
theorem setHeader (h : Answerable r) {key val : Bytes} (hkey : OtherName key)
    (hval : FieldValue val) : Answerable (r.setHeader key val) := by
  refine ⟨h.version, h.status, h.reason, h.websocket, ?_, MapType.assign_apart h.distinct key val,
    h.cookies, h.body⟩
  intro i hi
  obtain ⟨hi, hwritten⟩ := mem_writtenHeaders.mp hi
  obtain hi | ⟨hvalue, hi | ⟨e, he, hi⟩⟩ := MapType.mem_assign hi
  · exact h.plain i (mem_writtenHeaders.mpr ⟨hi, hwritten⟩)
  · rw [hi, hvalue]
    exact ⟨hkey, hval⟩
  · rw [← hi] at hwritten ⊢
    rw [hvalue]
    exact ⟨(h.plain e (mem_writtenHeaders.mpr ⟨he, hwritten⟩)).1, hval⟩

end Answerable

namespace HttpServer
variable {Callback Own : Type*} {server : HttpServer Callback Own}
  {slts : ServletEnv Callback Own} {env : SessionEnv}

end HttpServer

namespace Answers
open RoundTrip

def silent : ServletEnv Empty Empty := ⟨fun _ _ => 1, nofun, nofun⟩

def server : HttpServer Empty Empty := HttpServer.setName { isKeepalive := true } (bytes "hc")

theorem plainGet_dump_ne : plainGet.dump ≠ [] := by decide

/-- The two requests of `pieces` and of a second client that closes. -/
def sock : Socket := pieces ++ [⟨plainGet.dump, plainGet_dump_ne⟩]

end Answers
end HCServer.Http
