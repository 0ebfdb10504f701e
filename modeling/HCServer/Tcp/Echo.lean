import HCServer.ByteArray.Refine
import HCServer.ByteArray.Stream
import HCServer.Lib.Ipv6Text

/-! `ByteArray::toHexString` and the echo server of the examples: a client's bytes go through one
`ByteArray` that is cleared and filled again for each `recv`, and are printed as text or in hex. -/
namespace HCServer
open Lib Lib.Ipv6Text

namespace ByteArray

/-- The loop of `toHexString`, from index `i` on. -/
def hexLoop : Nat → List UInt8 → List UInt8
  | _, [] => []
  | i, v :: str =>
      (if i > 0 ∧ i % 32 = 0 then [10] else []) ++
        hexDigit (v.toNat / 16) :: hexDigit (v.toNat % 16) :: 32 :: hexLoop (i + 1) str

def toHexString (b : ByteArray) : Except Exn (List UInt8) :=
  match b.toString with
  | .error e => .error e
  | .ok str => .ok (hexLoop 0 str)

/-- The bytes that pairs of digits stand for, with white space between the pairs. -/
def hexBytes : List UInt8 → List UInt8
  | a :: b :: text =>
      if a = 10 ∨ a = 32 then hexBytes (b :: text)
      else UInt8.ofNat (16 * hexValue a + hexValue b) :: hexBytes text
  | _ => []

theorem hexBytes_space {a : UInt8} (h : a = 10 ∨ a = 32) (text : List UInt8) :
    hexBytes (a :: text) = hexBytes text := by
  cases text with
  | nil => rfl
  | cons b text => rw [hexBytes, if_pos h]

theorem hexDigit_ne_space : ∀ d < 16, ¬ (hexDigit d = 10 ∨ hexDigit d = 32) := by decide

theorem hexBytes_digits (v : UInt8) (text : List UInt8) :
    hexBytes (hexDigit (v.toNat / 16) :: hexDigit (v.toNat % 16) :: text) = v :: hexBytes text := by
  have hbyte := v.toNat_lt
  have hhigh : v.toNat / 16 < 16 := by omega
  have hlow : v.toNat % 16 < 16 := Nat.mod_lt _ (by decide)
  rw [hexBytes, if_neg (hexDigit_ne_space _ hhigh), (digit_facts _ hhigh).1, (digit_facts _ hlow).1,
    Nat.div_add_mod, UInt8.ofNat_toNat]

theorem hexBytes_hexLoop (i : Nat) (str text : List UInt8) :
    hexBytes (hexLoop i str ++ text) = str ++ hexBytes text := by
  induction str generalizing i with
  | nil => rfl
  | cons v str ih =>
      have hpair : hexBytes (hexDigit (v.toNat / 16) :: hexDigit (v.toNat % 16) :: 32 ::
          (hexLoop (i + 1) str ++ text)) = v :: (str ++ hexBytes text) := by
        rw [hexBytes_digits, hexBytes_space (Or.inr rfl), ih]
      rw [hexLoop]
      split
      · exact (hexBytes_space (Or.inl rfl) _).trans hpair
      · exact hpair

end ByteArray

namespace Echo
open HCServer.Stream

/-- What `handleClient` prints of a `ByteArray`. -/
def shown (m_type : Int) (ba : ByteArray) : Except Exn (List UInt8) :=
  if m_type = 1 then ba.toString else ba.toHexString

/-- One pass of the loop: what it prints and the array, `none` where it breaks. -/
def pass (mem : Nat → Nat → UInt8) (m_type : Int) (ba : ByteArray) (client : Stream.Socket) :
    Except Exn (Option (List UInt8 × ByteArray) × Stream.Socket) :=
  match ByteArray.clear ba with
  | .error e _ => .error e
  | .ok _ ba =>
      match ByteArray.getWriteBuffers mem 1024 ba with
      | .error e _ => .error e
      | .ok (_, iovs) ba =>
          let (rt, bytes, client) := client.recv (ByteArray.room iovs)
          match ByteArray.scatter iovs bytes ba.root with
          | none => .error .fault
          | some root =>
              if rt ≤ 0 then .ok (none, client)
              else
                match ByteArray.setPosition (ba.getPosition + rt.toNat) { ba with root := root } with
                | .error e _ => .error e
                | .ok _ ba =>
                    match ByteArray.setPosition 0 ba with
                    | .error e _ => .error e
                    | .ok _ ba =>
                        match shown m_type ba with
                        | .error e => .error e
                        | .ok text => .ok (some (text, ba), client)

/-- The loop, with at most so many passes. -/
def serve (mem : Nat → Nat → UInt8) (m_type : Int) :
    Nat → ByteArray → Stream.Socket → Except Exn (List UInt8 × Stream.Socket)
  | 0, _, _ => .error .fault
  | passes + 1, ba, client =>
      match pass mem m_type ba client with
      | .error e => .error e
      | .ok (none, client) => .ok ([], client)
      | .ok (some (text, ba), client) =>
          match serve mem m_type passes ba client with
          | .error e => .error e
          | .ok (out, client) => .ok (text ++ out, client)

/-- `handleClient`: all that it prints for a client; the last pass is the one behind the last call. -/
def handleClient (mem : Nat → Nat → UInt8) (m_type : Int) (client : Stream.Socket) :
    Except Exn (List UInt8 × Stream.Socket) :=
  serve mem m_type (client.calls.length + 1) (ByteArray.new mem 4096) client

/-- The print of the bytes of one `recv`. -/
def print (m_type : Int) (bytes : List UInt8) : List UInt8 :=
  if m_type = 1 then bytes else ByteArray.hexLoop 0 bytes

/-- The bytes that a print shows. -/
def printed (m_type : Int) (out : List UInt8) : List UInt8 :=
  if m_type = 1 then out else ByteArray.hexBytes out

theorem printed_print (m_type : Int) (bytes out : List UInt8) :
    printed m_type (print m_type bytes ++ out) = bytes ++ printed m_type out := by
  unfold printed print
  split
  · rfl
  · exact ByteArray.hexBytes_hexLoop 0 bytes out

variable {mem : Nat → Nat → UInt8} {m_type : Int} {ba : ByteArray} {client : Stream.Socket}

theorem shown_content (h : ByteArray.Rep ba) (hpos : ba.position = 0) :
    shown m_type ba = .ok (print m_type ba.content) := by
  have hstring : ba.toString = .ok ba.content := by rw [ByteArray.toString_spec h, hpos, List.drop_zero]
  rw [shown, print, ByteArray.toHexString, hstring]
  split <;> rfl

theorem seek_start (h : ByteArray.Rep ba) :
    ∃ ba', ByteArray.setPosition 0 ba = .ok () ba' ∧ ByteArray.Rep ba' ∧ ba'.position = 0 ∧
      ba'.content = ba.content := by
  obtain ⟨ba', hset, hrep, hpos, hsize, hroot, -⟩ := ByteArray.setPosition_spec h (Nat.zero_le _)
  refine ⟨ba', hset, hrep, hpos, ?_⟩
  rw [ByteArray.content, ByteArray.content, hroot, hsize, Nat.max_zero]

/-- A pass prints the bytes it has received, or breaks without any. -/
theorem pass_spec (mem : Nat → Nat → UInt8) (m_type : Int) (client : Stream.Socket) (h : ByteArray.Rep ba) :
    ∃ count, count = (client.moved (min 1024 client.incoming.length)).2 ∧
      ∃ client' : Stream.Socket, client'.incoming = client.incoming.drop count ∧
        client'.calls = client.calls.tail ∧
        (count = 0 ∧ pass mem m_type ba client = .ok (none, client') ∨
          0 < count ∧ ∃ ba', ByteArray.Rep ba' ∧
            pass mem m_type ba client =
              .ok (some (print m_type (client.incoming.take count), ba'), client')) := by
  obtain ⟨ba1, hclear, hrep1, hpos1, hsize1, -⟩ := ByteArray.clear_spec h
  obtain ⟨iovs, ba2, hget, hrep2, hsame, hroom, hfit, hscatter⟩ :=
    ByteArray.getWriteBuffers_room mem hrep1 (show 0 < 1024 by decide)
  obtain ⟨rt, count, hcall, hcount⟩ := client.moved_cases (min 1024 client.incoming.length) (by omega)
  have hlen : (client.incoming.take count).length = count := by
    rw [List.length_take]
    omega
  obtain ⟨root, hfilled, hu, hnodes, hbytes⟩ := hscatter (client.incoming.take count) (by omega)
  obtain ⟨client', hrecv, hin, hcalls⟩ : ∃ client', client.recv 1024 =
      (rt, client.incoming.take count, client') ∧ client'.incoming = client.incoming.drop count ∧
      client'.calls = client.calls.tail :=
    ⟨_, by rw [Stream.Socket.recv, hcall], rfl, rfl⟩
  refine ⟨count, by rw [hcall], client', hin, hcalls, ?_⟩
  rw [pass, hclear]
  dsimp only
  rw [hget]
  dsimp only
  rw [hroom, hrecv]
  dsimp only
  rw [hfilled]
  dsimp only
  rcases hcount with ⟨hsome, hle, hrt⟩ | ⟨hnone, hrt⟩
  · obtain ⟨ba3, hset, hrep3, hcontent, -⟩ := hrep2.filled hu hnodes hbytes (by omega)
    obtain ⟨ba4, hseek, hrep4, hpos4, hsame4⟩ := seek_start hrep3
    have hempty : ba2.content = [] := by rw [hsame.content, ByteArray.content_of_size_zero hsize1]
    have hshown : ba4.content = client.incoming.take count := by
      rw [hsame4, hcontent, hempty, hsame.position, hpos1]
      simp [overwrite]
    rw [hlen] at hset
    refine Or.inr ⟨hsome, ba4, hrep4, ?_⟩
    rw [if_neg (by omega), hrt, Int.toNat_natCast, ByteArray.getPosition, hset]
    dsimp only
    rw [hseek]
    dsimp only
    rw [shown_content hrep4 hpos4, hshown]
  · exact Or.inl ⟨hnone, by rw [if_pos hrt]⟩

/-- Calls that all move something go on doing so behind one of them. -/
theorem reliable_rest {client' : Stream.Socket} {count : Nat} (h : client.Reliable client.incoming.length)
    (hcount : 0 < count) (hle : count ≤ client.incoming.length)
    (hin : client'.incoming = client.incoming.drop count) (hcalls : client'.calls = client.calls.tail) :
    client'.Reliable client'.incoming.length := by
  rw [Stream.Socket.Reliable, hcalls, hin, List.length_drop]
  exact h.tail (by omega)

theorem serve_spec (mem : Nat → Nat → UInt8) (m_type : Int) (passes : Nat) (ba : ByteArray)
    (client : Stream.Socket) (h : ByteArray.Rep ba) (hpasses : client.calls.length < passes) :
    ∃ out client', serve mem m_type passes ba client = .ok (out, client') ∧
      printed m_type out ++ client'.incoming = client.incoming ∧
      (client.Reliable client.incoming.length → client'.incoming = []) := by
  induction passes generalizing ba client with
  | zero => exact absurd hpasses (Nat.not_lt_zero _)
  | succ passes ih =>
      obtain ⟨count, hcount, client', hin, hcalls, hpass⟩ := pass_spec mem m_type client h
      rcases hpass with ⟨hnone, hbreak⟩ | ⟨hsome, ba', hrep, hprints⟩
      · have hall : client'.incoming = client.incoming := by rw [hin, hnone, List.drop_zero]
        refine ⟨[], client', by rw [serve, hbreak], ?_, ?_⟩
        · rw [hall]
          exact congrArg (· ++ client.incoming) (ite_self _)
        · intro hreliable
          rw [hall]
          by_contra hleft
          have hpos := List.length_pos_of_ne_nil hleft
          have hmoves := hreliable.moved hpos (show 0 < min 1024 client.incoming.length by omega)
          omega
      · have hle : count ≤ client.incoming.length := by
          obtain ⟨rt, count', hcall, hcases⟩ :=
            client.moved_cases (min 1024 client.incoming.length) (by omega)
          rw [hcall] at hcount
          omega
        have hmore : client'.calls.length < passes := by
          have hcall : client.calls ≠ [] := by
            intro hnil
            rw [Stream.Socket.moved, hnil] at hcount
            exact absurd hcount hsome.ne'
          have hlen := List.length_pos_of_ne_nil hcall
          rw [hcalls, List.length_tail]
          omega
        obtain ⟨out, last, hserve, hprinted, hend⟩ := ih ba' client' hrep hmore
        refine ⟨print m_type (client.incoming.take count) ++ out, last, ?_, ?_, ?_⟩
        · rw [serve, hprints]
          dsimp only
          rw [hserve]
        · rw [printed_print, List.append_assoc, hprinted, hin, List.take_append_drop]
        · exact fun hreliable => hend (reliable_rest hreliable hsome hle hin hcalls)

/-- Whatever becomes of the calls, `handleClient` ends without a fault, and its print shows the bytes
that it has taken from the connection, in their order; over a connection that works these are all. -/
theorem client_echoed (mem : Nat → Nat → UInt8) (m_type : Int) (client : Stream.Socket) :
    ∃ out client', handleClient mem m_type client = .ok (out, client') ∧
      printed m_type out ++ client'.incoming = client.incoming ∧
      (client.Reliable client.incoming.length → client'.incoming = []) :=
  serve_spec mem m_type _ _ client (ByteArray.rep_new mem (by decide)) (Nat.lt_succ_self _)

end Echo
end HCServer
