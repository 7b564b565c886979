import Mathlib.Data.List.Perm.Basic
import Mathlib.Data.UInt

/-!
# Net/Datagrams — `send` of a `UdpSocket`, and the receive loop of its peer

    send:      destination?  sock_ open?  sendto(data)                       any size sendto takes
    recvLoop:  recvfrom(buf, 2048) … n < 0: once more, or the end
                                     n = 0: once more
                                     else:  lastPeer_, statistics, dispatchMessage(buf[0, n))

A datagram is one message.  But the buffer holds 2048 bytes, to which `recvfrom` cuts what arrives,
and an empty datagram takes the branch of a call that has read nothing.  What is dispatched is what
arrived, cut and without the empty ones (`recvLoop_dispatched`): exactly the payloads that arrived,
if and only if each has between 1 and 2048 bytes (`dispatches_delivered_iff`).
-/

namespace AxonVex

namespace UdpSocket

abbrev Payload := List UInt8

/-- `detail::ResolvedAddress`: the bytes of the storage that count. -/
structure ResolvedAddress where
  storage : List UInt8
  deriving DecidableEq, Repr

structure ProtocolStatistics where
  messagesSent : UInt64 := 0
  bytesSent : UInt64 := 0
  messagesReceived : UInt64 := 0
  bytesReceived : UInt64 := 0
  deriving DecidableEq, Repr

/-- What `send` and `recvLoop` see of a socket. -/
structure Endpoint where
  /-- unless `remoteSet_` is false -/
  remoteAddr_ : Option ResolvedAddress := none
  /-- unless `lastPeerSet_` is false -/
  lastPeer_ : Option ResolvedAddress := none
  /-- the descriptor, unless it is negative -/
  sock_ : Option ℕ := none
  running_ : Bool := false
  connectionAlive_ : Bool := false
  stats_ : ProtocolStatistics := {}
  /-- the calls of `reportError` -/
  errors : List String := []
  /-- the calls of `dispatchMessage` -/
  dispatched : List Payload := []

namespace Endpoint

variable (s : Endpoint)

/-! ## send -/

/-- How `::sendto` ends. -/
inductive SendTo
  | sent (n : ℕ)
  | failed (message : String)
  deriving DecidableEq, Repr

def reportError (message : String) : Endpoint := { s with errors := s.errors ++ [message] }

/-- Where `send` sends to. -/
def dest : ResolvedAddress := (s.remoteAddr_.or s.lastPeer_).getD ⟨[]⟩

/-- `send(data)`, where `::sendto` does this. -/
def send (sendto : Payload → ResolvedAddress → SendTo) (data : Payload) : Endpoint × Bool :=
  if s.dest.storage.length = 0 then
    (s.reportError ("udp: no destination (configure remote_host/remote_port or receive a " ++
      "packet first)"), false)
  else match s.sock_ with
    | none => (s.reportError "udp: send refused — socket is not open (start() opens it)", false)
    | some _ => match sendto data s.dest with
      | .failed message => (s.reportError ("udp: sendto failed: " ++ message), false)
      | .sent n =>
        ({ s with stats_ := { s.stats_ with
            messagesSent := s.stats_.messagesSent + 1
            bytesSent := s.stats_.bytesSent + UInt64.ofNat n } }, true)

/-! ## recvLoop -/

/-- The size of `buf`. -/
def bufferSize : ℕ := 2048

/-- What `::recvfrom` meets. -/
inductive Received
  | datagram (data : Payload) (peer : ResolvedAddress)
  /-- `EINTR`, `EAGAIN` or `EWOULDBLOCK` -/
  | again
  | failed (message : String)
  deriving DecidableEq, Repr

/-- `::recvfrom` puts as much of a datagram into the buffer as fits, and returns how much. -/
def recvfrom (buf data : Payload) : Payload × ℕ :=
  (data.take bufferSize ++ buf.drop (min data.length bufferSize), min data.length bufferSize)

/-- A turn of the loop. -/
def receive (buf : Payload) : Received → Endpoint × Payload
  | .again => (s, buf)
  | .failed message =>
    ({ s with connectionAlive_ := false }.reportError ("udp: recvfrom error: " ++ message), buf)
  | .datagram data peer =>
    let (buf, n) := recvfrom buf data
    if n = 0 then (s, buf)
    else
      ({ s with
          lastPeer_ := some peer
          stats_ := { s.stats_ with
            bytesReceived := s.stats_.bytesReceived + UInt64.ofNat n
            messagesReceived := s.stats_.messagesReceived + 1 }
          dispatched := s.dispatched ++ [buf.take n] }, buf)

/-- `recvLoop`, while the flags are set and calls of `::recvfrom` come back. -/
def recvLoop (s : Endpoint) (buf : Payload) : List Received → Endpoint
  | [] => s
  | r :: rs =>
    if s.running_ && s.connectionAlive_ then (s.receive buf r).1.recvLoop (s.receive buf r).2 rs
    else s

variable {s} {buf : Payload}

/-- The bytes that are handed on are those that were just received. -/
theorem recvfrom_data (buf data : Payload) :
    (recvfrom buf data).1.take (recvfrom buf data).2 = data.take bufferSize := by
  have hlength : min data.length bufferSize = (data.take bufferSize).length := by
    rw [List.length_take, Nat.min_comm]
  rw [recvfrom, hlength, List.take_left]

/-- What becomes of a datagram: nothing of an empty one, and the front of any other. -/
def heard : Received → List Payload
  | .datagram data _ => if data = [] then [] else [data.take bufferSize]
  | _ => []

/-- The payloads that the network delivers. -/
def delivered : List Received → List Payload
  | [] => []
  | .datagram data _ :: rs => data :: delivered rs
  | _ :: rs => delivered rs

theorem receive_dispatched (r : Received) :
    (s.receive buf r).1.dispatched = s.dispatched ++ heard r := by
  cases r with
  | again => exact (List.append_nil _).symm
  | failed message => exact (List.append_nil _).symm
  | datagram data peer =>
    have hsize : (recvfrom buf data).2 = 0 ↔ data = [] := by
      simp only [recvfrom, bufferSize]
      rw [← List.length_eq_zero_iff]
      omega
    simp only [receive, heard]
    by_cases hdata : data = []
    · rw [if_pos (hsize.mpr hdata), if_pos hdata, List.append_nil]
    · rw [if_neg (mt hsize.mp hdata), if_neg hdata]
      simp only [recvfrom_data]

/-- Only a failure of `::recvfrom` ends the loop from inside. -/
theorem receive_flags {r : Received} (hr : ∀ message, r ≠ .failed message) :
    (s.receive buf r).1.running_ = s.running_ ∧
      (s.receive buf r).1.connectionAlive_ = s.connectionAlive_ := by
  cases r with
  | again => exact ⟨rfl, rfl⟩
  | failed message => exact absurd rfl (hr message)
  | datagram data peer =>
    simp only [receive]
    split <;> exact ⟨rfl, rfl⟩

/-- **A running peer dispatches** what arrives, in order, cut to the buffer and without the empty
datagrams. -/
theorem recvLoop_dispatched {rs : List Received} (hrunning : s.running_ = true)
    (halive : s.connectionAlive_ = true) (hrs : ∀ r ∈ rs, ∀ message, r ≠ .failed message) :
    (s.recvLoop buf rs).dispatched = s.dispatched ++
      ((delivered rs).filter fun data => data ≠ []).map (List.take bufferSize) := by
  induction rs generalizing s buf with
  | nil => exact (List.append_nil _).symm
  | cons r rs ih =>
    have hr := hrs r (List.mem_cons_self ..)
    obtain ⟨hrunning', halive'⟩ : (s.receive buf r).1.running_ = s.running_ ∧
        (s.receive buf r).1.connectionAlive_ = s.connectionAlive_ := receive_flags hr
    rw [recvLoop, if_pos (by rw [hrunning, halive]; rfl),
      ih (hrunning'.trans hrunning) (halive'.trans halive)
        fun r' hr' => hrs r' (List.mem_cons_of_mem _ hr'),
      receive_dispatched, List.append_assoc]
    congr 1
    cases r with
    | again => rfl
    | failed message => exact absurd rfl (hr message)
    | datagram data peer =>
      rw [delivered, heard]
      by_cases hdata : data = []
      · rw [if_pos hdata, List.filter_cons_of_neg (by simpa using hdata), List.nil_append]
      · rw [if_neg hdata, List.filter_cons_of_pos (by simpa using hdata), List.map_cons,
          List.singleton_append]

/-- Nothing is lost exactly when nothing is empty and everything fits. -/
theorem cut_eq_self_iff {payloads : List Payload} {n : ℕ} :
    (payloads.filter fun data => data ≠ []).map (List.take n) = payloads ↔
      ∀ data ∈ payloads, data ≠ [] ∧ data.length ≤ n := by
  refine ⟨fun h => ?_, fun h => ?_⟩
  · have hlength := congrArg List.length h
    rw [List.length_map, List.length_filter_eq_length_iff] at hlength
    have hfilter : (payloads.filter fun data => data ≠ []) = payloads :=
      List.filter_eq_self.mpr hlength
    rw [hfilter] at h
    intro data hdata
    refine ⟨of_decide_eq_true (hlength data hdata), ?_⟩
    have hall : ∀ d ∈ payloads, d.length ≤ n := by
      rw [← h]
      intro d hd
      obtain ⟨d', -, rfl⟩ := List.mem_map.mp hd
      exact List.length_take_le n d'
    exact hall data hdata
  · rw [List.filter_eq_self.mpr fun data hdata => decide_eq_true (h data hdata).1]
    conv_rhs => rw [← List.map_id payloads]
    exact List.map_congr_left fun data hdata => List.take_of_length_le (h data hdata).2

/-! ## From a socket to its peer -/

/-- A call of `send`, with the socket as it is then. -/
structure SendCall where
  socket : Endpoint
  sendto : Payload → ResolvedAddress → SendTo
  data : Payload

/-- The payloads for which `send` returns true. -/
def accepted (calls : List SendCall) : List Payload :=
  (calls.filter fun c => (c.socket.send c.sendto c.data).2).map SendCall.data

/-- What the network makes of the datagrams sent: some of them arrive, in some order, between calls
of `::recvfrom` that find nothing. -/
structure Network (sent : List Payload) where
  received : List Received
  delivers : (delivered received).Subperm sent
  works : ∀ r ∈ received, ∀ message, r ≠ .failed message

/-- **A running peer dispatches exactly what is delivered** if and only if every payload has between
1 and 2048 bytes. -/
theorem dispatches_delivered_iff (calls : List SendCall) (network : Network (accepted calls))
    {peer : Endpoint} (hrunning : peer.running_ = true) (halive : peer.connectionAlive_ = true)
    (buf : Payload) : (peer.recvLoop buf network.received).dispatched =
        peer.dispatched ++ delivered network.received ↔
      ∀ data ∈ delivered network.received, data ≠ [] ∧ data.length ≤ bufferSize := by
  rw [recvLoop_dispatched hrunning halive network.works, List.append_cancel_left_eq,
    cut_eq_self_iff]

/-! ### Single datagrams -/

/-- `::sendto` over IPv4. -/
def ipv4 (data : Payload) (_ : ResolvedAddress) : SendTo :=
  if data.length ≤ 65507 then .sent data.length else .failed "Message too long"

/-- A socket that knows its remote. -/
def opened : Endpoint :=
  { remoteAddr_ := some ⟨[127, 0, 0, 1]⟩, sock_ := some 3, running_ := true
    connectionAlive_ := true }

/-- One `send`. -/
def sends (data : Payload) : List SendCall := [{ socket := opened, sendto := ipv4, data }]

theorem accepted_sends {data : Payload} (hdata : data.length ≤ 65507) :
    accepted (sends data) = [data] := by
  have hsent : ipv4 data opened.dest = .sent data.length := if_pos hdata
  have hreturns : (opened.send ipv4 data).2 = true := by
    rw [send, if_neg (by decide)]
    simp only [opened] at hsent ⊢
    rw [hsent]
  rw [accepted, sends, List.filter_eq_self.mpr fun c hc => List.mem_singleton.mp hc ▸ hreturns]
  rfl

/-- The network delivers it. -/
def deliver (data : Payload) (hdata : data.length ≤ 65507) : Network (accepted (sends data)) where
  received := [.again, .datagram data ⟨[127, 0, 0, 1]⟩]
  delivers := by
    rw [accepted_sends hdata]
    exact .refl _
  works := by simp

/-- An empty datagram is not dispatched, and of 65507 bytes only the first 2048 are. -/
theorem datagrams_lost :
    (opened.recvLoop [] (deliver [] (by decide)).received).dispatched = [] ∧
      ¬ ∀ (calls : List SendCall) (network : Network (accepted calls)) (peer : Endpoint)
        (buf : Payload), peer.running_ = true → peer.connectionAlive_ = true →
        (peer.recvLoop buf network.received).dispatched =
          peer.dispatched ++ delivered network.received := by
  refine ⟨by decide, fun h => ?_⟩
  have hsize : (List.replicate 65507 (0 : UInt8)).length ≤ 65507 := List.length_replicate.le
  have hlost := h _ (deliver _ hsize) opened [] rfl rfl
  rw [recvLoop_dispatched rfl rfl (deliver _ hsize).works, List.append_cancel_left_eq,
    cut_eq_self_iff] at hlost
  have hfits := (hlost _ (List.mem_singleton.mpr rfl)).2
  rw [List.length_replicate] at hfits
  exact absurd hfits (by decide)

theorem dispatches_delivered_bytes : (opened.recvLoop []
    (deliver [1, 2, 3] (by decide)).received).dispatched = [] ++ [[1, 2, 3]] :=
  (dispatches_delivered_iff (sends [1, 2, 3]) (deliver [1, 2, 3] (by decide)) rfl rfl []).mpr (by decide)

end Endpoint

end UdpSocket

end AxonVex
