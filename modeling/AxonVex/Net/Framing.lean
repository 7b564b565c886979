import AxonVex.Machinery.Deframer
import Mathlib.Data.List.GetD
import Mathlib.Data.UInt

/-!
# Net/Framing — the frames of a TCP connection

    send(payload)  --bytes-->  recv, recv, …  --recvLoop-->  dispatchMessage(payload)

A frame is `AF 01`, the length of the payload as four bytes, the highest first, and the payload.
`recvLoop` appends what `recv` returns to a buffer and cuts complete frames off its front; it looks
at the magic bytes as soon as they are there, and gives the connection up when they, or the length,
are not those of a frame.  What it dispatches depends on the bytes alone (`recvLoop_frames`).
-/

namespace AxonVex

open Machinery

namespace TcpClient

/-! ## The wire format -/

def kFrameMagic0 : UInt8 := 0xAF
def kFrameMagic1 : UInt8 := 0x01
def kFrameHeaderSize : ℕ := 6
def kMaxFrameLength : UInt32 := 16 * 1024 * 1024

/-- The header of `send`. -/
def header (len : UInt32) : List UInt8 :=
  [kFrameMagic0, kFrameMagic1, ((len >>> 24) &&& 0xFF).toUInt8, ((len >>> 16) &&& 0xFF).toUInt8,
    ((len >>> 8) &&& 0xFF).toUInt8, (len &&& 0xFF).toUInt8]

/-- What `send` writes for a payload. -/
def frame (data : List UInt8) : List UInt8 := header data.length.toUInt32 ++ data

/-- The length that `recvLoop` reads in a header. -/
def frameLength (b₂ b₃ b₄ b₅ : UInt8) : UInt32 :=
  (b₂.toUInt32 <<< 24) ||| (b₃.toUInt32 <<< 16) ||| (b₄.toUInt32 <<< 8) ||| b₅.toUInt32

/-- The bytes of the magic that are there are wrong. -/
abbrev WrongMagic (buffer : List UInt8) : Prop :=
  buffer.getD 0 0 ≠ kFrameMagic0 ∨ (2 ≤ buffer.length ∧ buffer.getD 1 0 ≠ kFrameMagic1)

/-- The length in the header at the front of the buffer. -/
def headerLength (buffer : List UInt8) : UInt32 :=
  frameLength (buffer.getD 2 0) (buffer.getD 3 0) (buffer.getD 4 0) (buffer.getD 5 0)

/-- The frame at the front of the buffer. -/
def nextFrame (buffer : List UInt8) : Next UInt8 (List UInt8) :=
  let avail := buffer.length
  if avail = 0 then .wait
  else if WrongMagic buffer then .reject
  else if avail < kFrameHeaderSize then .wait
  else
    let len := headerLength buffer
    if kMaxFrameLength < len then .reject
    else if avail < kFrameHeaderSize + len.toNat then .wait
    else .item ((buffer.drop kFrameHeaderSize).take len.toNat)
      (buffer.drop (kFrameHeaderSize + len.toNat))

/-! ### It can be read -/

theorem toUInt8_mask (x : UInt32) : (x &&& 0xFF).toUInt8 = x.toUInt8 := by
  apply UInt8.toNat_inj.mp
  rw [UInt32.toNat_toUInt8, UInt32.toNat_toUInt8, UInt32.toNat_and]
  exact (congrArg (· % 256) (Nat.and_two_pow_sub_one_eq_mod x.toNat 8)).trans (Nat.mod_mod ..)

theorem getLsbD_mod_byte (x : BitVec 32) (i : ℕ) :
    (x % 256#32).getLsbD i = (decide (i < 8) && x.getLsbD i) := by
  rw [BitVec.getLsbD, BitVec.toNat_umod]
  exact Nat.testBit_mod_two_pow x.toNat 8 i

/-- The four bytes of a length are read back. -/
theorem frameLength_bytes (len : UInt32) :
    frameLength ((len >>> 24) &&& 0xFF).toUInt8 ((len >>> 16) &&& 0xFF).toUInt8
      ((len >>> 8) &&& 0xFF).toUInt8 (len &&& 0xFF).toUInt8 = len := by
  simp only [toUInt8_mask, frameLength]
  rw [← UInt32.toBitVec_inj]
  apply BitVec.eq_of_getLsbD_eq
  intro i hi
  simp only [UInt32.toUInt32_toUInt8, UInt32.toBitVec_or, UInt32.toBitVec_shiftLeft,
    UInt32.toBitVec_mod, UInt32.toBitVec_shiftRight, UInt32.toBitVec_ofNat, BitVec.ofNat_eq_ofNat,
    BitVec.reduceMod, BitVec.ushiftRight_eq', BitVec.toNat_ofNat, Nat.reducePow, Nat.reduceMod,
    BitVec.shiftLeft_eq', BitVec.getLsbD_or, BitVec.getLsbD_shiftLeft, getLsbD_mod_byte,
    BitVec.getLsbD_ushiftRight]
  -- each bit comes from the byte it is in
  rcases lt_or_ge i 8 with h8 | h8
  · simp [h8, show i < 24 by omega, show i < 16 by omega]
  rcases lt_or_ge i 16 with h16 | h16
  · simp [show i < 24 by omega, show ¬ i < 8 by omega, h16, show i - 8 < 8 by omega,
      show 8 + (i - 8) = i by omega, hi]
  rcases lt_or_ge i 24 with h24 | h24
  · simp [h24, show ¬ i < 8 by omega, show ¬ i < 16 by omega, show ¬ i - 8 < 8 by omega,
      show i - 16 < 8 by omega, show 16 + (i - 16) = i by omega, hi]
  · simp [show ¬ i < 24 by omega, show ¬ i < 8 by omega, show ¬ i < 16 by omega,
      show ¬ i - 8 < 8 by omega, show ¬ i - 16 < 8 by omega, show i - 24 < 8 by omega,
      show 24 + (i - 24) = i by omega, hi]

/-- **When a frame is complete.** -/
theorem nextFrame_eq_item {buffer payload rest : List UInt8} :
    nextFrame buffer = .item payload rest ↔
      ¬ WrongMagic buffer ∧ headerLength buffer ≤ kMaxFrameLength ∧
      kFrameHeaderSize + (headerLength buffer).toNat ≤ buffer.length ∧
      payload = (buffer.drop kFrameHeaderSize).take (headerLength buffer).toNat ∧
      rest = buffer.drop (kFrameHeaderSize + (headerLength buffer).toNat) := by
  constructor
  · intro h
    simp only [nextFrame] at h
    split_ifs at h with h0 h1 h2 h3 h4
    obtain ⟨rfl, rfl⟩ := Next.item.inj h
    exact ⟨h1, UInt32.not_lt.mp h3, Nat.not_lt.mp h4, rfl, rfl⟩
  · rintro ⟨hmagic, hmax, hlength, rfl, rfl⟩
    have hsize : kFrameHeaderSize ≤ buffer.length := le_trans (Nat.le_add_right ..) hlength
    have hpos : 0 < kFrameHeaderSize := Nat.zero_lt_succ 5
    simp only [nextFrame]
    rw [if_neg (by omega), if_neg hmagic, if_neg (Nat.not_lt.mpr hsize),
      if_neg (UInt32.not_lt.mpr hmax), if_neg (Nat.not_lt.mpr hlength)]

/-- **When the connection is given up.** -/
theorem nextFrame_eq_reject {buffer : List UInt8} : nextFrame buffer = .reject ↔
    buffer ≠ [] ∧ (WrongMagic buffer ∨
      kFrameHeaderSize ≤ buffer.length ∧ kMaxFrameLength < headerLength buffer) := by
  rw [← List.length_pos_iff]
  simp only [nextFrame]
  split_ifs with h0 h1 h2 h3 h4
  · simp [h0]
  · simp [h1, Nat.pos_of_ne_zero h0]
  · simp [h1, Nat.not_le.mpr h2]
  · simp [h3, Nat.pos_of_ne_zero h0, Nat.not_lt.mp h2]
  · simp [h1, h3]
  · simp [h1, h3]

theorem headerLength_append {buffer : List UInt8} (h : kFrameHeaderSize ≤ buffer.length)
    (t : List UInt8) : headerLength (buffer ++ t) = headerLength buffer := by
  simp only [kFrameHeaderSize] at h
  simp only [headerLength, List.getD_append _ _ _ _ (show 2 < buffer.length by omega),
    List.getD_append _ _ _ _ (show 3 < buffer.length by omega),
    List.getD_append _ _ _ _ (show 4 < buffer.length by omega),
    List.getD_append _ _ _ _ (show 5 < buffer.length by omega)]

theorem wrongMagic_append {buffer : List UInt8} (h : buffer ≠ []) (t : List UInt8)
    (hwrong : WrongMagic buffer) : WrongMagic (buffer ++ t) := by
  rcases hwrong with h0 | ⟨hlength, h1⟩
  · exact .inl (by rwa [List.getD_append _ _ _ _ (List.length_pos_iff.mpr h)])
  · refine .inr ⟨?_, by rwa [List.getD_append _ _ _ _ hlength]⟩
    rw [List.length_append]
    omega

theorem wrongMagic_append_iff {buffer : List UInt8} (h : 2 ≤ buffer.length) (t : List UInt8) :
    WrongMagic (buffer ++ t) ↔ WrongMagic buffer := by
  have ht : 2 ≤ (buffer ++ t).length := by
    rw [List.length_append]
    omega
  simp only [WrongMagic, h, ht, true_and, List.getD_append _ _ _ _ (show 0 < buffer.length by omega),
    List.getD_append _ _ _ _ (show 1 < buffer.length by omega)]

theorem nextFrame_shorter {buffer payload rest : List UInt8}
    (h : nextFrame buffer = .item payload rest) : rest.length < buffer.length := by
  obtain ⟨-, -, hlength, -, rfl⟩ := nextFrame_eq_item.mp h
  have hpos : 0 < kFrameHeaderSize := Nat.zero_lt_succ 5
  rw [List.length_drop]
  omega

theorem nextFrame_item_append {buffer payload rest : List UInt8}
    (h : nextFrame buffer = .item payload rest) (t : List UInt8) :
    nextFrame (buffer ++ t) = .item payload (rest ++ t) := by
  obtain ⟨hmagic, hmax, hlength, rfl, rfl⟩ := nextFrame_eq_item.mp h
  have hsize : kFrameHeaderSize ≤ buffer.length := le_trans (Nat.le_add_right ..) hlength
  rw [nextFrame_eq_item, headerLength_append hsize,
    wrongMagic_append_iff (le_trans (by decide) hsize)]
  refine ⟨hmagic, hmax, ?_, ?_, ?_⟩
  · rw [List.length_append]
    omega
  · rw [List.drop_append_of_le_length hsize, List.take_append_of_le_length]
    rw [List.length_drop]
    omega
  · rw [List.drop_append_of_le_length hlength]

theorem nextFrame_reject_append {buffer : List UInt8} (h : nextFrame buffer = .reject)
    (t : List UInt8) : nextFrame (buffer ++ t) = .reject := by
  obtain ⟨hne, hwhy⟩ := nextFrame_eq_reject.mp h
  refine nextFrame_eq_reject.mpr ⟨by simp [hne], ?_⟩
  rcases hwhy with hmagic | ⟨hsize, hmax⟩
  · exact .inl (wrongMagic_append hne t hmagic)
  · refine .inr ⟨?_, by rwa [headerLength_append hsize]⟩
    rw [List.length_append]
    omega

/-- **A frame is read back**, whatever follows it. -/
theorem nextFrame_frame {data : List UInt8} (hsize : data.length ≤ kMaxFrameLength.toNat)
    (rest : List UInt8) : nextFrame (frame data ++ rest) = .item data rest := by
  have hlen : data.length.toUInt32.toNat = data.length := by
    rw [Nat.toUInt32_eq, UInt32.toNat_ofNat_of_lt']
    exact lt_of_le_of_lt hsize (by decide)
  have hheader : headerLength (frame data ++ rest) = data.length.toUInt32 :=
    frameLength_bytes _
  have hmagic : ¬ WrongMagic (frame data ++ rest) := by
    simp [WrongMagic, frame, header]
  have hlength : (frame data).length = kFrameHeaderSize + data.length := by
    rw [frame, List.length_append]
    rfl
  have hbody : (frame data ++ rest).drop kFrameHeaderSize = data ++ rest := by
    rw [frame, List.append_assoc]
    exact List.drop_left' rfl
  rw [nextFrame_eq_item, hheader, hlen, hbody]
  refine ⟨hmagic, ?_, ?_, (List.take_left' rfl).symm, (List.drop_left' hlength).symm⟩
  · rwa [UInt32.le_iff_toNat_le, hlen]
  · rw [List.length_append, hlength]
    omega

/-- The frames of a connection. -/
def frames : Deframer UInt8 (List UInt8) where
  next := nextFrame
  item_shorter := nextFrame_shorter
  item_append := nextFrame_item_append
  reject_append := nextFrame_reject_append

/-! ## The receive loop -/

/-- What `recv` returns. -/
inductive Received
  | data (bytes : List UInt8)
  /-- interrupted, or no data within the timeout -/
  | again
  /-- the peer, or a `shutdown`, has closed the connection -/
  | closed
  | failed (reason : String)
  deriving DecidableEq, Repr

def Received.bytes : Received → List UInt8
  | data bytes => bytes
  | _ => []

/-- The locals of `recvLoop`, and what it has done. -/
structure Receiver where
  buffer : List UInt8 := []
  framingViolation : Bool := false
  /-- the loop has ended -/
  ended : Bool := false
  /-- how often `running_ && connectionAlive_` has been read -/
  reads : ℕ := 0
  dispatched : List (List UInt8) := []
  errors : List String := []
  deriving DecidableEq, Repr

/-- One byte as `0xNN`. -/
def toHexByte (b : UInt8) : String :=
  String.ofList ['0', 'x', (b.toNat / 16).digitChar.toUpper, (b.toNat % 16).digitChar.toUpper]

/-- What is reported of a buffer that does not begin with a frame. -/
def violationText (buffer : List UInt8) : String :=
  if WrongMagic buffer then
    "tcp: not an AxonVex frame (magic " ++ toHexByte (buffer.getD 0 0) ++ " " ++
      (if 2 ≤ buffer.length then toHexByte (buffer.getD 1 0) else "??") ++
      ") — peer speaks a different protocol"
  else
    "tcp: frame length " ++ toString (headerLength buffer).toNat ++ " exceeds max " ++
      toString kMaxFrameLength.toNat

namespace Receiver

variable (live : ℕ → Bool)

/-- The condition of a loop is read. -/
def read (r : Receiver) : Receiver := { r with reads := r.reads + 1 }

/-- The frame at the front of the buffer is dispatched. -/
def dispatchFrame (r : Receiver) (payload rest : List UInt8) : Receiver :=
  { r.read with buffer := rest, dispatched := r.dispatched ++ [payload] }

/-- What is at the front of the buffer is not a frame. -/
def violate (r : Receiver) : Receiver :=
  { r.read with framingViolation := true, errors := r.errors ++ [violationText r.buffer] }

/-- The inner loop: complete frames are dispatched, while `live` says that the client runs. -/
def drain (r : Receiver) : Receiver :=
  if live r.reads then
    match h : nextFrame r.buffer with
    | .wait => r.read
    | .reject => r.violate
    | .item payload rest => drain (r.dispatchFrame payload rest)
  else r.read
termination_by r.buffer.length
decreasing_by exact nextFrame_shorter h

/-- A chunk is appended to the buffer. -/
def append (r : Receiver) (bytes : List UInt8) : Receiver := { r with buffer := r.buffer ++ bytes }

/-- The connection has ended under the loop; that is reported unless the client is going down. -/
def lost (r : Receiver) (error : String) : Receiver :=
  { r.read with
    ended := true
    errors := if live r.reads then r.errors ++ [error] else r.errors }

/-- `recvLoop`, on what `recv` returns turn by turn. -/
def recvLoop (r : Receiver) : List Received → Receiver
  | [] => r
  | received :: more =>
    if live r.reads then
      match received with
      | .again => recvLoop r.read more
      | .closed => r.read.lost live "tcp: connection closed by peer"
      | .failed reason => r.read.lost live ("tcp: recv error: " ++ reason)
      | .data bytes =>
        let r := (r.read.append bytes).drain live
        if r.framingViolation then { r with ended := true } else recvLoop r more
    else { r.read with ended := true }

/-! ### What the loop has read -/

variable {live : ℕ → Bool} {r : Receiver} {d : List UInt8}

/-- Of a stream that begins with `d` the receiver has read these bytes: the frames it has dispatched
come first, and what it has in its buffer before what is to come. -/
structure HasRead (r : Receiver) (d : List UInt8) : Prop where
  goOn : r.framingViolation = false → ∀ t,
    frames.scan (d ++ t) = (frames.scan (r.buffer ++ t)).behind r.dispatched
  stop : r.framingViolation = true → ∀ t, frames.scan (d ++ t) = ⟨r.dispatched, true, []⟩

theorem hasRead_init : HasRead {} [] :=
  ⟨fun _ _ => rfl, fun h => absurd h (by simp)⟩

theorem HasRead.read (h : r.HasRead d) : r.read.HasRead d := ⟨h.goOn, h.stop⟩

theorem HasRead.append (h : r.HasRead d) (hgo : r.framingViolation = false) (bytes : List UInt8) :
    (r.append bytes).HasRead (d ++ bytes) where
  goOn _ t := by
    rw [List.append_assoc, h.goOn hgo]
    exact congrArg (fun s => (frames.scan s).behind r.dispatched) (List.append_assoc ..).symm
  stop hstop := absurd (hgo.symm.trans hstop) (by simp)

theorem HasRead.dispatchFrame (h : r.HasRead d) (hgo : r.framingViolation = false)
    {payload rest : List UInt8} (hnext : nextFrame r.buffer = .item payload rest) :
    (r.dispatchFrame payload rest).HasRead d where
  goOn _ t := by
    have hitem : frames.next (r.buffer ++ t) = .item payload (rest ++ t) :=
      nextFrame_item_append hnext t
    rw [h.goOn hgo, Deframer.scan_of_item hitem, Scan.behind_behind]
    rfl
  stop hstop := absurd (hgo.symm.trans hstop) (by simp)

theorem HasRead.violate (h : r.HasRead d) (hgo : r.framingViolation = false)
    (hnext : nextFrame r.buffer = .reject) : r.violate.HasRead d where
  goOn hgo' := absurd hgo' (by simp [Receiver.violate])
  stop _ t := by
    have hreject : frames.next (r.buffer ++ t) = .reject := nextFrame_reject_append hnext t
    rw [h.goOn hgo, Deframer.scan_of_reject hreject, Scan.behind, List.append_nil]
    rfl

theorem drain_of_wait (hlive : live r.reads = true) (hnext : nextFrame r.buffer = .wait) :
    r.drain live = r.read := by
  rw [drain, if_pos hlive]
  split <;> simp_all

theorem drain_of_reject (hlive : live r.reads = true) (hnext : nextFrame r.buffer = .reject) :
    r.drain live = r.violate := by
  rw [drain, if_pos hlive]
  split <;> simp_all

theorem drain_of_item (hlive : live r.reads = true) {payload rest : List UInt8}
    (hnext : nextFrame r.buffer = .item payload rest) :
    r.drain live = (r.dispatchFrame payload rest).drain live := by
  rw [drain, if_pos hlive]
  split <;> simp_all

/-- **The inner loop reads what the deframer reads.** -/
theorem HasRead.drain (h : r.HasRead d) (hgo : r.framingViolation = false) :
    (r.drain live).HasRead d := by
  induction r using Receiver.drain.induct live with
  | case1 r hlive hnext =>
    rw [drain_of_wait hlive hnext]
    exact h.read
  | case2 r hlive hnext =>
    rw [drain_of_reject hlive hnext]
    exact h.violate hgo hnext
  | case3 r hlive payload rest hnext ih =>
    rw [drain_of_item hlive hnext]
    exact ih (h.dispatchFrame hgo hnext) hgo
  | case4 r hlive =>
    rw [Receiver.drain, if_neg hlive]
    exact h.read

/-- The inner loop of a live client goes on until it needs more bytes. -/
theorem waits_drain (hlive : ∀ k, live k = true) (hgo : (r.drain live).framingViolation = false) :
    nextFrame (r.drain live).buffer = .wait := by
  induction r using Receiver.drain.induct live with
  | case1 r hl hnext =>
    rw [drain_of_wait hl hnext]
    exact hnext
  | case2 r hl hnext =>
    rw [drain_of_reject hl hnext] at hgo
    exact absurd hgo (by simp [violate])
  | case3 r hl payload rest hnext ih =>
    rw [drain_of_item hl hnext] at hgo ⊢
    exact ih hgo
  | case4 r hl => exact absurd (hlive r.reads) hl

/-! ### Whole connections -/

/-- The bytes that `recv` has returned. -/
def bytesOf (received : List Received) : List UInt8 := received.flatMap Received.bytes

/-- The connection stays up. -/
def StaysUp (received : List Received) : Prop :=
  ∀ x ∈ received, x ≠ .closed ∧ ∀ reason, x ≠ .failed reason

/-- **A live receive loop reads what the deframer reads.** -/
theorem scan_recvLoop (hlive : ∀ k, live k = true) {received : List Received}
    (hup : StaysUp received) (h : r.HasRead d) (hgo : r.framingViolation = false)
    (hwait : nextFrame r.buffer = .wait) :
    (frames.scan (d ++ bytesOf received)).items = (r.recvLoop live received).dispatched ∧
    (frames.scan (d ++ bytesOf received)).rejected =
      (r.recvLoop live received).framingViolation := by
  induction received generalizing r d with
  | nil =>
    have hscan := h.goOn hgo []
    rw [List.append_nil, List.append_nil, Deframer.scan_of_wait (D := frames) hwait] at hscan
    rw [bytesOf, List.flatMap_nil, List.append_nil, hscan]
    exact ⟨by simp [Scan.behind, recvLoop], by simp [Scan.behind, recvLoop, hgo]⟩
  | cons x received ih =>
    have hup' : StaysUp received := fun y hy => hup y (List.mem_cons_of_mem _ hy)
    cases x with
    | again =>
      rw [recvLoop, if_pos (hlive _)]
      exact ih hup' h.read hgo hwait
    | data bytes =>
      rw [recvLoop, if_pos (hlive _)]
      have hbytes : bytesOf (.data bytes :: received) = bytes ++ bytesOf received := rfl
      have hdrain : ((r.read.append bytes).drain live).HasRead (d ++ bytes) :=
        (h.read.append hgo bytes).drain hgo
      rw [hbytes, ← List.append_assoc]
      dsimp only
      split_ifs with hstop
      · rw [hdrain.stop hstop]
        exact ⟨rfl, hstop.symm⟩
      · rw [Bool.not_eq_true] at hstop
        exact ih hup' hdrain hstop (waits_drain hlive hstop)
    | closed => exact absurd rfl (hup _ List.mem_cons_self).1
    | failed reason => exact absurd rfl ((hup _ List.mem_cons_self).2 reason)

/-- **The receive loop of a live client**: encoded payloads are dispatched as they were, in order,
each once, whatever the chunks; and of any stream it dispatches the same frames, and gives it up or
not, whatever the chunks. -/
theorem recvLoop_frames (hlive : ∀ k, live k = true) :
    (∀ (payloads : List (List UInt8)) (received : List Received),
      (∀ data ∈ payloads, data.length ≤ kMaxFrameLength.toNat) → StaysUp received →
      bytesOf received = (payloads.map frame).flatten →
        (recvLoop live {} received).dispatched = payloads ∧
        (recvLoop live {} received).framingViolation = false) ∧
    ∀ received received' : List Received, StaysUp received → StaysUp received' →
      bytesOf received = bytesOf received' →
        (recvLoop live {} received).dispatched = (recvLoop live {} received').dispatched ∧
        (recvLoop live {} received).framingViolation =
          (recvLoop live {} received').framingViolation := by
  have hscan : ∀ received, StaysUp received →
      (frames.scan (bytesOf received)).items = (recvLoop live {} received).dispatched ∧
      (frames.scan (bytesOf received)).rejected = (recvLoop live {} received).framingViolation :=
    fun received hup => scan_recvLoop hlive hup hasRead_init rfl rfl
  constructor
  · intro payloads received hsize hup hbytes
    obtain ⟨hitems, hrejected⟩ := hscan received hup
    have hread : frames.scan (payloads.map frame).flatten = ⟨payloads, false, []⟩ :=
      Deframer.scan_encode rfl fun data hdata => nextFrame_frame (hsize data hdata)
    rw [hbytes, hread] at hitems hrejected
    exact ⟨hitems.symm, hrejected.symm⟩
  · intro received received' hup hup' hbytes
    obtain ⟨hitems, hrejected⟩ := hscan received hup
    obtain ⟨hitems', hrejected'⟩ := hscan received' hup'
    rw [hbytes] at hitems hrejected
    exact ⟨hitems.symm.trans hitems', hrejected.symm.trans hrejected'⟩

/-- Two frames, cut inside the second header. -/
theorem recvLoop_frames_cut :
    (recvLoop (fun _ => true) {} [.data [0xAF, 1, 0, 0, 0, 2, 7, 8, 0xAF], .again,
      .data [1, 0, 0, 0, 0]]).dispatched = [[7, 8], []] ∧
    (recvLoop (fun _ => true) {} [.data [0xAF, 1, 0, 0, 0, 2, 7, 8, 0xAF], .again,
      .data [1, 0, 0, 0, 0]]).framingViolation = false := by
  refine (recvLoop_frames fun _ => rfl).1 _ _ ?_ ?_ (by decide)
  · decide
  · intro x hx
    simp only [List.mem_cons, List.not_mem_nil, or_false] at hx
    rcases hx with rfl | rfl | rfl <;> exact ⟨by simp, by simp⟩

/-! ### A client that goes down -/

theorem HasRead.lost (h : r.HasRead d) (error : String) : (r.lost live error).HasRead d :=
  ⟨h.goOn, h.stop⟩

theorem HasRead.ended (h : r.HasRead d) : { r with ended := true }.HasRead d := ⟨h.goOn, h.stop⟩

/-- Whenever the loop ends it has read a front part of the stream. -/
theorem hasRead_recvLoop (live : ℕ → Bool) (h : r.HasRead d) (hgo : r.framingViolation = false)
    (received : List Received) :
    ∃ d', d' <+: d ++ bytesOf received ∧ (r.recvLoop live received).HasRead d' := by
  induction received generalizing r d with
  | nil => exact ⟨d, List.prefix_append .., h⟩
  | cons x received ih =>
    by_cases hl : live r.reads = true
    · cases x with
      | again =>
        rw [recvLoop, if_pos hl]
        exact ih h.read hgo
      | closed =>
        rw [recvLoop, if_pos hl]
        exact ⟨d, List.prefix_append .., h.read.lost _⟩
      | failed reason =>
        rw [recvLoop, if_pos hl]
        exact ⟨d, List.prefix_append .., h.read.lost _⟩
      | data bytes =>
        have hbytes : bytesOf (.data bytes :: received) = bytes ++ bytesOf received := rfl
        have hdrain : ((r.read.append bytes).drain live).HasRead (d ++ bytes) :=
          (h.read.append hgo bytes).drain hgo
        rw [recvLoop, if_pos hl, hbytes, ← List.append_assoc]
        dsimp only
        split_ifs with hstop
        · exact ⟨d ++ bytes, List.prefix_append .., hdrain.ended⟩
        · exact ih hdrain (Bool.eq_false_iff.mpr hstop)
    · rw [recvLoop.eq_def]
      dsimp only
      rw [if_neg hl]
      exact ⟨d, List.prefix_append .., h.read.ended⟩

/-- **Whenever the client goes down**, what it has dispatched are the first of the payloads. -/
theorem dispatched_prefix (live : ℕ → Bool) {payloads : List (List UInt8)} {part : List UInt8}
    {received : List Received}
    (hread : frames.scan ((payloads.map frame).flatten ++ part) = ⟨payloads, false, part⟩)
    (hbytes : bytesOf received <+: (payloads.map frame).flatten ++ part) :
    (recvLoop live {} received).dispatched <+: payloads ∧
      (recvLoop live {} received).framingViolation = false := by
  obtain ⟨d', hprefix, hd'⟩ := hasRead_recvLoop live hasRead_init rfl received
  obtain ⟨t, ht⟩ := hprefix.trans hbytes
  cases hv : (recvLoop live {} received).framingViolation with
  | true =>
    have hstop := hd'.stop hv t
    rw [ht, hread] at hstop
    exact absurd (congrArg Scan.rejected hstop) (by simp)
  | false =>
    have hgo := hd'.goOn hv t
    rw [ht, hread] at hgo
    exact ⟨⟨_, (congrArg Scan.items hgo).symm⟩, rfl⟩

end Receiver

end TcpClient

end AxonVex
