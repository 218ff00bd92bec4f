import LayeredRtp.Sender

/-! Sending packets again. A lost packet is taken from the archive and either repeated as
it was or wrapped for the repair stream. -/
namespace LayeredRtp.Sender

/-- The copied extensions; names are decided for the repair stream on its own, and what is
not registered any more is left out. -/
def copyElements (elements : List Element) (copy : Packet) : Option Packet :=
  match elements with
  | [] => some copy
  | e :: rest =>
    if e.ext = .rtpMid ∨ e.ext = .rtpStreamId ∨ !copy.extensions.contains e.ext then
      copyElements rest copy
    else do copyElements rest (← copy.insert? e.ext e.value)

def repairHeader (s : Sender) (p : Packet) (ssrc : Ssrc) (payloadType : PayloadType) :
    Packet :=
  let blank : Packet := { extensions := s.extensions, capacity := s.maxPacketSize, ssrc }
  { blank.withPayloadType payloadType with
    marker := p.marker
    timestamp := p.timestamp
    sequenceNumber := s.repairNumber
    captureTime := p.captureTime }

def nameRepair (s : Sender) (copy : Packet) : Packet :=
  if s.namesOnRepair then (copy.tryTo (·.withMid? s.mid)).tryTo (·.withRepairedRid? s.rid)
  else copy

/-- A packet wrapped for the repair stream, under that stream's next number. It takes a
payload type to wrap it in and the room to hold it. -/
def repairCopy? (s : Sender) (p : Packet) : Option Packet :=
  if s.sending then do
    let ssrc ← s.repairSsrc
    let payloadType ← s.repairTypes.lookup p.payloadType
    let copy ← (s.repairHeader p ssrc payloadType).withSources? p.sources
    let copy ← copyElements p.elements copy
    (s.nameRepair copy).withPayload? (Octets.ofWord16 p.sequenceNumber ++ p.payload)
  else none

def advanceRepair (s : Sender) : Sender := { s with repairNumber := s.repairNumber + 1 }

inductive Resent where
  /-- Not stored, on its way, repeated just now, or more than the rate allows. -/
  | nothing
  | refused
  | queued (size : Nat)
deriving DecidableEq, Repr

namespace Resent

/-- The answer as a signed 32-bit number, which a size from 2^31 on wraps to. -/
def code : Resent → Int
  | nothing => 0
  | refused => -1
  | queued size => (Int32.ofNat size).toInt

theorem code_queued {size : Nat} (h : size < 0x80000000) : (queued size).code = size :=
  Int32.toInt_ofNat_of_lt h

end Resent

def chargeRepair (s : Sender) (bytes : Nat) (now : Time) : Bool × Sender :=
  match s.limiter with
  | none => (true, s)
  | some l =>
    let (allowed, l) := l.spend bytes now
    (allowed, { s with limiter := some l })

def repetition? (s : Sender) (p : Packet) : Option (Packet × Sender) :=
  if s.repairMode.retransmitted then (s.repairCopy? p).map (·, s.advanceRepair)
  else some (p, s)

def resend (s : Sender) (low : UInt16) (now : Time) : Resent × Sender :=
  match s.archive.resendable? low now with
  | none => (.nothing, s)
  | some e =>
    match s.chargeRepair e.packet.size now with
    | (false, s) => (.nothing, s)
    | (true, s) =>
      match s.repetition? e.packet with
      | none => (.refused, s)
      | some (copy, s) =>
        let copy := { copy with
          repeats := some e.packet.sequenceNumber
          kind := some .retransmission }
        let s := { s with archive := s.archive.markPending e.number }
        (.queued e.packet.size, s.enqueue [copy] now)

def resendAll (s : Sender) (now : Time) : List UInt16 → Sender
  | [] => s
  | low :: rest =>
    let (answer, s) := s.resend low now
    if answer.code < 0 then s else resendAll s now rest

def lossMargin : Time := 5000

def onLoss (s : Sender) (lows : List UInt16) (rtt now : Time) : Sender :=
  resendAll { s with archive := s.archive.setRtt (lossMargin + rtt) } now lows

theorem payload_of_repairCopy {s : Sender} {p copy : Packet} (h : s.repairCopy? p = some copy) :
    copy.payload = Octets.ofWord16 p.sequenceNumber ++ p.payload := by
  unfold repairCopy? at h
  split at h
  · simp only [Option.bind_eq_bind, Option.bind_eq_some_iff] at h
    obtain ⟨_, _, _, _, _, _, _, _, h⟩ := h
    exact Packet.payload_of_withPayload h
  · simp at h

end LayeredRtp.Sender
