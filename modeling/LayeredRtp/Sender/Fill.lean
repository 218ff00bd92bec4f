import LayeredRtp.BitRate
import LayeredRtp.Sender.Resend

/-! Packets that are sent to fill up bandwidth. Old payloads are repeated on the repair
stream where that is of use, and what is left is filled with padding alone. -/
namespace LayeredRtp.Sender

def mostPadding : Nat := 224
def leastAudioPadding : Nat := 50
def leastRepeated : Nat := 50

/-- How far repeated payloads may pass the target: twice the target, computed with 53
binary digits and held to 64 bits. -/
def overshoot (target : Nat) : Nat := min (2 * Rounding.whole53 target) 0xffffffffffffffff

/-- Repeats the payloads most useful for it until little is left or one does not fit.
Also answers how much is left. -/
def repeatPayloads (s : Sender) (excess left : Nat) (now : Time) :
    List Packet × Nat × Sender :=
  if left < leastRepeated then ([], left, s)
  else match s.archive.paddingCandidate? with
    | none => ([], left, s)
    | some e =>
      if excess + left < e.packet.payload.length + Repair.headerSize then ([], left, s)
      else match _ : s.repairCopy? e.packet with
        | none => ([], left, s)
        | some copy =>
          let s := { s.advanceRepair with archive := s.archive.countResend e now }
          let (more, left, s) := repeatPayloads s excess (left - copy.payload.length) now
          ({ copy with kind := some .padding } :: more, left, s)
termination_by left
decreasing_by
  rename_i h
  simp only [payload_of_repairCopy h, List.length_append, Octets.length_ofWord16]
  simp only [leastRepeated] at *
  omega

/-- The stream and payload type for padding alone. On the media stream it has to follow a
whole frame; on the repair stream, before any media, it needs an extension that places it
in time. -/
def paddingStream? (s : Sender) (mediaSent onMedia : Bool) : Option (Ssrc × PayloadType) :=
  if s.repairMode.isOff then
    if (onMedia || mediaSent) && (s.kind == .audio || s.lastMarker) then
      s.lastPayloadType.map (s.ssrc, ·)
    else none
  else if mediaSent || s.extensions.contains .absoluteSendTime ||
      s.extensions.contains .transportSequenceNumber then do
    return (← s.repairSsrc, (← s.repairTypes.head?).2)
  else none

def paddingSize (s : Sender) (left : Nat) : Nat :=
  let most := min (s.maxPacketSize - s.paddingHeader) mostPadding
  match s.kind with
  | .audio => min (max left leastAudioPadding) most
  | .video => most

def paddingPacket? (s : Sender) (ssrc : Ssrc) (payloadType : PayloadType) (size : Nat)
    (now : Time) : Option Packet :=
  let p : Packet := { extensions := s.extensions, capacity := s.maxPacketSize, ssrc }
  let p := { p.withPayloadType payloadType with
    kind := some .padding
    timestamp := s.lastTimestamp
    captureTime := some now
    sequenceNumber := if s.repairMode.isOff then s.number else s.repairNumber }
  let p := p.tryTo (·.reserve? .transportSequenceNumber)
  let p := p.tryTo (·.reserve? .transmissionTimeOffset)
  let p := p.tryTo (·.reserve? .absoluteSendTime)
  p.withPadding? size

def advance (s : Sender) (ssrc : Ssrc) : Sender :=
  if ssrc = s.ssrc then { s with number := s.number + 1 } else s.advanceRepair

def padWith (s : Sender) (ssrc : Ssrc) (payloadType : PayloadType) (size : Nat) (now : Time) :
    Nat → List Packet × Sender
  | 0 => ([], s)
  | count + 1 =>
    match s.paddingPacket? ssrc payloadType size now with
    | none => ([], s)
    | some p =>
      let (more, s) := padWith (s.advance ssrc) ssrc payloadType size now count
      (p :: more, s)

def padRest (s : Sender) (left : Nat) (mediaSent onMedia : Bool) (now : Time) :
    List Packet × Sender :=
  let size := s.paddingSize left
  if size = 0 then ([], s)
  else match s.paddingStream? mediaSent onMedia with
    | none => ([], s)
    | some (ssrc, payloadType) =>
      s.padWith ssrc payloadType size now ((left + size - 1) / size)

def makePadding (s : Sender) (target : Nat) (mediaSent onMedia : Bool) (now : Time) :
    List Packet × Sender :=
  let (repeated, left, s) :=
    if s.canRepeatPayloads then s.repeatPayloads (overshoot target) target now
    else ([], target, s)
  if s.sending then
    let (rest, s) := s.padRest left mediaSent onMedia now
    (repeated ++ rest, s)
  else ([], s)

end LayeredRtp.Sender
