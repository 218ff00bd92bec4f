import LayeredRtp.Archive
import LayeredRtp.Packet.Text
import LayeredRtp.PacketQueue
import LayeredRtp.Repair

/-! The sender of one media stream, with its archive, its queue and, if there is one, its
repair stream. The largest headers its packets can have are kept up to date with every
change that they depend on, so that payloads can be cut to fit. -/
namespace LayeredRtp

inductive Media where
  | audio
  | video
deriving DecidableEq, Repr

structure SenderSettings where
  ssrc : Ssrc
  repairSsrc : Option Ssrc := none
  kind : Media := .video
  maxPacketSize : Nat := 1472
  mid : StreamId := .empty
  rid : StreamId := .empty
  alwaysNames : Bool := false
  extensions : ExtensionIds := {}
  repairRate : Option BitRate := none
  firstNumber : UInt16
  firstRepairNumber : UInt16
  timestampOffset : UInt32

namespace SenderSettings

def leastPacketSize : Nat := 100
def ipPacketSize : Nat := 1500

def allowsPacketSize (size : Nat) : Bool := leastPacketSize ≤ size && size ≤ ipPacketSize

def setMaxPacketSize (s : SenderSettings) (size : Nat) : SenderSettings :=
  if allowsPacketSize size then { s with maxPacketSize := size } else s

end SenderSettings

structure StreamState where
  sequenceNumber : UInt16 := 0
  timestampOffset : UInt32 := 0
  acked : Bool := false
deriving DecidableEq, Repr

abbrev RepairTypes := List (PayloadType × PayloadType)

def RepairTypes.put (media repair : PayloadType) : RepairTypes → RepairTypes
  | [] => [(media, repair)]
  | b :: rest =>
    if media < b.1 then (media, repair) :: b :: rest
    else if media = b.1 then (media, repair) :: rest
    else b :: put media repair rest

structure Sender where
  kind : Media
  ssrc : Ssrc
  repairSsrc : Option Ssrc
  maxPacketSize : Nat
  archive : Archive
  queue : PacketQueue := .empty
  limiter : Option RateCap
  extensions : ExtensionIds
  mid : StreamId
  rid : StreamId
  alwaysNames : Bool
  sending : Bool := true
  number : UInt16
  repairNumber : UInt16
  acked : Bool := false
  repairAcked : Bool := false
  timestampOffset : UInt32
  sources : List Ssrc := []
  repairMode : Repair.Mode := .off
  repairTypes : RepairTypes := []
  lastPayloadType : Option PayloadType := none
  lastTimestamp : UInt32 := 0
  lastMarker : Bool := false
  measuresBandwidth : Bool := false
  paddingHeader : Nat := 0
  mediaHeader : Nat := 0
deriving DecidableEq, Repr

namespace Sender

def namesOnMedia (s : Sender) : Bool := s.alwaysNames || !s.acked

def namesOnRepair (s : Sender) : Bool := s.alwaysNames || !s.repairAcked

/-- Whether the worst header of a media packet or of its repair copy has to hold the
extension. A repair copy names the stream in place of the media packet, so the room for
that is counted once. -/
def needsRoomFor (s : Sender) (e : HeaderExtension) : Bool :=
  let onRepair := s.repairSsrc.isSome && s.namesOnRepair
  e.isNonVolatile && match e with
    | .rtpMid => (s.namesOnMedia || onRepair) && !s.mid.isEmpty
    | .rtpStreamId => s.namesOnMedia && !s.rid.isEmpty
    | .repairedRtpStreamId => onRepair && !s.namesOnMedia && !s.rid.isEmpty
    | _ => true

def baseHeader (s : Sender) : Nat := Packet.fixedHeaderSize + 4 * s.sources.length

def worstPaddingHeader (s : Sender) : Nat :=
  s.baseHeader + s.extensions.worstBlockSize HeaderExtension.repairSizes

def mediaSizes (s : Sender) : HeaderExtension.Sizes :=
  match s.kind with
  | .audio => HeaderExtension.audioSizes
  | .video => HeaderExtension.videoSizes

def worstMediaHeader (s : Sender) : Nat :=
  s.baseHeader + s.extensions.worstBlockSize (s.mediaSizes.filter fun x => s.needsRoomFor x.1) +
    if s.repairSsrc.isSome then Repair.headerSize else 0

def hasBandwidthExtension (s : Sender) : Bool :=
  s.extensions.bindings.any fun b => b.2.measuresBandwidth

def refreshHeaders (s : Sender) : Sender :=
  { s with paddingHeader := s.worstPaddingHeader, mediaHeader := s.worstMediaHeader }

def refreshBandwidth (s : Sender) : Sender :=
  { s with measuresBandwidth := s.hasBandwidthExtension }

def new (settings : SenderSettings) (archive : Archive) : Sender :=
  { kind := settings.kind
    ssrc := settings.ssrc
    repairSsrc := settings.repairSsrc
    maxPacketSize := settings.maxPacketSize
    archive
    limiter := settings.repairRate.map (RateCap.new ·)
    extensions := settings.extensions
    mid := settings.mid
    rid := settings.rid
    alwaysNames := settings.alwaysNames
    number := settings.firstNumber
    repairNumber := settings.firstRepairNumber
    timestampOffset := settings.timestampOffset : Sender }.refreshBandwidth.refreshHeaders

def insertExtension (s : Sender) (uri : String) (id : UInt8) : Bool × Sender :=
  match s.extensions.insertUri? id uri with
  | some extensions => (true, { s with extensions }.refreshBandwidth.refreshHeaders)
  | none => (false, s.refreshBandwidth.refreshHeaders)

def eraseExtension (s : Sender) (uri : String) : Sender :=
  { s with extensions := s.extensions.eraseUri uri }.refreshBandwidth.refreshHeaders

def setMixed (s : Sender) (on : Bool) : Sender :=
  { s with extensions := s.extensions.setMixed on }.refreshHeaders

def setMid (s : Sender) (mid : StreamId) : Sender := { s with mid }.refreshHeaders

def setSources (s : Sender) (sources : List Ssrc) : Sender :=
  if sources.length ≤ Packet.maxSources then { s with sources }.refreshHeaders else s

def ack (s : Sender) : Sender := { s with acked := true }.refreshHeaders

def ackRepair (s : Sender) : Sender := { s with repairAcked := true }.refreshHeaders

def state (s : Sender) : StreamState := ⟨s.number, s.timestampOffset, s.acked⟩

def repairState (s : Sender) : StreamState := ⟨s.repairNumber, s.timestampOffset, s.repairAcked⟩

def setState (s : Sender) (t : StreamState) : Sender :=
  { s with
    number := t.sequenceNumber
    timestampOffset := t.timestampOffset
    acked := t.acked }.refreshHeaders

def setRepairState (s : Sender) (t : StreamState) : Sender :=
  { s with repairNumber := t.sequenceNumber, repairAcked := t.acked }.refreshHeaders

def setRepairMode (s : Sender) (mode : Repair.Mode) : Bool × Sender :=
  if !mode.isOff && (s.repairSsrc.isNone || s.repairTypes.isEmpty) then (false, s)
  else (true, { s with repairMode := mode })

def setRepairType (s : Sender) (media repair : PayloadType) : Sender :=
  if media.isValid && repair.isValid then
    { s with repairTypes := s.repairTypes.put media repair }
  else s

def setMaxPacketSize (s : Sender) (size : Nat) : Bool × Sender :=
  if SenderSettings.allowsPacketSize size then (true, { s with maxPacketSize := size })
  else (false, s)

def setRepairRate (s : Sender) (rate : Option BitRate) : Sender :=
  { s with limiter := rate.map fun r => match s.limiter with
      | some l => l.setRate r
      | none => RateCap.new r }

def setSending (s : Sender) (on : Bool) : Sender := { s with sending := on }

def canPad (s : Sender) : Bool := s.sending && s.measuresBandwidth

def canRepeatPayloads (s : Sender) : Bool :=
  s.canPad && s.repairMode.redundantPayloads && s.repairSsrc.isSome

/-- An empty media packet with room for the sending time, and with the names as long as
they have to be sent. -/
def allocate (s : Sender) : Packet :=
  let p : Packet := { extensions := s.extensions, capacity := s.maxPacketSize, ssrc := s.ssrc }
  let p := p.tryTo (·.withSources? s.sources)
  let p := p.tryTo (·.reserve? .absoluteSendTime)
  let p := p.tryTo (·.reserve? .transmissionTimeOffset)
  let p := p.tryTo (·.reserve? .transportSequenceNumber)
  if s.namesOnMedia then (p.tryTo (·.withMid? s.mid)).tryTo (·.withRid? s.rid) else p

def assignNumber (s : Sender) (p : Packet) : Option (Packet × Sender) :=
  if s.sending then
    some ({ p with sequenceNumber := s.number },
      { s with
        number := s.number + 1
        lastMarker := p.marker
        lastPayloadType := some p.payloadType
        lastTimestamp := p.timestamp })
  else none

def stampCapture (now : Time) (p : Packet) : Packet :=
  { p with captureTime := some (p.captureTime.getD now) }

def enqueue (s : Sender) (packets : List Packet) (now : Time) : Sender :=
  { s with queue := s.queue.push (packets.map (stampCapture now)) }

/-- A packet has left the queue. Media goes into the archive, and a repeated packet may be
repeated again. -/
def onSent (s : Sender) (p : Packet) (now : Time) : Sender :=
  match p.kind with
  | some .audio | some .video =>
    if p.ssrc = s.ssrc then { s with archive := s.archive.store p (some now) } else s
  | some .retransmission =>
    match p.repeats with
    | some number => { s with archive := s.archive.markSent number now }
    | none => s
  | _ => s

end Sender
end LayeredRtp
