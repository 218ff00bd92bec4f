import LayeredRtp.Failure
import LayeredRtp.Packet

/-! The texts of a packet. Names of media sections and streams are sent in header
extensions; a name made from text has ASCII letters, digits and underscores only, and at
most sixteen of them. A packet is shown on one line, with the extensions it carries and the
sizes of its parts. -/
namespace LayeredRtp

/-- Sixteen octets, of which the first ones are the name. -/
structure StreamId where
  octets : Octets
  spare : Octets
  sixteen : octets.length + spare.length = 16
deriving DecidableEq, Repr

namespace StreamId

def ofOctets (s : Octets) : StreamId :=
  ⟨s.take 16, List.replicate (16 - (s.take 16).length) 0, by
    rw [List.length_replicate, List.length_take]; omega⟩

def empty : StreamId := ofOctets []

def octetOf (c : Char) : UInt8 :=
  if c.isAlphanum then UInt8.ofNat c.toNat else 95

def ofChars (s : List Char) : StreamId := ofOctets ((s.take 16).map octetOf)

def ofString (s : String) : StreamId := ofChars s.toList

/-- Reads a length and sixteen cells. Numbers that are no octets, or another count of
cells, are no stored name; a length beyond the cells breaks the use of it. -/
def ofCells? (length : Nat) (cells : List Nat) : Option (Checked StreamId) :=
  if h : cells.length = 16 then
    if length < 256 ∧ cells.all (· < 256) then
      if hl : length ≤ 16 then
        let s := cells.map UInt8.ofNat
        some (.ok ⟨s.take length, s.drop length, by
          simp only [List.length_take, List.length_drop]; simp [s, h]; omega⟩)
      else some (.error .outOfRange)
    else none
  else none

def cells (id : StreamId) : Octets := id.octets ++ id.spare

def text (id : StreamId) : String := (Utf8.text? id.octets).getD ""

def isEmpty (id : StreamId) : Bool := id.text == ""

def labelled (label : String) (id : StreamId) : String := label ++ "(" ++ id.text ++ ")"

instance : Inhabited StreamId := ⟨empty⟩

end StreamId

namespace Packet

def withName? (p : Packet) (e : HeaderExtension) (id : StreamId) : Option Packet :=
  if id.isEmpty then none else p.insert? e id.octets

def withMid? (p : Packet) (id : StreamId) : Option Packet := p.withName? .rtpMid id
def withRid? (p : Packet) (id : StreamId) : Option Packet := p.withName? .rtpStreamId id
def withRepairedRid? (p : Packet) (id : StreamId) : Option Packet :=
  p.withName? .repairedRtpStreamId id

def name (p : Packet) (e : HeaderExtension) : Option StreamId := do
  return StreamId.ofChars (← Utf8.decode (← p.value? e))

def mid (p : Packet) : Option StreamId := p.name .rtpMid
def rid (p : Packet) : Option StreamId := p.name .rtpStreamId
def repairedRid (p : Packet) : Option StreamId := p.name .repairedRtpStreamId

end Packet

def Ssrc.text (s : Ssrc) : String := "Ssrc(" ++ toString s.toNat ++ ")"

def PayloadType.text (pt : PayloadType) : String := "Pt(" ++ toString pt.toNat ++ ")"

def PacketKind.text : PacketKind → String
  | .audio => "Audio"
  | .video => "Video"
  | .retransmission => "Retransmission"
  | .padding => "Padding"
  | .forwardErrorCorrection => "ForwardErrorCorrection"

def Packet.text (p : Packet) : String :=
  let kind := match p.kind with
    | none => "None"
    | some k => "Some(" ++ k.text ++ ")"
  "RtpPacket \x7b ssrc: " ++ Ssrc.text p.ssrc ++
    ", seq_no: " ++ toString p.sequenceNumber.toNat ++
    ", pt: " ++ PayloadType.text p.payloadType ++
    ", marker: " ++ toString p.marker ++
    ", timestamp: " ++ toString p.timestamp.toNat ++
    ", extensions: [" ++ ", ".intercalate (p.elements.map fun e => e.ext.name) ++
    "], payload_len: " ++ toString p.payload.length ++
    ", padding: " ++ toString p.padding ++
    ", packet_type: " ++ kind ++ " \x7d"

end LayeredRtp
