import LayeredRtp.ExtensionIds

/-! RTP packets. A packet has a capacity, and a change that would make it larger than
that is refused. -/
namespace LayeredRtp

abbrev Ssrc := UInt32
abbrev PayloadType := UInt8
/-- Microseconds since a fixed start. There is no last one; `performAll_inRange` tells up to which
point instants and durations of 64-bit seconds behave like them. -/
abbrev Time := Nat

def PayloadType.isValid (pt : PayloadType) : Bool := pt.toNat < 128

inductive PacketKind where
  | audio
  | video
  | retransmission
  | padding
  | forwardErrorCorrection
deriving DecidableEq, Repr

structure Element where
  id : UInt8
  ext : HeaderExtension
  value : Octets
deriving DecidableEq, Repr

def Element.shape (elements : List Element) : BlockShape :=
  elements.map fun e => (e.id, e.value.length)

structure Packet where
  extensions : ExtensionIds
  capacity : Nat
  marker : Bool := false
  payloadType : PayloadType := 0
  sequenceNumber : UInt16 := 0
  timestamp : UInt32 := 0
  ssrc : Ssrc := 0
  sources : List Ssrc := []
  elements : List Element := []
  payload : Octets := []
  /-- Octets after the payload, the last of which holds their number. -/
  padding : Nat := 0
  kind : Option PacketKind := none
  captureTime : Option Time := none
  repeats : Option UInt16 := none
deriving DecidableEq, Repr

namespace Packet

def fixedHeaderSize : Nat := 12
def maxSources : Nat := 15
def maxPadding : Nat := 255

def blockSize (p : Packet) : Nat := (Element.shape p.elements).size

def headerSize (p : Packet) : Nat := fixedHeaderSize + p.sources.length * 4 + p.blockSize

def size (p : Packet) : Nat := p.headerSize + p.payload.length + p.padding

def fits (p : Packet) (growth : Nat) : Bool := p.size + growth ≤ p.capacity

def withPayloadType (p : Packet) (pt : PayloadType) : Packet :=
  if pt.isValid then { p with payloadType := pt } else p

def withSources? (p : Packet) (sources : List Ssrc) : Option Packet :=
  if sources.length ≤ maxSources ∧ p.fits (sources.length * 4 - p.sources.length * 4) then
    some { p with sources }
  else none

def withPayload? (p : Packet) (payload : Octets) : Option Packet :=
  if p.headerSize + payload.length + p.padding ≤ p.capacity then
    some { p with payload }
  else none

def withPadding? (p : Packet) (padding : Nat) : Option Packet :=
  if padding ≤ maxPadding ∧ p.headerSize + p.payload.length + padding ≤ p.capacity then
    some { p with padding }
  else none

def value? (p : Packet) (e : HeaderExtension) : Option Octets :=
  (p.elements.find? fun x => x.ext == e).map (·.value)

def carries (p : Packet) (e : HeaderExtension) : Bool := p.elements.any fun x => x.ext == e

def putElement (new : Element) : List Element → List Element
  | [] => [new]
  | x :: rest =>
    if x.ext = new.ext then { x with value := new.value } :: rest
    else x :: putElement new rest

/-- Refused when the extension is not registered, the value cannot be written in the
forms allowed, or the packet would outgrow its capacity. -/
def insert? (p : Packet) (e : HeaderExtension) (value : Octets) : Option Packet :=
  match p.extensions.id? e with
  | none => none
  | some id =>
    if 255 < value.length then none
    else if BlockShape.needsTwoByte id value.length && !p.extensions.mixed then none
    else
      let elements := putElement ⟨id, e, value⟩ p.elements
      if p.fits ((Element.shape elements).size - p.blockSize) then
        some { p with elements }
      else none

def reserve? (p : Packet) (e : HeaderExtension) : Option Packet :=
  p.insert? e (List.replicate e.valueSize 0)

def tryTo (p : Packet) (change : Packet → Option Packet) : Packet := (change p).getD p

def erase? (p : Packet) (e : HeaderExtension) : Option Packet :=
  if p.carries e then
    some { p with elements := p.elements.filter fun x => x.ext != e }
  else none

theorem payload_of_withPayload {p q : Packet} {payload : Octets}
    (h : p.withPayload? payload = some q) : q.payload = payload := by
  unfold withPayload? at h
  split at h <;> simp_all
  rw [← h]

end Packet
end LayeredRtp
