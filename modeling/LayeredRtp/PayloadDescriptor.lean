import LayeredRtp.Failure
import LayeredRtp.Octets
import LayeredRtp.LayerGrid

/-! The VP9 payload descriptor, and layer frames cut into payloads that begin with one. -/
namespace LayeredRtp

structure PayloadDescriptor where
  pictureId : Nat := 0
  flexible : Bool := false
  firstInPicture : Bool := false
  endOfPicture : Bool := false
  temporal : Option Nat := none
  spatial : Option Nat := none
  upSwitch : Bool := false
  fromBelow : Bool := false
  notForAbove : Bool := false
  fromEarlier : Bool := false
  baseIndex : Nat := 0
  distances : List Nat := []
  hasStructure : Bool := false
  hasResolutions : Bool := false
  spatialLayers : Nat := 0
  firstActive : Nat := 0
  widths : PerLayer Nat := .replicate 0
  heights : PerLayer Nat := .replicate 0
deriving DecidableEq, Repr

namespace PayloadDescriptor

def hasLayerInfo (d : PayloadDescriptor) : Bool := d.temporal.isSome || d.spatial.isSome

def hasDistances (d : PayloadDescriptor) : Bool := d.flexible && d.fromEarlier

def structureLength (d : PayloadDescriptor) : Nat :=
  1 + if d.hasResolutions then 4 * d.spatialLayers else 0

def headerLength (d : PayloadDescriptor) (withStructure : Bool) : Nat :=
  3 + (if d.hasLayerInfo then if d.flexible then 1 else 2 else 0) +
    (if d.hasDistances then d.distances.length else 0) +
    if withStructure then d.structureLength else 0

def bit (on : Bool) (weight : Nat) : Nat := if on then weight else 0

/-- The flags: picture id, prediction, layer info, flexible mode, first and last fragment
of the frame, structure, and use for the layer above. -/
def flags (d : PayloadDescriptor) (first last : Bool) : UInt8 :=
  UInt8.ofNat (128 + bit d.fromEarlier 64 + bit d.hasLayerInfo 32 + bit d.flexible 16 +
    bit first 8 + bit last 4 + bit (d.hasStructure && first) 2 + bit d.notForAbove 1)

def pictureIdOctets (d : PayloadDescriptor) : Octets :=
  [UInt8.ofNat (128 + d.pictureId / 256 % 128), UInt8.ofNat d.pictureId]

def layerOctets (d : PayloadDescriptor) : Octets :=
  if d.hasLayerInfo then
    UInt8.ofNat (d.temporal.getD 0 % 8 * 32 + bit d.upSwitch 16 +
      d.spatial.getD 0 % 8 * 2 + bit d.fromBelow 1) ::
      if d.flexible then [] else [UInt8.ofNat d.baseIndex]
  else []

/-- Distances in seven bits, each after the first announced by the one before it. -/
def writeDistances : List Nat → Octets
  | [] => []
  | [n] => [UInt8.ofNat (2 * n)]
  | n :: rest => UInt8.ofNat (2 * n + 1) :: writeDistances rest

def distanceOctets (d : PayloadDescriptor) : Octets :=
  if d.hasDistances then writeDistances d.distances else []

def structureOctets (d : PayloadDescriptor) : Octets :=
  UInt8.ofNat ((d.spatialLayers - 1) % 8 * 32 + bit d.hasResolutions 16) ::
    if d.hasResolutions then
      (List.range d.spatialLayers).flatMap fun sid =>
        Octets.ofWord16 (UInt16.ofNat (d.widths.get sid)) ++
          Octets.ofWord16 (UInt16.ofNat (d.heights.get sid))
    else []

def header (d : PayloadDescriptor) (first last : Bool) : Octets :=
  d.flags first last :: d.pictureIdOctets ++ d.layerOctets ++ d.distanceOctets ++
    if d.hasStructure && first then d.structureOctets else []

def fragments (d : PayloadDescriptor) (room : Nat) (rest : Octets) : List Octets :=
  if _ : room = 0 ∨ rest = [] then []
  else
    (d.header false (rest.length ≤ room) ++ rest.take room) :: fragments d room (rest.drop room)
termination_by rest.length
decreasing_by
  rename_i h
  have : 0 < rest.length := List.length_pos_iff.2 fun e => h (.inr e)
  simp only [List.length_drop]
  omega

def maxDistances : Nat := 3
def maxPayload : Nat := 0x7fffffffffffffff

/-- A layer frame in payloads of at most `mtu` octets; none when there is nothing to send
or no room for it behind the descriptor. Sizes can be told of three layers only. -/
def payloads (d : PayloadDescriptor) (mtu : Nat) (payload : Octets) : Checked (List Octets) :=
  let room := mtu - d.headerLength d.hasStructure
  if payload.isEmpty || mtu = 0 then .ok []
  else if maxDistances < d.distances.length then .error (.tooManyDistances d.distances.length)
  else if room = 0 then .ok []
  else if maxPayload < mtu then .error (.payloadLimit mtu)
  else if d.hasStructure && d.hasResolutions && PerLayer.count < d.spatialLayers then
    .error .outOfRange
  else
    .ok ((d.header true (payload.length ≤ room) ++ payload.take room) ::
      d.fragments (mtu - d.headerLength false) (payload.drop room))

def marksEnd (d : PayloadDescriptor) (lastFragment : Bool) : Bool := lastFragment && d.endOfPicture

end PayloadDescriptor
end LayeredRtp
