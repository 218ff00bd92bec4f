/-! What is answered when something cannot be done, and the texts for it. A breach stops a
computation for good: a promise of the caller or of the codec was broken. Every other refusal
is an ordinary answer. -/
namespace LayeredRtp

inductive Breach where
  | outOfRange
  | broken
  | pictureDistance (n : Nat)
  | bufferIndex (index : Nat)
  | tooManyBuffers
  | spatialLayerCount (n : Nat)
  | temporalLayerCount (n : Nat)
  | spatialId (sid : Nat)
  | predictionOff (sid source : Nat)
  | notLayerBelow
  | emptyBuffer (sid buffer : Nat)
  | notOlder (sid buffer source picture : Nat)
  | higherSpatial (sid source : Nat)
  | acrossSpatial
  | higherTemporal (tid source : Nat)
  | referencedEmpty (sid buffer : Nat)
  | futurePicture
  | samePicture
  | tooManyDistances (n : Nat)
  | payloadLimit (mtu : Nat)
  | nulInName
  | ownThread (name : String)
deriving DecidableEq, Repr

abbrev Checked := Except Breach

namespace Breach

def message : Breach → Option String
  | outOfRange | broken | pictureDistance _ | tooManyDistances _ | payloadLimit _
  | nulInName => none
  | bufferIndex i => some s!"Buffer index out of range: {i}"
  | tooManyBuffers => some "Too many buffers for one layer frame"
  | spatialLayerCount n => some s!"Bad number of spatial layers: {n}"
  | temporalLayerCount n => some s!"Bad number of temporal layers: {n}"
  | spatialId s => some s!"Spatial id out of range: {s}"
  | predictionOff s r => some s!"Inter-layer reference S{r} -> S{s} with prediction off"
  | notLayerBelow => some "Inter-layer reference must be from the layer below"
  | emptyBuffer s b => some s!"S{s} references empty buffer {b}"
  | notOlder s b r p => some s!"S{s} references buffer {b} of picture {r} not older than {p}"
  | higherSpatial s r => some s!"Temporal reference from S{s} to higher S{r}"
  | acrossSpatial => some "Temporal reference across spatial layers"
  | higherTemporal t r => some s!"Temporal reference from T{t} to higher T{r}"
  | referencedEmpty s b => some s!"S{s} referenced empty buffer {b}"
  | futurePicture => some "Reference to a future picture"
  | samePicture => some "Same picture reference without ILP"
  | ownThread name => some s!"Blocking invoke on worker {name} from its own thread"

end Breach

inductive LayerError where
  | noLayers
  | referenceTooOld (pictures : Nat)
  | unexpectedLayer (sid tid : Nat)
  | invalidResolution (width height : Nat)
  | unknownMode (name : String)
  | middleLayerDeactivated (sid : Nat)
  | codec (text : String)
deriving DecidableEq, Repr

def LayerError.message : LayerError → String
  | noLayers => "No active layers to encode"
  | referenceTooOld n => s!"Reference too old: {n} pictures back"
  | unexpectedLayer s t => s!"Unexpected layer produced: S{s}T{t}"
  | invalidResolution w h => s!"Invalid resolution: {w}x{h}"
  | unknownMode name => s!"Unknown scalability mode: {name}"
  | middleLayerDeactivated s => s!"Middle spatial layer {s} deactivated"
  | codec text => s!"Codec backend: {text}"

inductive Stop where
  | refusal (e : LayerError)
  | breach (b : Breach)
deriving DecidableEq, Repr

inductive Failure where
  | packet
  | layers (e : LayerError)
  | gone
deriving DecidableEq, Repr

def Failure.group : Failure → String
  | packet => "Rtp"
  | layers _ => "Svc"
  | gone => "Worker"

def Failure.message : Failure → String
  | packet => "Failed to parse RTP header"
  | layers e => e.message
  | gone => "Worker is gone"

end LayeredRtp
