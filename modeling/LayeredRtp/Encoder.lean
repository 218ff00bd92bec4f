import LayeredRtp.Controller
import LayeredRtp.PayloadDescriptor
import LayeredRtp.ReferenceBuffers

/-! Layered coding of pictures. For each picture the controller chooses layers and buffers,
the tracker turns them into the codec's terms, the codec answers with coded layers, and
each of these becomes a frame with the descriptor that receivers need. -/
namespace LayeredRtp

structure EncoderSettings where
  width : Nat
  height : Nat
  mode : ScalabilityMode := default
  flexible : Bool := true
  firstPictureId : Nat := 0
  keyOnDeactivation : Bool := false
deriving DecidableEq, Repr

def pictureIds : Nat := 0x8000

def EncoderSettings.setPictureId (s : EncoderSettings) (id : Nat) : EncoderSettings :=
  { s with firstPictureId := id % pictureIds }

structure LayerSelection where
  spatial : Nat
  temporal : Nat
  temporals : PerLayer Nat
deriving DecidableEq, Repr

def LayerSelection.ofFrames (first : LayerFrame) (frames : List LayerFrame) : LayerSelection where
  spatial := first.spatial
  temporal := first.temporal
  temporals := frames.foldl (fun t f => t.set f.spatial f.temporal) (.replicate 0)

structure CodecRequest where
  selection : LayerSelection
  config : BufferPlan
  forceKey : Bool
deriving DecidableEq, Repr

structure CodedLayer where
  spatial : Nat
  temporal : Nat
  isKey : Bool
  data : Octets
deriving DecidableEq, Repr

/-- The coded layers, lowest first; without any, the picture was dropped. -/
abbrev CodecAnswer := Except LayerError (List CodedLayer)

structure EncodedFrame where
  timestamp : UInt32
  isKey : Bool
  descriptor : PayloadDescriptor
  report : FrameReport
  data : Octets
deriving DecidableEq, Repr

/-- The spatial layers that are on, as the lowest and the one after the highest. -/
structure LayerRange where
  first : Nat
  stop : Nat
deriving DecidableEq, Repr

namespace LayerRange

def extend (range : LayerRange) : List Nat → Except LayerError LayerRange
  | [] => .ok range
  | sid :: rest =>
    if range.stop < sid then .error (.middleLayerDeactivated range.stop)
    else extend { range with stop := sid + 1 } rest

def ofRates (r : LayerRates) (spatial : Nat) : Except LayerError LayerRange :=
  match (List.range spatial).filter r.isOn with
  | [] => .ok ⟨0, 0⟩
  | first :: rest => extend ⟨first, first + 1⟩ rest

end LayerRange

structure Encoder where
  mode : ScalabilityMode
  width : Nat
  height : Nat
  flexible : Bool
  keyOnDeactivation : Bool
  firstPictureId : Nat
  controller : Controller
  tracker : ReferenceBuffers := {}
  keyForced : Bool := true
  picturesSinceKey : Nat := 0
  pictureId : Option Nat := none
  baseIndex : Option Nat := none
  structureNeeded : Bool := true
  range : LayerRange
deriving DecidableEq, Repr

structure PicturePlan where
  first : LayerFrame
  frames : List LayerFrame
  config : BufferPlan
  picture : Nat
deriving DecidableEq, Repr

namespace Encoder

def new (s : EncoderSettings) : Except LayerError Encoder :=
  if s.width = 0 ∨ s.height = 0 then .error (.invalidResolution s.width s.height)
  else .ok {
    mode := s.mode
    width := s.width
    height := s.height
    flexible := s.flexible
    keyOnDeactivation := s.keyOnDeactivation
    firstPictureId := s.firstPictureId
    controller := .ofMode s.mode
    range := ⟨0, s.mode.spatial⟩ }

def requestKey (e : Encoder) : Encoder := { e with keyForced := true }

/-- New rates, which turn layers on and off. A key picture is needed where prediction
cannot bridge the change. -/
def setRates (e : Encoder) (r : LayerRates) : Except LayerError Encoder := do
  let range ← LayerRange.ofRates r e.mode.spatial
  let lowerOn := range.first < e.range.first
  let higherOn := e.range.stop < range.stop
  let someOff := e.range.first < range.first || range.stop < e.range.stop
  let needsKey := lowerOn || (higherOn && e.mode.prediction != .on) ||
    (someOff && e.keyOnDeactivation)
  return { e with
    keyForced := e.keyForced || needsKey
    structureNeeded := e.structureNeeded || range != e.range
    range
    controller := e.controller.setRates r }

def planOnce (e : Encoder) : Except Stop PicturePlan × Encoder :=
  let (frames, controller) := e.controller.next e.keyForced
  let e := { e with controller }
  match frames with
  | [] => (.error (.refusal .noLayers), e)
  | first :: _ =>
    let e := { e with keyForced := e.keyForced || first.isKey }
    let picture := if e.keyForced then 0 else e.picturesSinceKey + 1
    ((e.tracker.configure frames picture e.mode.prediction).map
      ({ first, frames, config := ·, picture }), e)

/-- Plans the next picture. References that are too old make it a key picture, which has
none. -/
def plan (e : Encoder) : Except Stop PicturePlan × Encoder :=
  match e.planOnce with
  | (.error (.refusal (.referenceTooOld n)), next) =>
    if e.keyForced then (.error (.refusal (.referenceTooOld n)), next)
    else next.requestKey.planOnce
  | result => result

def request (e : Encoder) (p : PicturePlan) : CodecRequest where
  selection := .ofFrames p.first p.frames
  config := p.config
  forceKey := e.keyForced

def beginPicture (e : Encoder) (temporal : Nat) : Encoder :=
  { e with
    pictureId := some (match e.pictureId with
      | none => e.firstPictureId
      | some id => (id + 1) % pictureIds)
    baseIndex :=
      if temporal = 0 then
        some (match e.baseIndex with
          | none => 0
          | some i => (i + 1) % 256)
      else e.baseIndex }

def predictsFromBelow (e : Encoder) (isKeyPicture : Bool) : Bool :=
  match e.mode.prediction with
  | .on => true
  | .keyPictures => isKeyPicture
  | .off => false

/-- A receiver may go up to a layer whose frame uses lower temporal layers only. -/
def allowsUpSwitch (e : Encoder) (f : LayerFrame) (temporal picture : Nat) : Bool :=
  ((f.references.filterMap e.tracker.slot).filter (·.picture < picture)).all fun s =>
    temporal == 0 || s.temporal < temporal

def scaled (e : Encoder) (full sid : Nat) : Nat :=
  full * e.mode.layout.numerators.get sid / e.mode.layout.denominators.get sid % 0x10000

def stopLayer (e : Encoder) : Nat := max e.range.stop 1

def layerSizes (e : Encoder) (full : Nat) : PerLayer Nat :=
  .ofFn fun sid => if e.range.first ≤ sid ∧ sid < e.stopLayer then e.scaled full sid else 0

def descriptor (e : Encoder) (layer : CodedLayer) (f : LayerFrame) (picture : Nat)
    (firstInPicture endOfPicture : Bool) (info : ReferenceSummary) : PayloadDescriptor :=
  let isKeyPicture := picture == 0
  let allowed := e.predictsFromBelow isKeyPicture
  let fromBelow := !firstInPicture && allowed
  let hasStructure := (layer.isKey && !fromBelow) ||
    (e.structureNeeded && layer.temporal == 0 && layer.spatial == e.range.first)
  { pictureId := e.pictureId.getD e.firstPictureId
    flexible := e.flexible
    firstInPicture
    endOfPicture
    temporal := if 1 < e.mode.temporal then some layer.temporal else none
    spatial := if 1 < e.stopLayer then some layer.spatial else none
    upSwitch := e.allowsUpSwitch f layer.temporal picture
    fromBelow
    notForAbove := !allowed || layer.spatial + 1 == e.mode.spatial
    fromEarlier := !isKeyPicture && !info.distances.isEmpty
    baseIndex := e.baseIndex.getD 0
    distances := info.distances
    hasStructure
    hasResolutions := hasStructure
    spatialLayers := e.stopLayer
    firstActive := if 1 < e.stopLayer then e.range.first else 0
    widths := if hasStructure then e.layerSizes e.width else .replicate 0
    heights := if hasStructure then e.layerSizes e.height else .replicate 0 }

def countPicture (e : Encoder) (isKey firstInPicture : Bool) : Encoder :=
  { e with picturesSinceKey :=
      if isKey then 0
      else if firstInPicture then e.picturesSinceKey + 1
      else e.picturesSinceKey }

def mismatch (planned coded : Nat) : LayerError :=
  .codec s!"Picture {planned} encoded as {coded}, key frame mismatch"

def acceptLayer (e : Encoder) (layer : CodedLayer) (f : LayerFrame) (p : PicturePlan)
    (firstInPicture endOfPicture : Bool) (timestamp : UInt32) :
    Checked (EncodedFrame × Encoder) := do
  let allowed := e.predictsFromBelow (p.picture == 0)
  let info ← e.tracker.info f p.config p.picture (!firstInPicture && allowed) e.mode.prediction
  let descriptor := e.descriptor layer f p.picture firstInPicture endOfPicture info
  let tracker ← e.tracker.record f p.config p.picture
  let (report, controller) ← e.controller.done f
  let isKey := layer.isKey && !descriptor.fromBelow
  return ({ timestamp, isKey, descriptor, report, data := layer.data },
    { e with
      tracker
      controller
      structureNeeded := e.structureNeeded && !descriptor.hasStructure
      keyForced := e.keyForced && !isKey })

/-- Turns one coded layer into a frame. It has to be a key frame exactly where the plan
says so, and a key picture has to be of the lowest temporal layer. -/
def takeLayer (e : Encoder) (layer : CodedLayer) (f : LayerFrame) (p : PicturePlan)
    (firstInPicture endOfPicture : Bool) (timestamp : UInt32) :
    Checked (Except LayerError EncodedFrame × Encoder) :=
  let e := e.countPicture layer.isKey firstInPicture
  if e.picturesSinceKey ≠ p.picture then
    .ok (.error (mismatch p.picture e.picturesSinceKey), e)
  else if e.picturesSinceKey = 0 ∧ layer.temporal ≠ 0 then .error .broken
  else
    let e := if firstInPicture then e.beginPicture layer.temporal else e
    (e.acceptLayer layer f p firstInPicture endOfPicture timestamp).map
      (Prod.map .ok id)

def takeLayers (e : Encoder) (p : PicturePlan) (timestamp : UInt32) (first : Bool) :
    List CodedLayer → Checked (Except LayerError (List EncodedFrame) × Encoder)
  | [] => .ok (.ok [], e)
  | layer :: rest =>
    match p.frames.find? fun f => f.spatial == layer.spatial with
    | none => .ok (.error (.unexpectedLayer layer.spatial layer.temporal), e)
    | some f =>
      match e.takeLayer layer f p first rest.isEmpty timestamp with
      | .error b => .error b
      | .ok (.error refused, e) => .ok (.error refused, e)
      | .ok (.ok frame, e) =>
        match takeLayers e p timestamp false rest with
        | .error b => .error b
        | .ok (.error refused, e) => .ok (.error refused, e)
        | .ok (.ok frames, e) => .ok (.ok (frame :: frames), e)

def encode (e : Encoder) (timestamp : UInt32) (codec : CodecRequest → CodecAnswer) :
    Checked (Except LayerError (List EncodedFrame) × Encoder) :=
  match e.plan with
  | (.error (.breach b), _) => .error b
  | (.error (.refusal refused), e) => .ok (.error refused, e)
  | (.ok p, e) =>
    match codec (e.request p) with
    | .error refused => .ok (.error refused, e)
    | .ok layers => e.takeLayers p timestamp true layers

def text (e : Encoder) : String :=
  let pictureId := match e.pictureId with
    | none => "None"
    | some id => "Some(" ++ toString id ++ ")"
  "Vp9Encoder \x7b mode: " ++ e.mode.word ++
    ", force_key_frame: " ++ toString e.keyForced ++
    ", pics_since_key: " ++ toString e.picturesSinceKey ++
    ", picture_id: " ++ pictureId ++
    ", active_layers: (" ++ toString e.range.first ++ ", " ++ toString e.range.stop ++
    "), tracker: " ++ e.tracker.text ++ " \x7d"

end Encoder
end LayeredRtp
