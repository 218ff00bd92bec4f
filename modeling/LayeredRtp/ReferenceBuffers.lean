import LayeredRtp.Failure
import LayeredRtp.LayerFrame
import LayeredRtp.ScalabilityMode

/-! Which picture each codec buffer holds. From it the buffers that a picture may use are
told to the codec, and the distances to the pictures used are told to receivers. -/
namespace LayeredRtp

structure FrameOrigin where
  picture : Nat
  spatial : Nat
  temporal : Nat
deriving DecidableEq, Repr

/-- The use of buffers that the codec is told of, for each spatial layer: three buffers by
name, whether it may predict from each, and the buffers to store the frame in. -/
structure BufferPlan where
  last : PerLayer Nat := .replicate 0
  golden : PerLayer Nat := .replicate 0
  alternate : PerLayer Nat := .replicate 0
  usesLast : PerLayer Bool := .replicate false
  usesGolden : PerLayer Bool := .replicate false
  usesAlternate : PerLayer Bool := .replicate false
  updates : PerLayer (List Nat) := .replicate []
deriving DecidableEq, Repr

namespace BufferPlan

def bitmap (buffers : List Nat) : Nat :=
  ((List.range BufferUse.bufferCount).map fun b =>
    if b ∈ buffers then 1 <<< b else 0).foldr (· + ·) 0

def references (c : BufferPlan) (sid : Nat) : List Nat :=
  (if c.usesLast.get sid then [c.last.get sid] else []) ++
  (if c.usesAlternate.get sid then [c.alternate.get sid] else []) ++
  (if c.usesGolden.get sid then [c.golden.get sid] else [])

def enter (c : BufferPlan) (f : LayerFrame) : BufferPlan :=
  let sid := f.spatial
  let c := match f.buffers[0]? with
    | some u =>
      { c with last := c.last.set sid u.buffer, usesLast := c.usesLast.set sid u.referenced }
    | none => c
  let c := match f.buffers[1]? with
    | some u =>
      { c with
        golden := c.golden.set sid u.buffer
        usesGolden := c.usesGolden.set sid u.referenced }
    | none => c
  let c := match f.buffers[2]? with
    | some u =>
      { c with
        alternate := c.alternate.set sid u.buffer
        usesAlternate := c.usesAlternate.set sid u.referenced }
    | none => c
  { c with updates := c.updates.set sid (c.updates.get sid ++ f.updates) }

end BufferPlan

structure ReferenceSummary where
  distances : List Nat
  buffers : Nat
deriving DecidableEq, Repr

structure ReferenceBuffers where
  slots : List (Option FrameOrigin) := List.replicate BufferUse.bufferCount none
deriving DecidableEq, Repr

namespace ReferenceBuffers

def maxDistance : Nat := 127

def slot (t : ReferenceBuffers) (buffer : Nat) : Option FrameOrigin :=
  (t.slots[buffer]?).join

/-- A reference to an older picture stays within its spatial layer, or reaches down from it
where layers are always predicted from below. It never reaches up a temporal layer. -/
def checkOlder (s : FrameOrigin) (f : LayerFrame) (mode : LayerPrediction) :
    Checked Unit :=
  if mode = .on ∧ f.spatial < s.spatial then .error (.higherSpatial f.spatial s.spatial)
  else if mode ≠ .on ∧ s.spatial ≠ f.spatial then .error .acrossSpatial
  else if f.temporal < s.temporal then .error (.higherTemporal f.temporal s.temporal)
  else .ok ()

def checkReference (t : ReferenceBuffers) (earlier : List LayerFrame) (f : LayerFrame)
    (picture : Nat) (mode : LayerPrediction) (buffer : Nat) : Except Stop Unit :=
  match earlier.find? fun l => buffer ∈ l.updates with
  | some lower =>
    if mode = .off then .error (.breach (.predictionOff f.spatial lower.spatial))
    else if lower.spatial + 1 ≠ f.spatial then .error (.breach .notLayerBelow)
    else .ok ()
  | none =>
    match t.slot buffer with
    | none => .error (.breach (.emptyBuffer f.spatial buffer))
    | some s =>
      if picture ≤ s.picture then
        .error (.breach (.notOlder f.spatial buffer s.picture picture))
      else match checkOlder s f mode with
        | .error b => .error (.breach b)
        | .ok () =>
          if maxDistance < picture - s.picture then
            .error (.refusal (.referenceTooOld (picture - s.picture)))
          else .ok ()

def checkAll (check : Nat → Except Stop Unit) : List Nat → Except Stop Unit
  | [] => .ok ()
  | b :: rest =>
    match check b with
    | .error e => .error e
    | .ok () => checkAll check rest

def configureFrom (t : ReferenceBuffers) (picture : Nat) (mode : LayerPrediction)
    (earlier : List LayerFrame) (c : BufferPlan) :
    List LayerFrame → Except Stop BufferPlan
  | [] => .ok c
  | f :: rest =>
    if f.spatial < PerLayer.count then
      match checkAll (t.checkReference earlier f picture mode) f.references with
      | .error e => .error e
      | .ok () => configureFrom t picture mode (earlier ++ [f]) (c.enter f) rest
    else .error (.breach (.spatialId f.spatial))

def configure (t : ReferenceBuffers) (frames : List LayerFrame) (picture : Nat)
    (mode : LayerPrediction) : Except Stop BufferPlan :=
  t.configureFrom picture mode [] {} frames

/-- What the buffers hold, without repetitions; a buffer that holds what one before it
holds is left out. -/
def heldFrames (t : ReferenceBuffers) (sid : Nat) (seen : List (Nat × FrameOrigin)) :
    List Nat → Checked (List (Nat × FrameOrigin))
  | [] => .ok seen
  | b :: rest =>
    match t.slot b with
    | none => .error (.referencedEmpty sid b)
    | some s =>
      heldFrames t sid (if seen.any fun x => x.2 == s then seen else seen ++ [(b, s)]) rest

def distancesFrom (f : LayerFrame) (picture : Nat) (fromBelow : Bool) (mode : LayerPrediction)
    (seen : List Nat) : List FrameOrigin → Checked (List Nat)
  | [] => .ok []
  | s :: rest =>
    if picture < s.picture then .error .futurePicture
    else if s.picture = picture then
      if !fromBelow then .error .samePicture
      else if s.spatial + 1 ≠ f.spatial then .error .notLayerBelow
      else distancesFrom f picture fromBelow mode seen rest
    else match checkOlder s f mode with
      | .error b => .error b
      | .ok () =>
        if s.picture ∈ seen then distancesFrom f picture fromBelow mode seen rest
        else if maxDistance < picture - s.picture then
          .error (.pictureDistance (picture - s.picture))
        else
          match distancesFrom f picture fromBelow mode (s.picture :: seen) rest with
          | .error b => .error b
          | .ok more => .ok ((picture - s.picture) :: more)

/-- What receivers are told of a frame, asked before the frame itself is recorded and
after the lower layers of its picture are. -/
def info (t : ReferenceBuffers) (f : LayerFrame) (c : BufferPlan) (picture : Nat)
    (fromBelow : Bool) (mode : LayerPrediction) : Checked ReferenceSummary :=
  if f.spatial < PerLayer.count then do
    let held ← t.heldFrames f.spatial [] (c.references f.spatial)
    let distances ← distancesFrom f picture fromBelow mode [] (held.map (·.2))
    return ⟨distances, BufferPlan.bitmap (held.map (·.1))⟩
  else .error .outOfRange

def record (t : ReferenceBuffers) (f : LayerFrame) (c : BufferPlan) (picture : Nat) :
    Checked ReferenceBuffers :=
  if f.spatial < PerLayer.count then
    let updates := c.updates.get f.spatial
    .ok ⟨(List.range BufferUse.bufferCount).map fun b =>
      if b ∈ updates then some ⟨picture, f.spatial, f.temporal⟩ else t.slot b⟩
  else .error .outOfRange

def originText (s : FrameOrigin) : String :=
  toString s.picture ++ ":S" ++ toString s.spatial ++ "T" ++ toString s.temporal

def text (t : ReferenceBuffers) : String :=
  let entries := (List.range BufferUse.bufferCount).filterMap fun b =>
    (t.slot b).map fun s => toString b ++ ": " ++ originText s
  "\x7b" ++ ", ".intercalate entries ++ "\x7d"

end ReferenceBuffers
end LayeredRtp
