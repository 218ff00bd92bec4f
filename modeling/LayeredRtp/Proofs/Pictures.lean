import LayeredRtp.Encoder

/-! The pictures that an encoder has emitted, and the runs that emit them. Pictures are listed
newest first, so that the picture `d` pictures before the next one stands at `d - 1`. -/
namespace LayeredRtp

abbrev Picture := List EncodedFrame

def EncodedFrame.reads (f : EncodedFrame) : List Nat :=
  (f.report.buffers.filter (·.referenced)).map (·.buffer)

def EncodedFrame.writes (f : EncodedFrame) : List Nat :=
  (f.report.buffers.filter (·.updated)).map (·.buffer)

structure EncodedFrame.Uses (f : EncodedFrame) (c : BufferPlan) : Prop where
  reads : ∀ b, b ∈ f.reads ↔ b ∈ c.references f.report.spatial
  writes : f.writes = c.updates.get f.report.spatial

namespace Picture

def isKey (p : Picture) : Bool := p.any (·.isKey)

def holder (buffer : Nat) : List Picture → Option (Nat × EncodedFrame)
  | [] => none
  | p :: older =>
    match p.reverse.find? fun f => buffer ∈ f.writes with
    | some f => some (0, f)
    | none => (holder buffer older).map fun x => (x.1 + 1, x.2)

theorem holder_begin (buffer : Nat) (older : List Picture) :
    holder buffer ([] :: older) = (holder buffer older).map fun x => (x.1 + 1, x.2) := rfl

theorem holder_append (buffer : Nat) (p : Picture) (f : EncodedFrame) (older : List Picture) :
    holder buffer ((p ++ [f]) :: older) =
      if buffer ∈ f.writes then some (0, f) else holder buffer (p :: older) := by
  by_cases h : buffer ∈ f.writes <;> simp [holder, h]

def emit (p : Picture) (older : List Picture) : List Picture :=
  if p.isEmpty then older else p :: older

end Picture

/-- What the descriptor of a frame promises, given the pictures emitted before its own and the
frames below and above it in its own.

The distances are those to the pictures that the frame was predicted from. Each is that of a
picture emitted that many pictures ago under the picture id that receivers compute from it, and
no key picture came after that one. -/
structure Truthful (older : List Picture) (below : Picture) (f : EncodedFrame)
    (above : Picture) : Prop where
  few : f.descriptor.distances.length ≤ PayloadDescriptor.maxDistances
  distinct : f.descriptor.distances.Nodup
  bounded : ∀ d ∈ f.descriptor.distances, 1 ≤ d ∧ d ≤ ReferenceBuffers.maxDistance
  exact : ∀ d, d ∈ f.descriptor.distances ↔
    0 < d ∧ ∃ b ∈ f.reads, ∃ g, Picture.holder b (below :: older) = some (d, g)
  reachable : ∀ d ∈ f.descriptor.distances, ∃ p, older[d - 1]? = some p ∧ p ≠ [] ∧
    (∀ g ∈ p, g.descriptor.pictureId =
      (f.descriptor.pictureId + pictureIds - d) % pictureIds) ∧
    (∀ q ∈ older.take (d - 1), Picture.isKey q = false) ∧
    Picture.isKey (below ++ f :: above) = false
  grounded : ∀ b ∈ f.reads, ∃ d g, Picture.holder b (below :: older) = some (d, g) ∧
    g.report.spatial ≤ f.report.spatial ∧ g.report.temporal ≤ f.report.temporal ∧
    (d = 0 → g.report.spatial + 1 = f.report.spatial)
  fromEarlier : f.descriptor.fromEarlier = true ↔ f.descriptor.distances ≠ []
  fromBelow : f.descriptor.fromBelow = true ↔
    ∃ b ∈ f.reads, ∃ g, Picture.holder b (below :: older) = some (0, g)
  upSwitch : f.descriptor.upSwitch = true ↔ ∀ b ∈ f.reads, ∀ d g,
    Picture.holder b (below :: older) = some (d, g) → 0 < d →
      f.report.temporal = 0 ∨ g.report.temporal < f.report.temporal
  notForAbove : f.descriptor.notForAbove = true → ∀ g ∈ above, ∀ b ∈ g.reads, b ∉ f.writes

/-- The coded layers are the requested ones from the lowest up, possibly without some of the
highest. The first of them is a key frame exactly if that was asked for, and no other is. -/
def CodedLayer.Answers (forceKey : Bool) : List LayerFrame → List CodedLayer → Prop
  | _, [] => True
  | [], _ :: _ => False
  | f :: frames, l :: layers =>
    l.spatial = f.spatial ∧ l.temporal = f.temporal ∧ l.isKey = forceKey ∧
      Answers false frames layers

namespace Encoder

/-- The codec does what the encoder asks of it for the next picture. Where layers are predicted
from below on key pictures only, it codes all layers of a picture or none. -/
def ObeyedBy (e : Encoder) (codec : CodecRequest → CodecAnswer) : Prop :=
  ∀ p next, e.plan = (.ok p, next) → ∃ layers, codec (next.request p) = .ok layers ∧
    CodedLayer.Answers next.keyForced p.frames layers ∧
    (e.mode.keyOnly = true → layers = [] ∨ layers.length = p.frames.length)

/-- The encoders that start from some settings and whose codec does as it is asked, with the
pictures they have emitted. Of the accepted rates, only those that `admits` allows are set. -/
inductive Run (s : EncoderSettings) (admits : LayerRates → Prop) :
    Encoder → List Picture → Prop
  | new {e : Encoder} : Encoder.new s = .ok e → Run s admits e []
  | setRates {e next : Encoder} {h : List Picture} (r : LayerRates) :
      Run s admits e h → admits r → e.setRates r = .ok next → Run s admits next h
  | requestKey {e : Encoder} {h : List Picture} : Run s admits e h → Run s admits e.requestKey h
  | encode {e next : Encoder} {h : List Picture} {frames : Picture} (timestamp : UInt32)
      (codec : CodecRequest → CodecAnswer) : Run s admits e h → e.ObeyedBy codec →
      e.encode timestamp codec = .ok (.ok frames, next) →
      Run s admits next (Picture.emit frames h)
  | refused {e next : Encoder} {h : List Picture} {why : LayerError} (timestamp : UInt32)
      (codec : CodecRequest → CodecAnswer) : Run s admits e h → e.ObeyedBy codec →
      e.encode timestamp codec = .ok (.error why, next) → Run s admits next h

end Encoder

def LayerRates.Gapless (r : LayerRates) (m : ScalabilityMode) : Prop :=
  ∀ tid < m.temporal, ∀ low mid high, low < mid → mid < high → high < m.spatial →
    r.reaches low tid = true → r.reaches high tid = true → r.reaches mid tid = true

end LayeredRtp
