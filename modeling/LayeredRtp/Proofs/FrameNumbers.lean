import LayeredRtp.Proofs.FrameFragments
import LayeredRtp.Proofs.LayerAnnouncements
import Mathlib.Data.List.Forall2

/-! The numbers that frames carry. The first layer of a picture moves the picture id on, and in the
lowest temporal layer the count of such pictures too; the layers above it carry the same numbers,
whatever the codec made of them. -/
namespace LayeredRtp

namespace ReferenceBuffers

variable {t : ReferenceBuffers} {f : LayerFrame} {c : BufferPlan} {picture sid : Nat}
  {fromBelow : Bool} {mode : LayerPrediction}

theorem length_heldFrames {seen held : List (Nat × FrameOrigin)} {buffers : List Nat}
    (h : t.heldFrames sid seen buffers = .ok held) :
    held.length ≤ seen.length + buffers.length := by
  induction buffers generalizing seen with
  | nil =>
    cases h
    exact Nat.le_refl _
  | cons b rest ih =>
    cases hslot : t.slot b with
    | none => simp [heldFrames, hslot] at h
    | some s =>
      simp only [heldFrames, hslot] at h
      have hrest := ih h
      have hseen : (if seen.any fun x => x.2 == s then seen else seen ++ [(b, s)]).length ≤
          seen.length + 1 := by
        split <;> simp
      simp only [List.length_cons]
      omega

theorem length_distancesFrom {seen distances : List Nat} {slots : List FrameOrigin}
    (h : distancesFrom f picture fromBelow mode seen slots = .ok distances) :
    distances.length ≤ slots.length := by
  induction slots generalizing seen distances with
  | nil =>
    cases h
    exact Nat.le_refl _
  | cons s rest ih =>
    have hlater (h : distancesFrom f picture fromBelow mode seen rest = .ok distances) :
        distances.length ≤ (s :: rest).length := Nat.le_succ_of_le (ih h)
    unfold distancesFrom at h
    split at h
    · cases h
    · split at h
      · split at h
        · cases h
        · split at h
          · cases h
          · exact hlater h
      · split at h
        · cases h
        · split at h
          · exact hlater h
          · split at h
            · cases h
            · split at h
              · cases h
              · rename_i more hmore
                cases h
                exact Nat.succ_le_succ (ih hmore)

/-- Receivers are told of one distance for each of three buffers at most. -/
theorem length_distances_of_info {info : ReferenceSummary}
    (h : t.info f c picture fromBelow mode = .ok info) : info.distances.length ≤ 3 := by
  unfold ReferenceBuffers.info at h
  split at h
  · simp only [bind, Except.bind, pure, Except.pure] at h
    split at h
    · cases h
    · rename_i held hheld
      split at h
      · cases h
      · rename_i distances hdistances
        cases h
        have hheld := length_heldFrames hheld
        have hreferences := c.length_references f.spatial
        have hfew := length_distancesFrom hdistances
        simp only [List.length_map, List.length_nil] at hfew hheld ⊢
        omega
  · cases h

end ReferenceBuffers

structure EncodedFrame.Carries (g : EncodedFrame) (e : Encoder) (layer : CodedLayer) : Prop where
  data : g.data = layer.data
  temporal : g.descriptor.temporal = if 1 < e.mode.temporal then some layer.temporal else none
  pictureId : g.descriptor.pictureId = e.pictureId.getD e.firstPictureId
  baseIndex : g.descriptor.baseIndex = e.baseIndex.getD 0
  distances : g.descriptor.distances.length ≤ 3
  spatialLayers : g.descriptor.spatialLayers = e.stopLayer

def Picture.Delimited (first : Bool) (gs : Picture) : Prop :=
  ∀ before g after, gs = before ++ g :: after →
    g.descriptor.firstInPicture = (first && before.isEmpty) ∧
      g.descriptor.endOfPicture = after.isEmpty

theorem Picture.delimited_cons {first : Bool} {g : EncodedFrame} {above : Picture}
    (hfirst : g.descriptor.firstInPicture = first)
    (hlast : g.descriptor.endOfPicture = above.isEmpty) (habove : Picture.Delimited false above) :
    Picture.Delimited first (g :: above) := by
  intro before x after hsplit
  cases before with
  | nil =>
    obtain ⟨rfl, rfl⟩ := List.cons.inj hsplit
    exact ⟨by simp [hfirst], hlast⟩
  | cons b before =>
    obtain ⟨rfl, hrest⟩ := List.cons.inj hsplit
    obtain ⟨hopens, hends⟩ := habove before x after hrest
    exact ⟨by simpa using hopens, hends⟩

namespace Encoder

variable {e mid next : Encoder} {p : PicturePlan} {layer : CodedLayer}
  {rest layers : List CodedLayer} {f : LayerFrame} {g : EncodedFrame} {gs : Picture}
  {first endOfPicture : Bool} {timestamp : UInt32} {codec : CodecRequest → CodecAnswer}
  {why : LayerError}

structure SameNumbers (e next : Encoder) : Prop extends e.SameStream next where
  firstPictureId : next.firstPictureId = e.firstPictureId
  pictureId : next.pictureId = e.pictureId
  baseIndex : next.baseIndex = e.baseIndex

theorem SameNumbers.trans (h : e.SameNumbers mid) (h' : mid.SameNumbers next) :
    e.SameNumbers next :=
  ⟨h.toSameStream.trans h'.toSameStream, h'.firstPictureId.trans h.firstPictureId,
    h'.pictureId.trans h.pictureId, h'.baseIndex.trans h.baseIndex⟩

theorem SameNumbers.carries (h : e.SameNumbers next) (hg : g.Carries next layer) :
    g.Carries e layer where
  data := hg.data
  temporal := h.mode ▸ hg.temporal
  pictureId := h.pictureId ▸ h.firstPictureId ▸ hg.pictureId
  baseIndex := h.baseIndex ▸ hg.baseIndex
  distances := hg.distances
  spatialLayers := by rw [hg.spatialLayers, stopLayer, stopLayer, h.range]

theorem sameNumbers_plan (e : Encoder) : e.SameNumbers e.plan.2 := by
  obtain ⟨c, forced, -, -, hplan⟩ := e.plan_leaves
  exact hplan ▸ ⟨⟨rfl, rfl, rfl, rfl⟩, rfl, rfl, rfl⟩

/-- A layer that is taken carries the numbers that the encoder then has. -/
theorem carries_of_takeLayer
    (h : e.takeLayer layer f p first endOfPicture timestamp = .ok (.ok g, next)) :
    (e.entered layer first).SameNumbers next ∧ g.Carries (e.entered layer first) layer ∧
      g.descriptor.firstInPicture = first ∧ g.descriptor.endOfPicture = endOfPicture := by
  obtain ⟨info, tracker, controller, hinfo, -, -, hg, hnext⟩ :=
    acceptLayer_ok (accept_of_takeLayer h)
  have hd := congrArg EncodedFrame.descriptor hg
  have hfew := ReferenceBuffers.length_distances_of_info hinfo
  refine ⟨hnext ▸ ⟨⟨rfl, rfl, rfl, rfl⟩, rfl, rfl, rfl⟩, ?_, hd ▸ rfl, hd ▸ rfl⟩
  constructor
  case data => exact congrArg EncodedFrame.data hg
  case temporal => exact hd ▸ rfl
  case pictureId => exact hd ▸ rfl
  case baseIndex => exact hd ▸ rfl
  case distances => exact hd ▸ hfew
  case spatialLayers => exact hd ▸ rfl

/-- Only the first of the layers can change the numbers, and all of them carry the same. -/
theorem carries_of_takeLayers
    (h : e.takeLayers p timestamp first (layer :: rest) = .ok (.ok gs, next)) :
    (e.entered layer first).SameNumbers next ∧
      List.Forall₂ (fun l g => g.Carries (e.entered layer first) l) (layer :: rest) gs ∧
      gs.Delimited first := by
  induction rest generalizing e layer first gs with
  | nil =>
    obtain ⟨f, g, mid, more, -, htake, hmore, rfl⟩ := take_of_takeLayers h
    obtain ⟨hsame, hcarries, hopens, hends⟩ := carries_of_takeLayer htake
    cases hmore
    have hnone : Picture.Delimited false [] := by simp [Picture.Delimited]
    exact ⟨hsame, .cons hcarries .nil, Picture.delimited_cons hopens hends hnone⟩
  | cons l rest ih =>
    obtain ⟨f, g, mid, more, -, htake, hmore, rfl⟩ := take_of_takeLayers h
    obtain ⟨hsame, hcarries, hopens, hends⟩ := carries_of_takeLayer htake
    obtain ⟨habove, hall, hdelimited⟩ := ih hmore
    -- A later layer is counted, but it moves nothing on.
    have hlater : (e.entered layer first).SameNumbers (mid.entered l false) :=
      hsame.trans ⟨⟨rfl, rfl, rfl, rfl⟩, rfl, rfl, rfl⟩
    have hmany : more.isEmpty = false := by
      cases hall
      rfl
    refine ⟨hlater.trans habove, .cons hcarries (hall.imp fun _ _ => hlater.carries), ?_⟩
    exact Picture.delimited_cons hopens (hends.trans hmany.symm) hdelimited

def Begins (e : Encoder) (timestamp : UInt32) (codec : CodecRequest → CodecAnswer) : Prop :=
  ∃ p start layer rest f g next, e.plan = (.ok p, start) ∧
    codec (start.request p) = .ok (layer :: rest) ∧
    (p.frames.find? fun f => f.spatial == layer.spatial) = some f ∧
    start.takeLayer layer f p true rest.isEmpty timestamp = .ok (.ok g, next)

theorem sameNumbers_of_refused
    (h : e.takeLayer layer f p first endOfPicture timestamp = .ok (.error why, next)) :
    e.SameNumbers next := by
  rcases takeLayer_ends h with ⟨-, rfl, -⟩ | ⟨g, hno, -⟩
  · exact ⟨⟨rfl, rfl, rfl, rfl⟩, rfl, rfl, rfl⟩
  · cases hno

/-- A picture that fails before any of its layers is taken leaves the numbers as they are. -/
theorem sameNumbers_of_failed (henc : e.encode timestamp codec = .ok (.error why, next))
    (hnone : ¬e.Begins timestamp codec) : e.SameNumbers next := by
  have hplanned := e.sameNumbers_plan
  rcases encode_ends henc with
    ⟨_, hplan, -⟩ | ⟨p, start, hplan, ⟨_, -, -, rfl⟩ | ⟨layers, hcodec, htake⟩⟩
  · rwa [hplan] at hplanned
  · rwa [hplan] at hplanned
  · rw [hplan] at hplanned
    cases layers with
    | nil => cases htake
    | cons layer rest =>
      rcases takeLayers_ends htake with
        ⟨-, rfl, -⟩ | ⟨f, hfind, ⟨_, -, hrefused⟩ | ⟨g, mid, _, hfirst, -⟩⟩
      · exact hplanned
      · exact hplanned.trans (sameNumbers_of_refused hrefused)
      · exact absurd ⟨p, start, layer, rest, f, g, mid, hplan, hcodec, hfind, hfirst⟩ hnone

/-- So does a picture that the codec drops. -/
theorem sameNumbers_of_dropped (henc : e.encode timestamp codec = .ok (.ok [], next)) :
    e.SameNumbers next := by
  have hplanned := e.sameNumbers_plan
  obtain ⟨p, start, layers, hplan, -, htake⟩ := encode_ok henc
  rw [hplan] at hplanned
  cases layers with
  | nil =>
    cases htake
    exact hplanned
  | cons layer rest =>
    obtain ⟨_, _, _, _, -, -, -, hnil⟩ := take_of_takeLayers htake
    cases hnil

/-- The frames of a picture are those of the layers that the codec answered with. -/
theorem carries_of_encode (hcodec : e.asks.map codec = some (.ok layers))
    (henc : e.encode timestamp codec = .ok (.ok gs, next)) (hsome : gs ≠ []) :
    ∃ start layer rest, e.SameNumbers start ∧ layers = layer :: rest ∧
      (start.entered layer true).SameNumbers next ∧
      List.Forall₂ (fun l g => g.Carries (start.entered layer true) l) layers gs ∧
      gs.Delimited true := by
  have hplanned := e.sameNumbers_plan
  obtain ⟨p, start, answered, hplan, hanswer, htake⟩ := encode_ok henc
  obtain rfl : layers = answered := by simpa [asks, hplan, hanswer] using hcodec.symm
  rw [hplan] at hplanned
  cases layers with
  | nil =>
    cases htake
    exact absurd rfl hsome
  | cons layer rest =>
    obtain ⟨hsame, hall, hdelimited⟩ := carries_of_takeLayers htake
    exact ⟨start, layer, rest, hplanned, rfl, hsame, hall, hdelimited⟩

end Encoder
end LayeredRtp
