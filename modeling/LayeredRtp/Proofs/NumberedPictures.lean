import LayeredRtp.Proofs.FrameNumbers

/-! The pictures of a stream are numbered without a gap, and the marker ends each of them. Pictures
that are dropped or fail before any layer is taken use up no number. -/
namespace LayeredRtp

structure EmittedPicture where
  layers : List CodedLayer
  frames : Picture
deriving DecidableEq, Repr

def idAfter (id : Nat) : Nat → Option Nat
  | 0 => none
  | n + 1 => some ((id + n) % pictureIds)

def baseIndexAfter : Nat → Option Nat
  | 0 => none
  | n + 1 => some (n % 256)

namespace EmittedPicture

def isBase (p : EmittedPicture) : Bool := p.layers.head?.any (·.temporal == 0)

def bases (pictures : List EmittedPicture) : Nat := pictures.countP (·.isBase)

structure Numbered (s : EncoderSettings) (id : Nat) (older : List EmittedPicture)
    (p : EmittedPicture) : Prop where
  emitted : p.frames ≠ []
  made : List.Forall₂ (fun layer g => g.data = layer.data ∧
    g.descriptor.temporal = if 1 < s.mode.temporal then some layer.temporal else none)
    p.layers p.frames
  pictureId : ∀ g ∈ p.frames, g.descriptor.pictureId = (id + older.length) % pictureIds
  delimited : p.frames.Delimited true
  baseIndex : ∀ g ∈ p.frames, g.descriptor.baseIndex =
    if bases (p :: older) = 0 then 0 else (bases (p :: older) - 1) % 256
  tellable : ∀ g ∈ p.frames, g.descriptor.Tellable

end EmittedPicture

def EncodedFrame.markers (g : EncodedFrame) (packets : List Octets) : List Bool :=
  (List.range packets.length).map fun i => g.descriptor.marksEnd (i + 1 == packets.length)

def EncodedFrame.CutInto (g : EncodedFrame) (packets : List Octets) : Prop :=
  ∃ mtu, g.descriptor.headerLength g.descriptor.hasStructure < mtu ∧
    g.descriptor.payloads mtu g.data = .ok packets

namespace EncodedFrame

variable {g : EncodedFrame} {packets : List Octets}

theorem markers_within (h : g.descriptor.endOfPicture = false) (packets : List Octets) :
    g.markers packets = List.replicate packets.length false := by
  simp [markers, PayloadDescriptor.marksEnd, h, List.map_const']

theorem markers_last (h : g.descriptor.endOfPicture = true) (hsome : packets ≠ []) :
    g.markers packets = List.replicate (packets.length - 1) false ++ [true] := by
  obtain ⟨n, hn⟩ := Nat.exists_eq_add_one_of_ne_zero (mt List.length_eq_zero_iff.mp hsome)
  have hbefore : ∀ i ∈ List.range n, (i + 1 == n + 1) = false := by
    intro i hi
    have hlt := List.mem_range.mp hi
    simp only [beq_eq_false_iff_ne]
    omega
  simp only [markers, PayloadDescriptor.marksEnd, h, Bool.and_true, hn, List.range_succ,
    List.map_append, Nat.add_sub_cancel, List.map_congr_left hbefore, List.map_const',
    List.length_range, List.map_cons, List.map_nil, BEq.rfl]

/-- There is at least one packet, since there is room for some of the frame. -/
theorem CutInto.ne_nil (h : g.CutInto packets) (hd : g.descriptor.Tellable) (hdata : g.data ≠ []) :
    packets ≠ [] := by
  obtain ⟨mtu, hroom, hcut⟩ := h
  rw [hd.payloads_some hdata hroom] at hcut
  split at hcut
  · cases hcut
  · cases hcut
    exact List.cons_ne_nil _ _

end EncodedFrame

namespace Picture

def markers (gs : Picture) (cuts : List (List Octets)) : List Bool :=
  (List.zipWith EncodedFrame.markers gs cuts).flatten

theorem Delimited.tail {first : Bool} {g : EncodedFrame} {above : Picture}
    (h : Picture.Delimited first (g :: above)) : Picture.Delimited false above := by
  intro before x after hsplit
  have hx := h (g :: before) x after (by rw [hsplit, List.cons_append])
  simpa using hx

/-- The marker is set on the last packet of a picture, and on no other. -/
theorem Delimited.markers_eq {first : Bool} {gs : Picture} {cuts : List (List Octets)}
    (h : gs.Delimited first) (hne : gs ≠ []) (hd : ∀ g ∈ gs, g.descriptor.Tellable)
    (hdata : ∀ g ∈ gs, g.data ≠ []) (hcuts : List.Forall₂ EncodedFrame.CutInto gs cuts) :
    ∃ n, gs.markers cuts = List.replicate n false ++ [true] := by
  induction hcuts generalizing first with
  | nil => exact absurd rfl hne
  | @cons g packets above cuts hcut hrest ih =>
    obtain ⟨-, hends⟩ := h [] g above rfl
    obtain ⟨htell, hdabove⟩ := List.forall_mem_cons.mp hd
    obtain ⟨hsome, hdataabove⟩ := List.forall_mem_cons.mp hdata
    have hmarkers : Picture.markers (g :: above) (packets :: cuts) =
        g.markers packets ++ Picture.markers above cuts := rfl
    rw [hmarkers]
    cases above with
    | nil =>
      cases hrest
      refine ⟨packets.length - 1, ?_⟩
      rw [EncodedFrame.markers_last hends (hcut.ne_nil htell hsome)]
      exact List.append_nil _
    | cons x above =>
      obtain ⟨n, hn⟩ := ih h.tail (List.cons_ne_nil _ _) hdabove hdataabove
      refine ⟨packets.length + n, ?_⟩
      rw [EncodedFrame.markers_within hends, hn, ← List.append_assoc,
        List.replicate_append_replicate]

end Picture

namespace Encoder

open EmittedPicture (bases)

variable {e next : Encoder} {s : EncoderSettings} {id : Nat} {pictures older : List EmittedPicture}
  {p : EmittedPicture} {layer : CodedLayer} {rest : List CodedLayer}

/-- The encoders that are reached from some settings, with the pictures emitted on the way, the
latest one first. The codec may answer with any layers; what fails, fails before any of them is
taken. -/
inductive Delivered (s : EncoderSettings) : Encoder → List EmittedPicture → Prop
  | new {e : Encoder} : Encoder.new s = .ok e → Delivered s e []
  | setRates {e next : Encoder} {pictures : List EmittedPicture} (r : LayerRates) :
      Delivered s e pictures → e.setRates r = .ok next → Delivered s next pictures
  | requestKey {e : Encoder} {pictures : List EmittedPicture} :
      Delivered s e pictures → Delivered s e.requestKey pictures
  | failed {e next : Encoder} {pictures : List EmittedPicture} {why : LayerError}
      (timestamp : UInt32) (codec : CodecRequest → CodecAnswer) : Delivered s e pictures →
      ¬e.Begins timestamp codec → e.encode timestamp codec = .ok (.error why, next) →
      Delivered s next pictures
  | dropped {e next : Encoder} {pictures : List EmittedPicture} (timestamp : UInt32)
      (codec : CodecRequest → CodecAnswer) : Delivered s e pictures →
      e.encode timestamp codec = .ok (.ok [], next) → Delivered s next pictures
  | emitted {e next : Encoder} {pictures : List EmittedPicture} {layers : List CodedLayer}
      {frames : Picture} (timestamp : UInt32) (codec : CodecRequest → CodecAnswer) :
      Delivered s e pictures → e.asks.map codec = some (.ok layers) →
      e.encode timestamp codec = .ok (.ok frames, next) → frames ≠ [] →
      Delivered s next (⟨layers, frames⟩ :: pictures)

structure Counted (e : Encoder) (s : EncoderSettings) (id : Nat) (pictures : List EmittedPicture) :
    Prop where
  mode : e.mode = s.mode
  bounded : e.range.stop ≤ s.mode.spatial
  firstPictureId : e.firstPictureId = id % pictureIds
  pictureId : e.pictureId = idAfter id pictures.length
  baseIndex : e.baseIndex = baseIndexAfter (bases pictures)

theorem SameNumbers.counted (h : e.SameNumbers next) (hc : e.Counted s id pictures) :
    next.Counted s id pictures where
  mode := h.mode.trans hc.mode
  bounded := h.range ▸ hc.bounded
  firstPictureId := h.firstPictureId.trans hc.firstPictureId
  pictureId := h.pictureId.trans hc.pictureId
  baseIndex := h.baseIndex.trans hc.baseIndex

theorem Counted.setRates (hc : e.Counted s id pictures) {r : LayerRates}
    (h : e.setRates r = .ok next) : next.Counted s id pictures := by
  obtain ⟨range, hrange, rfl⟩ := setRates_eq h
  exact { hc with bounded := hc.mode ▸ (LayerRange.ofRates_layers hrange).2.1 }

/-- The first layer of a picture is counted. -/
theorem Counted.entered (hc : e.Counted s id older) (hp : p.layers = layer :: rest) :
    (e.entered layer true).Counted s id (p :: older) := by
  constructor
  case mode => exact hc.mode
  case bounded => exact hc.bounded
  case firstPictureId => exact hc.firstPictureId
  case pictureId =>
    simp only [Encoder.entered, if_true, beginPicture, countPicture, hc.pictureId,
      hc.firstPictureId, List.length_cons]
    cases older.length with
    | zero => rfl
    | succ n => simp only [idAfter, Nat.mod_add_mod, Nat.add_assoc]
  case baseIndex =>
    have hbases : bases (p :: older) = bases older + if layer.temporal = 0 then 1 else 0 := by
      simp [bases, List.countP_cons, EmittedPicture.isBase, hp]
    simp only [Encoder.entered, if_true, beginPicture, countPicture, hc.baseIndex, hbases]
    by_cases hlowest : layer.temporal = 0
    · simp only [hlowest, if_true]
      cases bases older with
      | zero => rfl
      | succ n => simp only [baseIndexAfter, Nat.mod_add_mod]
    · simp only [hlowest, if_false, Nat.add_zero]

theorem exists_carries {gs : Picture} {layers : List CodedLayer}
    (h : List.Forall₂ (fun l g => g.Carries e l) layers gs) : ∀ g ∈ gs, ∃ l, g.Carries e l := by
  induction h with
  | nil => simp
  | cons hcarries _ ih => exact List.forall_mem_cons.mpr ⟨⟨_, hcarries⟩, ih⟩

/-- The frames carry what the encoder has counted. -/
theorem Counted.numbered (hc : e.Counted s id (p :: older)) (hsome : p.frames ≠ [])
    (hcarries : List.Forall₂ (fun l g => g.Carries e l) p.layers p.frames)
    (hdelimited : p.frames.Delimited true) : p.Numbered s id older := by
  have hall := exists_carries hcarries
  constructor
  case emitted => exact hsome
  case made => exact hcarries.imp fun _ _ h => ⟨h.data, hc.mode ▸ h.temporal⟩
  case pictureId =>
    intro g hg
    obtain ⟨l, hl⟩ := hall g hg
    rw [hl.pictureId, hc.pictureId]
    rfl
  case delimited => exact hdelimited
  case baseIndex =>
    intro g hg
    obtain ⟨l, hl⟩ := hall g hg
    rw [hl.baseIndex, hc.baseIndex]
    cases bases (p :: older) <;> rfl
  case tellable =>
    intro g hg
    obtain ⟨l, hl⟩ := hall g hg
    have hspatial := s.mode.spatial_bounds.2
    have hstop := hc.bounded
    refine ⟨hl.distances, ?_⟩
    rw [hl.spatialLayers, stopLayer, PerLayer.count]
    omega

/-- A picture that is emitted is counted, and its frames carry the numbers. -/
theorem Delivered.numbered (h : Delivered (s.setPictureId id) e pictures) :
    e.Counted s id pictures ∧
      ∀ newer p older, pictures = newer ++ p :: older → p.Numbered s id older := by
  induction h with
  | new hnew =>
    rw [new_eq hnew]
    refine ⟨⟨rfl, Nat.le_refl _, rfl, rfl, rfl⟩, fun newer p older hsplit => ?_⟩
    exact absurd hsplit.symm (List.append_ne_nil_of_right_ne_nil _ (List.cons_ne_nil _ _))
  | setRates r _ hr ih => exact ⟨ih.1.setRates hr, ih.2⟩
  | requestKey _ ih => exact ⟨{ ih.1 with }, ih.2⟩
  | failed timestamp codec _ hnone henc ih =>
    exact ⟨(sameNumbers_of_failed henc hnone).counted ih.1, ih.2⟩
  | dropped timestamp codec _ henc ih => exact ⟨(sameNumbers_of_dropped henc).counted ih.1, ih.2⟩
  | @emitted e next older layers frames timestamp codec _ hcodec henc hsome ih =>
    obtain ⟨start, layer, rest, hstart, hlayers, hsame, hcarries, hdelimited⟩ :=
      carries_of_encode hcodec henc hsome
    have hcounted : (start.entered layer true).Counted s id (⟨layers, frames⟩ :: older) :=
      (hstart.counted ih.1).entered hlayers
    refine ⟨hsame.counted hcounted, fun newer p later hsplit => ?_⟩
    cases newer with
    | nil =>
      obtain ⟨rfl, rfl⟩ := List.cons.inj hsplit
      exact hcounted.numbered hsome hcarries hdelimited
    | cons x newer => exact ih.2 newer p later (List.cons.inj hsplit).2

/-- Whatever the codec makes of the layers, the pictures that are emitted are numbered one after the
other. The frames of a picture can be cut for any size that fits in memory, and where there is room
for some of each, the marker is set on the last packet of the picture alone. -/
theorem pictures_numbered (h : Delivered (s.setPictureId id) e pictures)
    {newer : List EmittedPicture} (hsplit : pictures = newer ++ p :: older) :
    p.Numbered s id older ∧
      (∀ g ∈ p.frames, ∀ mtu ≤ PayloadDescriptor.maxPayload,
        ∃ packets, g.descriptor.payloads mtu g.data = .ok packets) ∧
      ((∀ g ∈ p.frames, g.data ≠ []) → ∀ cuts, List.Forall₂ EncodedFrame.CutInto p.frames cuts →
        ∃ n, p.frames.markers cuts = List.replicate n false ++ [true]) := by
  have hp := h.numbered.2 newer p older hsplit
  refine ⟨hp, fun g hg mtu hmtu => ?_, fun hdata cuts hcuts => ?_⟩
  · exact (hp.tellable g hg).payloads_ok_iff.mpr (.inr hmtu)
  · exact hp.delimited.markers_eq hp.emitted hp.tellable hdata hcuts

/-- The ids wrap, over a picture that failed and one that was dropped. The second picture is not of
the lowest temporal layer, and its lower frame takes two packets. -/
theorem pictures_numbered_wrapped : ∃ (s : EncoderSettings) (e : Encoder)
    (p older : EmittedPicture) (cuts : List (List Octets)),
    Delivered (s.setPictureId 32767) e [p, older] ∧
      older.frames.map (·.descriptor.pictureId) = [32767, 32767] ∧
      p.frames.map (·.descriptor.pictureId) = [0, 0] ∧ p.Numbered s 32767 [older] ∧
      List.Forall₂ EncodedFrame.CutInto p.frames cuts ∧ cuts.map (·.length) = [2, 1] ∧
      p.frames.markers cuts = [false, false, true] ∧
      ∃ n, p.frames.markers cuts = List.replicate n false ++ [true] := by
  let s : EncoderSettings :=
    { width := 64, height := 32, mode := { spatial := 2, temporal := 2 } }
  let lower : List CodedLayer := [⟨0, 0, true, [1]⟩, ⟨1, 0, false, [2]⟩]
  let upper : List CodedLayer := [⟨0, 1, false, [1, 2, 3]⟩, ⟨1, 1, false, [4]⟩]
  let fails : CodecRequest → CodecAnswer := fun _ => .error .noLayers
  let codes (layers : List CodedLayer) : CodecRequest → CodecAnswer := fun _ => .ok layers
  let coded (e : Encoder) (layers : List CodedLayer) : Picture × Encoder :=
    match e.encode 0 (codes layers) with
    | .ok (.ok frames, next) => (frames, next)
    | _ => ([], e)
  let start : Encoder := {
    mode := s.mode, width := 64, height := 32, flexible := true, keyOnDeactivation := false
    firstPictureId := 32767, controller := .ofMode s.mode, range := ⟨0, 2⟩ }
  let begun := start.plan.2
  let first := coded begun lower
  let dropped := coded first.2 []
  let last := coded dropped.2 upper
  let cuts : List (List Octets) :=
    [[[248, 128, 0, 48, 2, 1, 2], [244, 128, 0, 48, 2, 3]], [[253, 128, 0, 51, 2, 4]]]
  have hnew : Encoder.new (s.setPictureId 32767) = .ok start := by decide +kernel
  have hrefused : start.encode 0 fails = .ok (.error .noLayers, begun) := by decide +kernel
  have hfirst : begun.encode 0 (codes lower) = .ok (.ok first.1, first.2) := by decide +kernel
  have hfirstAsked : begun.asks.map (codes lower) = some (.ok lower) := by decide +kernel
  have hdropped : first.2.encode 0 (codes []) = .ok (.ok [], dropped.2) := by decide +kernel
  have hlast : dropped.2.encode 0 (codes upper) = .ok (.ok last.1, last.2) := by decide +kernel
  have hlastAsked : dropped.2.asks.map (codes upper) = some (.ok upper) := by decide +kernel
  have hsome : first.1 ≠ [] ∧ last.1 ≠ [] := by decide +kernel
  have hids : first.1.map (·.descriptor.pictureId) = [32767, 32767] ∧
      last.1.map (·.descriptor.pictureId) = [0, 0] := by decide +kernel
  have hroom : ∀ g ∈ last.1, g.descriptor.headerLength g.descriptor.hasStructure < 7 := by
    decide +kernel
  have hpackets : List.Forall₂ (· = ·)
      (last.1.map fun g => g.descriptor.payloads 7 g.data) (cuts.map .ok) := by
    rw [List.forall₂_eq_eq_eq]
    decide +kernel
  have hdata : ∀ g ∈ last.1, g.data ≠ [] := by decide +kernel
  have hmarkers : Picture.markers last.1 cuts = [false, false, true] := by decide +kernel
  have hcuts : cuts.map (·.length) = [2, 1] := rfl
  -- From here on only what has been evaluated counts, so the encoders are not unfolded again.
  clear_value start cuts last dropped first begun coded
  rw [List.forall₂_map_left_iff, List.forall₂_map_right_iff] at hpackets
  have hfails : ¬start.Begins 0 fails := by
    rintro ⟨_, _, _, _, _, _, _, -, hcodec, -⟩
    cases hcodec
  have hrun : Delivered (s.setPictureId 32767) last.2 [⟨upper, last.1⟩, ⟨lower, first.1⟩] := by
    refine .emitted 0 (codes upper) ?_ hlastAsked hlast hsome.2
    refine .dropped 0 (codes []) ?_ hdropped
    refine .emitted 0 (codes lower) ?_ hfirstAsked hfirst hsome.1
    exact .failed 0 fails (.new hnew) hfails hrefused
  have hcutInto : List.Forall₂ EncodedFrame.CutInto last.1 cuts :=
    ((List.forall₂_and_left _ _).mpr ⟨hroom, hpackets⟩).imp fun _ _ h => ⟨7, h⟩
  obtain ⟨hnumbered, -, hends⟩ := pictures_numbered hrun (List.nil_append _).symm
  exact ⟨s, last.2, ⟨upper, last.1⟩, ⟨lower, first.1⟩, cuts, hrun, hids.1, hids.2, hnumbered,
    hcutInto, hcuts, hmarkers, hends hdata cuts hcutInto⟩

end Encoder
end LayeredRtp
