import LayeredRtp.Proofs.EmittedPictures

/-! Runs of an encoder. With rates that leave no gap between the spatial layers of a temporal
layer, every descriptor tells the truth. With other rates an encoder can be stopped for good, and
it is stopped exactly where the next picture would skip a spatial layer. -/
namespace LayeredRtp

def LayerGrid.Connected (g : LayerGrid) : Prop :=
  ∀ tid low mid high, low < mid → mid < high → g.isActive low tid = true →
    g.isActive high tid = true → g.isActive mid tid = true

theorem LayerGrid.connected_setRates {g : LayerGrid} {m : ScalabilityMode} {r : LayerRates}
    (hs : g.spatial = m.spatial) (ht : g.temporal = m.temporal) (hr : r.Gapless m) :
    (g.setRates r).Connected := by
  have hactive (s t : Nat) := isActive_setRates (g := g) (hs ▸ m.spatial_bounds.2)
    (ht ▸ m.temporal_bounds.2) r s t
  intro tid low mid high hlm hmh hlow hhigh
  simp only [hactive, Bool.and_eq_true, decide_eq_true_eq] at hlow hhigh ⊢
  obtain ⟨⟨hlt, htid⟩, hreach⟩ := hhigh
  exact ⟨⟨by omega, htid⟩,
    hr tid (ht ▸ htid) low mid high hlm hmh (hs ▸ hlt) hlow.2 hreach⟩

namespace Encoder

variable {s : EncoderSettings} {id : Nat} {admits : LayerRates → Prop} {e : Encoder}
  {h : List Picture}

theorem Run.mode_eq (hrun : Run (s.setPictureId id) admits e h) : e.mode = s.mode := by
  induction hrun with
  | @new e hnew => rw [new_eq hnew]; rfl
  | @setRates e next h r hrun hr hset ih =>
    obtain ⟨range, -, rfl⟩ := setRates_eq hset
    exact ih
  | requestKey _ ih => exact ih
  | encode timestamp codec hrun hcodec henc ih =>
    exact (hrun.sound.encoded hcodec henc).1.mode.trans ih
  | refused timestamp codec hrun hcodec henc ih =>
    exact (hrun.sound.encoded hcodec henc).1.mode.trans ih

/-- Without gaps in the rates, there are none in what is sent. -/
theorem Run.connected (hrun : Run (s.setPictureId id) (·.Gapless s.mode) e h) :
    e.controller.targets.Connected := by
  induction hrun with
  | @new e hnew =>
    rw [new_eq hnew, Controller.targets_ofMode]
    intro tid low mid high hlm hmh hlow hhigh
    simp_all [LayerGrid.isActive]
    omega
  | @setRates e next h r hrun hr hset ih =>
    have hmode := hrun.mode_eq
    have hspatial := hrun.sound.spatial.trans (congrArg _ hmode)
    have htemporal := hrun.sound.temporal.trans (congrArg _ hmode)
    obtain ⟨range, -, rfl⟩ := setRates_eq hset
    simpa using LayerGrid.connected_setRates hspatial htemporal hr
  | requestKey _ ih => exact ih
  | encode timestamp codec hrun hcodec henc ih =>
    rw [(hrun.sound.encoded hcodec henc).1.targets]
    exact ih
  | refused timestamp codec hrun hcodec henc ih =>
    rw [(hrun.sound.encoded hcodec henc).1.targets]
    exact ih

theorem Prepares.neighbours {tid : Nat} {own : Nat → List Nat}
    {make : Option Nat → Nat → LayerFrame} {sids : List Nat}
    (hp : e.Prepares h tid own make sids) (hg : e.controller.targets.Connected) :
    Neighbours sids := by
  have hsound := hp.sound
  -- Between two chosen layers all are sent, and they are ready as the upper one is.
  refine neighbours_of_gapless hp.sorted fun a m b ha hb ham hmb => ?_
  obtain ⟨haa, -⟩ := (hp.mem a).mp ha
  obtain ⟨hab, hrb⟩ := (hp.mem b).mp hb
  refine (hp.mem m).mpr ⟨hg tid a m b ham hmb haa hab, fun hfull hne => ?_⟩
  have hk : e.keyForced = false := by
    cases hk : e.keyForced with
    | false => rfl
    | true => exact absurd (hp.lowest hk) hne
  have hfirst := ((hsound.range a).mp (hsound.layered a tid haa)).1
  exact hsound.closed hk b (hp.lt b hb).2 (hrb hfull hne) m (by omega) hmb

theorem Sound.not_skips (hs : e.Sound h) (hg : e.controller.targets.Connected) :
    ¬e.Skips h := by
  rintro ⟨-, hgap, -⟩
  rcases hs.planOnce_cases with
    ⟨hnone, -⟩ | ⟨next, tid, own, make, sids, first, hp, hpre, hframes, -⟩
  · rw [hnone] at hgap
    exact hgap trivial
  · rw [hframes, LayerFrame.linked_spatials hp.makes.spatial] at hgap
    exact hgap (hp.neighbours (hpre.targets ▸ hg))

/-- As long as the rates leave no gap in any temporal layer, coding a picture fails only if
nothing is sent, and every frame that is emitted tells the truth about what the codec was told to
predict it from. -/
theorem Run.descriptors_truthful (hrun : Run (s.setPictureId id) (·.Gapless s.mode) e h)
    {codec : CodecRequest → CodecAnswer} (hcodec : e.ObeyedBy codec) (timestamp : UInt32) :
    (∃ next, e.encode timestamp codec = .ok (.error .noLayers, next)) ∨
    ∃ p start frames next, e.plan = (.ok p, start) ∧
      e.encode timestamp codec = .ok (.ok frames, next) ∧
      ∀ below f above, frames = below ++ f :: above →
        f.Uses p.config ∧ Truthful h below f above := by
  rcases hrun.sound.encode_cases (hrun.sound.not_skips hrun.connected) hcodec timestamp with
    ⟨next, hnone, -⟩ | ⟨p, start, frames, next, hplan, hok, -, -, huses, htruth⟩
  · exact .inl ⟨next, hnone⟩
  · refine .inr ⟨p, start, frames, next, hplan, hok, fun below f above hframes => ?_⟩
    exact ⟨huses f (by simp [hframes]), htruth below f above hframes⟩

/-- A way to see that a codec does what it is asked, where the plan is known. -/
theorem obeyedBy_of_plan {next : Encoder} {p : PicturePlan} {codec : CodecRequest → CodecAnswer}
    {layers : List CodedLayer} (hplan : e.plan = (.ok p, next))
    (hlayers : codec (next.request p) = .ok layers)
    (hanswers : CodedLayer.Answers next.keyForced p.frames layers)
    (hall : layers.length = p.frames.length) : e.ObeyedBy codec := by
  intro p' next' hplan'
  rw [hplan] at hplan'
  cases hplan'
  exact ⟨layers, hlayers, hanswers, fun _ => .inr hall⟩

/-- In the second picture of two layers, each is predicted from its own frame one picture ago. -/
theorem descriptors_truthful_second : ∃ (s : EncoderSettings) (e : Encoder) (h : List Picture)
    (codec : CodecRequest → CodecAnswer),
    Run (s.setPictureId 7) (·.Gapless s.mode) e h ∧ e.ObeyedBy codec ∧ h.length = 1 ∧
    (e.encode 0 codec).toOption.map (fun x => x.1.toOption.map (·.map (·.descriptor.distances))) =
      some (some [[1], [1]]) ∧
    ((∃ next, e.encode 0 codec = .ok (.error .noLayers, next)) ∨
      ∃ p start frames next, e.plan = (.ok p, start) ∧
        e.encode 0 codec = .ok (.ok frames, next) ∧
        ∀ below f above, frames = below ++ f :: above →
          f.Uses p.config ∧ Truthful h below f above) := by
  let s : EncoderSettings :=
    { width := 320, height := 180, mode := { spatial := 2, temporal := 1 } }
  let codes (isKey : Bool) : CodecRequest → CodecAnswer :=
    fun _ => .ok [⟨0, 0, isKey, [1]⟩, ⟨1, 0, false, [2]⟩]
  obtain ⟨e, h, hrun, hcodec, hlength, hdistances⟩ : ∃ e h,
      Run (s.setPictureId 7) (·.Gapless s.mode) e h ∧ e.ObeyedBy (codes false) ∧ h.length = 1 ∧
      (e.encode 0 (codes false)).toOption.map
          (fun x => x.1.toOption.map (·.map (·.descriptor.distances))) =
        some (some [[1], [1]]) := by
    refine ⟨_, _, .encode 0 (codes true) (.new rfl) (obeyedBy_of_plan rfl rfl ?_ rfl) rfl,
      obeyedBy_of_plan rfl rfl ?_ rfl, rfl, rfl⟩
    · exact ⟨rfl, rfl, rfl, rfl, rfl, rfl, trivial⟩
    · exact ⟨rfl, rfl, rfl, rfl, rfl, rfl, trivial⟩
  exact ⟨s, e, h, codes false, hrun, hcodec, hlength, hdistances,
    hrun.descriptors_truthful hcodec 0⟩

/-- Whatever rates are set, coding a picture fails for good exactly if the picture would skip a
spatial layer. Otherwise it fails only if nothing is sent. -/
theorem Run.stops_iff_skips (hrun : Run (s.setPictureId id) (fun _ => True) e h)
    {codec : CodecRequest → CodecAnswer} (hcodec : e.ObeyedBy codec) (timestamp : UInt32) :
    ((∃ b, e.encode timestamp codec = .error b) ↔ e.Skips h) ∧
    (¬e.Skips h → (∃ next, e.encode timestamp codec = .ok (.error .noLayers, next)) ∨
      ∃ frames next, e.encode timestamp codec = .ok (.ok frames, next)) := by
  have hsound := hrun.sound
  have hother : ¬e.Skips h →
      (∃ next, e.encode timestamp codec = .ok (.error .noLayers, next)) ∨
      ∃ frames next, e.encode timestamp codec = .ok (.ok frames, next) := by
    intro hskip
    rcases hsound.encode_cases hskip hcodec timestamp with
      ⟨next, hnone, -⟩ | ⟨-, -, frames, next, -, hok, -⟩
    · exact .inl ⟨next, hnone⟩
    · exact .inr ⟨frames, next, hok⟩
  refine ⟨⟨fun ⟨b, hb⟩ => ?_, fun hskip => ?_⟩, hother⟩
  · by_cases hskip : e.Skips h
    · exact hskip
    · rcases hother hskip with ⟨next, hnone⟩ | ⟨frames, next, hok⟩
      · rw [hb] at hnone
        cases hnone
      · rw [hb] at hok
        cases hok
  · obtain ⟨next, hbreach⟩ := hsound.plan_skips hskip
    exact ⟨.notLayerBelow, by simp [Encoder.encode, hbreach]⟩

def gappedRates : LayerRates :=
  ((((LayerRates.set {} 0 0 ⟨1000⟩).set 0 1 ⟨1000⟩).set 1 0 ⟨1000⟩).set 2 0 ⟨1000⟩).set 2 1 ⟨1000⟩

/-- The first picture is a key picture, which skips no layer with these rates either. -/
theorem stops_iff_skips_first : ∃ (s : EncoderSettings) (e : Encoder)
    (codec : CodecRequest → CodecAnswer),
    Run (s.setPictureId 7) (fun _ => True) e [] ∧ e.ObeyedBy codec ∧
    (e.encode 0 codec).isOk = true ∧ ((∃ b, e.encode 0 codec = .error b) ↔ e.Skips []) ∧
    (¬e.Skips [] → (∃ next, e.encode 0 codec = .ok (.error .noLayers, next)) ∨
      ∃ frames next, e.encode 0 codec = .ok (.ok frames, next)) := by
  let s : EncoderSettings :=
    { width := 320, height := 180, mode := { spatial := 3, temporal := 2 } }
  let codes : CodecRequest → CodecAnswer :=
    fun _ => .ok [⟨0, 0, true, [1]⟩, ⟨1, 0, false, [2]⟩, ⟨2, 0, false, [3]⟩]
  obtain ⟨e, hrun, hcodec, hok⟩ : ∃ e, Run (s.setPictureId 7) (fun _ => True) e [] ∧
      e.ObeyedBy codes ∧ (e.encode 0 codes).isOk = true := by
    refine ⟨_, .setRates gappedRates (.new rfl) trivial rfl, obeyedBy_of_plan rfl rfl ?_ rfl, rfl⟩
    exact ⟨rfl, rfl, rfl, rfl, rfl, rfl, rfl, rfl, rfl, trivial⟩
  exact ⟨s, e, codes, hrun, hcodec, hok, hrun.stops_iff_skips hcodec 0⟩

/-- An accepted allocation that stops the encoder at the second picture. -/
theorem stops_with_gap : ∃ (s : EncoderSettings) (e : Encoder) (h : List Picture)
    (codec : CodecRequest → CodecAnswer),
    Run (s.setPictureId 7) (fun _ => True) e h ∧ e.ObeyedBy codec ∧
      e.encode 0 codec = .error .notLayerBelow := by
  let s : EncoderSettings :=
    { width := 320, height := 180, mode := { spatial := 3, temporal := 2 } }
  let codes : CodecRequest → CodecAnswer :=
    fun _ => .ok [⟨0, 0, true, [1]⟩, ⟨1, 0, false, [2]⟩, ⟨2, 0, false, [3]⟩]
  refine ⟨s, _, _, codes, .encode 0 codes (.setRates gappedRates (.new rfl) trivial rfl)
    (obeyedBy_of_plan rfl rfl ?_ rfl) rfl, fun p next hplan => ?_, rfl⟩
  · exact ⟨rfl, rfl, rfl, rfl, rfl, rfl, rfl, rfl, rfl, trivial⟩
  · cases hplan

end Encoder
end LayeredRtp
