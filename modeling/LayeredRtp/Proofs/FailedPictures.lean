import LayeredRtp.Proofs.RecoveringEncoders

/-! Pictures that fail because the codec coded a key frame that was not asked for, or none where
one was. The encoder goes on coding after most of them, and is stopped by the next picture exactly
if that reads ahead of the count that the failed picture has set back. -/
namespace LayeredRtp

/-- The coded layers are the requested ones, in their order. Any of them may be key frames. -/
def CodedLayer.Cover (frames : List LayerFrame) (layers : List CodedLayer) : Prop :=
  layers.map (fun l => (l.spatial, l.temporal)) = frames.map fun f => (f.spatial, f.temporal)

theorem CodedLayer.Cover.mem {frames : List LayerFrame} {layers : List CodedLayer}
    (hc : CodedLayer.Cover frames layers) {l : CodedLayer} (hl : l ∈ layers) :
    ∃ f ∈ frames, l.spatial = f.spatial := by
  have hplace : (l.spatial, l.temporal) ∈ frames.map fun f => (f.spatial, f.temporal) :=
    hc ▸ List.mem_map_of_mem hl
  obtain ⟨f, hf, heq⟩ := List.mem_map.mp hplace
  exact ⟨f, hf, (Prod.mk.inj heq).1.symm⟩

namespace Encoder

def CoveredBy (e : Encoder) (codec : CodecRequest → CodecAnswer) : Prop :=
  ∀ p next, e.plan = (.ok p, next) → ∃ layers, codec (next.request p) = .ok layers ∧
    CodedLayer.Cover p.frames layers

variable {start e next : Encoder} {h : List Picture} {tid : Nat} {own : Nat → List Nat}
  {make : Option Nat → Nat → LayerFrame} {sids : List Nat} {p : PicturePlan}
  {done : List LayerFrame} {lower : Picture} {why : LayerError} {timestamp : UInt32}

theorem acceptLayer_count {layer : CodedLayer} {f : LayerFrame} {first endOfPicture : Bool}
    {g : EncodedFrame}
    (h : e.acceptLayer layer f p first endOfPicture timestamp = .ok (g, next)) :
    next.picturesSinceKey = e.picturesSinceKey := by
  obtain ⟨_, _, _, -, -, -, rfl⟩ := acceptLayer_cases h
  rfl

/-- In a key picture that began as one, no layer is refused. -/
theorem takeLayer_key {layer : CodedLayer} {f : LayerFrame} {first endOfPicture : Bool}
    {answer : Except LayerError EncodedFrame}
    (hcount : (e.countPicture layer.isKey first).picturesSinceKey = 0) (hp : p.picture = 0)
    (h : e.takeLayer layer f p first endOfPicture timestamp = .ok (answer, next)) :
    (∃ g, answer = .ok g) ∧ next.picturesSinceKey = 0 := by
  rcases takeLayer_ends h with ⟨-, rfl, hne⟩ | ⟨g, rfl, -, haccept⟩
  · exact absurd (hcount.trans hp.symm) hne
  · refine ⟨⟨g, rfl⟩, (acceptLayer_count haccept).trans ?_⟩
    cases first <;> exact hcount

/-- Taking layers fails at the first of them or at one of the others. -/
theorem takeLayers_failed {layer : CodedLayer} {rest : List CodedLayer} {f : LayerFrame}
    {first : Bool} (hfind : (p.frames.find? fun g => g.spatial == layer.spatial) = some f)
    (hfail : e.takeLayers p timestamp first (layer :: rest) = .ok (.error why, next)) :
    e.takeLayer layer f p first rest.isEmpty timestamp = .ok (.error why, next) ∨
    ∃ g last, e.takeLayer layer f p first rest.isEmpty timestamp = .ok (.ok g, last) ∧
      last.takeLayers p timestamp false rest = .ok (.error why, next) := by
  rcases takeLayers_ends hfail with
    ⟨-, -, hnone⟩ | ⟨f', hf, ⟨why, hwhy, htake⟩ | ⟨g, last, more, htake, hrest, hmore⟩⟩
  · rw [hfind] at hnone
    cases hnone
  · cases hfind.symm.trans hf
    cases hwhy
    exact .inl htake
  · cases hfind.symm.trans hf
    cases more with
    | error refused =>
      cases hmore
      exact .inr ⟨g, last, htake, hrest⟩
    | ok gs => cases hmore

/-- Once the first layer was taken, the failure is that of the others. -/
theorem takeLayers_after {layer : CodedLayer} {rest : List CodedLayer} {f : LayerFrame}
    {first : Bool} {g : EncodedFrame} {last : Encoder}
    (hfind : (p.frames.find? fun g => g.spatial == layer.spatial) = some f)
    (hok : e.takeLayer layer f p first rest.isEmpty timestamp = .ok (.ok g, last))
    (hfail : e.takeLayers p timestamp first (layer :: rest) = .ok (.error why, next)) :
    last.takeLayers p timestamp false rest = .ok (.error why, next) := by
  cases takeLayers_failed hfind hfail with
  | inl htake =>
    rw [hok] at htake
    cases htake
  | inr hlater =>
    obtain ⟨g', last', htake, hrest⟩ := hlater
    rw [hok] at htake
    cases htake
    exact hrest

/-- A layer that makes the count differ from the plan ends the picture, and the count stays. -/
theorem takeLayers_mismatch {layer : CodedLayer} {rest : List CodedLayer} {f : LayerFrame}
    {first : Bool} (hfind : (p.frames.find? fun g => g.spatial == layer.spatial) = some f)
    (hcount : (e.countPicture layer.isKey first).picturesSinceKey ≠ p.picture)
    (hfail : e.takeLayers p timestamp first (layer :: rest) = .ok (.error why, next)) :
    next = e.countPicture layer.isKey first := by
  simp only [Encoder.takeLayers, hfind, Encoder.takeLayer, ne_eq, hcount, not_false_eq_true,
    if_true] at hfail
  cases hfail
  rfl

theorem takeLayers_key {layers : List CodedLayer} (hcount : e.picturesSinceKey = 0)
    (hp : p.picture = 0) (hsort : p.frames.Pairwise fun f g => f.spatial < g.spatial)
    (hcover : ∀ l ∈ layers, ∃ f ∈ p.frames, l.spatial = f.spatial) :
    e.takeLayers p timestamp false layers ≠ .ok (.error why, next) := by
  intro hfail
  induction layers generalizing e with
  | nil => cases hfail
  | cons layer rest ih =>
    obtain ⟨f, hf, hspatial⟩ := hcover layer (by simp)
    have hzero : (e.countPicture layer.isKey false).picturesSinceKey = 0 := by
      simp [countPicture, hcount]
    cases takeLayers_failed (hspatial ▸ find_spatial hsort hf) hfail with
    | inl htake =>
      obtain ⟨⟨g, hg⟩, -⟩ := takeLayer_key hzero hp htake
      cases hg
    | inr hlater =>
      obtain ⟨g, last, htake, hrest⟩ := hlater
      obtain ⟨-, hlast⟩ := takeLayer_key hzero hp htake
      exact ih hlast (fun l hl => hcover l (by simp [hl])) hrest

/-- A key picture fails only if its first layer is no key frame, and it is asked for again. -/
theorem Plans.failed_key (hp : start.Plans h tid own make sids p) (hk : start.keyForced = true)
    {layers : List CodedLayer} (hc : CodedLayer.Cover p.frames layers)
    (hfail : start.takeLayers p timestamp true layers = .ok (.error why, next)) :
    next = { start with picturesSinceKey := start.picturesSinceKey + 1 } := by
  have hpicture := hp.picture_key hk
  cases layers with
  | nil => cases hfail
  | cons layer rest =>
    obtain ⟨f, hf, hspatial⟩ := hc.mem (l := layer) (by simp)
    have hfind := hspatial ▸ find_spatial hp.sorted hf
    cases hkey : layer.isKey with
    | false =>
      have hcount : (start.countPicture layer.isKey true).picturesSinceKey ≠ p.picture := by
        simp [countPicture, hkey, hpicture]
      rw [takeLayers_mismatch hfind hcount hfail, hkey]
      rfl
    | true =>
      have hzero : (start.countPicture layer.isKey true).picturesSinceKey = 0 := by
        simp [countPicture, hkey]
      cases takeLayers_failed hfind hfail with
      | inl htake =>
        obtain ⟨⟨g, hg⟩, -⟩ := takeLayer_key hzero hpicture htake
        cases hg
      | inr hlater =>
        obtain ⟨g, last, htake, hrest⟩ := hlater
        obtain ⟨-, hlast⟩ := takeLayer_key hzero hpicture htake
        have hcover : ∀ l ∈ rest, ∃ f ∈ p.frames, l.spatial = f.spatial :=
          fun l hl => hc.mem (by simp [hl])
        exact absurd hrest (takeLayers_key hlast hpicture hp.sorted hcover)

/-- A key frame above the first layer of another picture sets the count back, once the layers
below it were taken. -/
theorem Taken.failed (hp : start.Plans h tid own make sids p) (hk : start.keyForced = false)
    (ht : start.Taken h p done lower e) (hne : lower ≠ []) {todo : List LayerFrame}
    (hf : p.frames = done ++ todo) {layers : List CodedLayer}
    (hc : CodedLayer.Cover todo layers)
    (hfail : e.takeLayers p timestamp false layers = .ok (.error why, next)) :
    ∃ n gs last, gs ≠ [] ∧ start.Taken h p (p.frames.take n) gs last ∧
      next = { last with picturesSinceKey := 0 } := by
  induction layers generalizing done lower e todo with
  | nil => cases hfail
  | cons layer rest ih =>
    cases todo with
    | nil => cases hc
    | cons f todo =>
      obtain ⟨hplace, hrest⟩ := List.cons.inj hc
      obtain ⟨hspatial, htemporal⟩ := Prod.mk.inj hplace
      have hfind := hspatial ▸ find_spatial hp.sorted (f := f) (by simp [hf])
      have hpicture := hp.picture_delta hk
      cases hkey : layer.isKey with
      | true =>
        have hcount : (e.countPicture layer.isKey false).picturesSinceKey ≠ p.picture := by
          simp [countPicture, hkey, hpicture]
        refine ⟨done.length, lower, e, hne, by simpa [hf] using ht, ?_⟩
        rw [takeLayers_mismatch hfind hcount hfail, hkey]
        rfl
      | false =>
        have hempty : lower.isEmpty = false := List.isEmpty_eq_false_iff.mpr hne
        obtain ⟨g, last, hok, ht', -⟩ := ht.takeLayer hp hf hspatial htemporal
          (by simp [hkey, hempty]) hempty.symm (ht.enters hkey) rest.isEmpty timestamp
        exact ih ht' (by simp) (by simp [hf]) hrest (takeLayers_after hfind hok hfail)

/-- A picture other than a key picture fails only if some layer of it is a key frame. The count
starts again then, with the layers below it taken or none. -/
theorem Plans.failed_delta (hp : start.Plans h tid own make sids p)
    (hk : start.keyForced = false) {layers : List CodedLayer}
    (hc : CodedLayer.Cover p.frames layers)
    (hfail : start.takeLayers p timestamp true layers = .ok (.error why, next)) :
    next = { start with picturesSinceKey := 0 } ∨
    ∃ n gs last, gs ≠ [] ∧ start.Taken h p (p.frames.take n) gs last ∧
      next = { last with picturesSinceKey := 0 } := by
  have hpicture := hp.picture_delta hk
  cases layers with
  | nil => cases hfail
  | cons layer rest =>
    cases hf : p.frames with
    | nil =>
      rw [hf] at hc
      cases hc
    | cons f todo =>
      rw [hf] at hc
      obtain ⟨hplace, hrest⟩ := List.cons.inj hc
      obtain ⟨hspatial, htemporal⟩ := Prod.mk.inj hplace
      have hfind := hspatial ▸ find_spatial hp.sorted (f := f) (by simp [hf])
      cases hkey : layer.isKey with
      | true =>
        left
        have hcount : (start.countPicture layer.isKey true).picturesSinceKey ≠ p.picture := by
          simp [countPicture, hkey, hpicture]
        rw [takeLayers_mismatch hfind hcount hfail, hkey]
        rfl
      | false =>
        right
        obtain ⟨g, last, hok, ht, -⟩ := (hp.begun layer.temporal).takeLayer hp
          (hf : p.frames = [] ++ f :: todo) hspatial htemporal (by simp [hkey, hk]) rfl
          (hp.enters (hkey.trans hk.symm)) rest.isEmpty timestamp
        rw [List.isEmpty_nil] at hok
        exact hf ▸ ht.failed hp hk (by simp) hf hrest (takeLayers_after hfind hok hfail)

/-- What a picture leaves that failed over its key frames: an encoder that will code a key picture,
or one that was sound after the layers it took and has only its count set back. -/
theorem Sound.failed (hs : e.Sound h) (hst : e.Staged h) (hg : e.controller.targets.Whole)
    {codec : CodecRequest → CodecAnswer} (hcodec : e.CoveredBy codec)
    (hfail : e.encode timestamp codec = .ok (.error why, next)) :
    (next.keyForced = true ∧ next.Sound [] ∧ next.controller.targets.Whole) ∨
    ∃ (last : Encoder) (older : List Picture), last.Sound older ∧ last.Staged older ∧
      last.controller.targets.Whole ∧
      last.keyForced = false ∧ last.controller.last ≠ .idle ∧
      next = { last with picturesSinceKey := 0 } := by
  obtain ⟨p, start, hplan⟩ := hs.plan_whole hg
  obtain ⟨hpre, tid, own, make, sids, hp⟩ := hs.plans hplan
  have hstages := plan_stages hst.controller hs.layered
  have hstaged := hstages.staged_next hst
  rw [hplan] at hstages hstaged
  obtain ⟨place, hx⟩ := hstages.expects p rfl
  obtain ⟨layers, hlayers, hcover⟩ := hcodec p start hplan
  have htake : start.takeLayers p timestamp true layers = .ok (.error why, next) := by
    simpa only [encode, hplan, hlayers] using hfail
  have hwhole : start.controller.targets.Whole := hpre.targets ▸ hg
  cases hk : start.keyForced with
  | true =>
    left
    rw [hp.failed_key hk hcover htake]
    exact ⟨hk, hp.prepares.sound.restart hk (hp.prepares.started hk) _, hwhole⟩
  | false =>
    right
    have hgoing := hstages.going p rfl hk
    rcases hp.failed_delta hk hcover htake with rfl | ⟨n, gs, last, hne, ht, rfl⟩
    · exact ⟨start, h, hp.prepares.sound, hstaged, hwhole, hk, hgoing, rfl⟩
    · have hlast : last.controller.last ≠ .idle := by
        rcases ht.last_cases hx with ⟨-, heq⟩ | heq
        · exact heq ▸ hgoing
        · exact heq ▸ hx.placed
      refine ⟨last, gs :: h, ?_, ht.staged_next hp hstaged hx, ht.kept.targets ▸ hwhole, ?_,
        hlast, rfl⟩
      · exact ht.sound hp hne fun _ hforced => absurd (hk.symm.trans hforced) (by simp)
      · simp [ht.forced, hk]

/-- With all layers sent, a picture may fail only over its key frames. The encoder keeps coding
after that unless the next picture reads ahead, and if it does, that picture stops the encoder for
good. -/
theorem Reached.keepsCoding_iff {s : EncoderSettings} {id : Nat}
    (hreached : Reached (s.setPictureId id) e) (hall : e.controller.targets.Whole)
    {codec : CodecRequest → CodecAnswer}
    (hcodec : e.CoveredBy codec) (hfail : e.encode timestamp codec = .ok (.error why, next)) :
    (next.KeepsCoding ↔ ¬next.ReadsAhead) ∧
    (next.ReadsAhead → ∀ timestamp codec, ∃ why, next.encode timestamp codec = .error why) := by
  refine ⟨⟨fun hkeeps hr => hr.not_keepsCoding hkeeps, fun hnot => ?_⟩, fun hr => hr.stops⟩
  obtain ⟨h, hsound, hstaged⟩ := hreached.staged
  rcases hsound.failed hstaged hall hcodec hfail with
    ⟨-, hsound, hwhole⟩ | ⟨last, older, hsound, hstaged, hwhole, hk, hlast, rfl⟩
  · exact hsound.keepsCoding hwhole
  · exact hsound.recovers hstaged hwhole hk hlast hnot

/-- A way to see what a codec answers, where the plan is known. -/
theorem coveredBy_of_plan {codec : CodecRequest → CodecAnswer} {layers : List CodedLayer}
    (hplan : e.plan = (.ok p, next)) (hlayers : codec (next.request p) = .ok layers)
    (hcover : CodedLayer.Cover p.frames layers) : e.CoveredBy codec := by
  intro p' next' hplan'
  rw [hplan] at hplan'
  cases hplan'
  exact ⟨layers, hlayers, hcover⟩

/-- The first picture of two layers fails without a key frame, and a key picture is coded next. -/
theorem keepsCoding_iff_first : ∃ (s : EncoderSettings) (e next : Encoder) (why : LayerError)
    (codec : CodecRequest → CodecAnswer), Reached (s.setPictureId 7) e ∧
    e.controller.targets.Whole ∧ e.CoveredBy codec ∧
    e.encode 0 codec = .ok (.error why, next) ∧ ¬next.ReadsAhead ∧
    (next.KeepsCoding ↔ ¬next.ReadsAhead) ∧
    (next.ReadsAhead → ∀ timestamp codec, ∃ why, next.encode timestamp codec = .error why) := by
  let s : EncoderSettings :=
    { width := 320, height := 180, mode := { spatial := 2, temporal := 1 } }
  let codes : CodecRequest → CodecAnswer := fun _ => .ok [⟨0, 0, false, [1]⟩, ⟨1, 0, false, [2]⟩]
  obtain ⟨e, next, why, hreached, hall, hcodec, hfail, hk⟩ : ∃ e next why,
      Reached (s.setPictureId 7) e ∧ e.controller.targets.Whole ∧
      e.CoveredBy codes ∧ e.encode 0 codes = .ok (.error why, next) ∧ next.keyForced = true := by
    refine ⟨_, _, _, .new rfl, ?_, coveredBy_of_plan rfl rfl rfl, rfl, rfl⟩
    unfold LayerGrid.Whole
    decide
  refine ⟨s, e, next, why, codes, hreached, hall, hcodec, hfail, fun hr => ?_,
    hreached.keepsCoding_iff hall hcodec hfail⟩
  rw [hr.1] at hk
  cases hk

/-- The third picture of one layer comes as a key frame that was not asked for. The encoder counts
the fourth as the first after a key picture, and its reference to the second stops it. -/
theorem stops_after_failure : ∃ (s : EncoderSettings) (e next : Encoder) (why : LayerError)
    (codec delivers : CodecRequest → CodecAnswer),
    Reached (s.setPictureId 7) e ∧ e.controller.targets.Whole ∧ e.CoveredBy codec ∧
    e.encode 0 codec = .ok (.error why, next) ∧ next.DeliveredBy delivers ∧
    next.encode 0 delivers = .error (.notOlder 0 0 1 1) ∧ ¬next.KeepsCoding := by
  let s : EncoderSettings :=
    { width := 320, height := 180, mode := { spatial := 1, temporal := 1 } }
  let codes (isKey : Bool) : CodecRequest → CodecAnswer := fun _ => .ok [⟨0, 0, isKey, [1]⟩]
  obtain ⟨e, next, why, hreached, hall, hcodec, hfail, last, hplan⟩ : ∃ e next why,
      Reached (s.setPictureId 7) e ∧ e.controller.targets.Whole ∧ e.CoveredBy (codes true) ∧
      e.encode 0 (codes true) = .ok (.error why, next) ∧
      ∃ last, next.plan = (.error (.breach (.notOlder 0 0 1 1)), last) := by
    refine ⟨_, _, _, .encode 0 (codes false) (.encode 0 (codes true) (.new rfl)
      (obeyedBy_of_plan rfl rfl ?_ rfl).answered rfl) (obeyedBy_of_plan rfl rfl ?_ rfl).answered rfl, ?_,
      coveredBy_of_plan rfl rfl rfl, rfl, _, rfl⟩
    · exact ⟨rfl, rfl, rfl, trivial⟩
    · exact ⟨rfl, rfl, rfl, trivial⟩
    · unfold LayerGrid.Whole
      decide
  have hdelivers : next.DeliveredBy (codes false) := by
    intro p start hok
    rw [hplan] at hok
    cases hok
  have hbreach : next.encode 0 (codes false) = .error (.notOlder 0 0 1 1) := by
    simp [Encoder.encode, hplan]
  refine ⟨s, e, next, why, codes true, codes false, hreached, hall, hcodec, hfail, hdelivers,
    hbreach, fun hkeeps => ?_⟩
  obtain ⟨frames, final, henc⟩ := hkeeps next (.refl next) 0 _ hdelivers
  rw [hbreach] at henc
  cases henc

end Encoder
end LayeredRtp
