import LayeredRtp.Proofs.PreparedPictures

/-! Taking the coded layers of a picture, one after the other. What each frame tells of its
sources is true of the frames taken before it and of the earlier pictures. -/
namespace LayeredRtp

structure Told (older : List Picture) (picture : Nat) (below : Picture) (f : EncodedFrame) :
    Prop where
  few : f.descriptor.distances.length ≤ 3
  distinct : f.descriptor.distances.Nodup
  bounded : ∀ d ∈ f.descriptor.distances, 1 ≤ d ∧ d ≤ ReferenceBuffers.maxDistance ∧ d ≤ picture
  exact : ∀ d, d ∈ f.descriptor.distances ↔
    0 < d ∧ ∃ b ∈ f.reads, ∃ g, Picture.holder b (below :: older) = some (d, g)
  grounded : ∀ b ∈ f.reads, ∃ d g, Picture.holder b (below :: older) = some (d, g) ∧
    g.report.spatial ≤ f.report.spatial ∧ g.report.temporal ≤ f.report.temporal ∧
    (d = 0 → g.report.spatial + 1 = f.report.spatial)
  fromEarlier : f.descriptor.fromEarlier = true ↔ f.descriptor.distances ≠ []
  fromBelow : f.descriptor.fromBelow = true ↔
    ∃ b ∈ f.reads, ∃ g, Picture.holder b (below :: older) = some (0, g)
  upSwitch : f.descriptor.upSwitch = true ↔ ∀ b ∈ f.reads, ∀ d g,
    Picture.holder b (below :: older) = some (d, g) → 0 < d →
      f.report.temporal = 0 ∨ g.report.temporal < f.report.temporal
  unused : ∀ l ∈ below, l.descriptor.notForAbove = true → ∀ b ∈ f.reads, b ∉ l.writes

namespace Encoder

structure Codes (start : Encoder) (l : LayerFrame) (g : EncodedFrame) : Prop where
  spatial : g.report.spatial = l.spatial
  temporal : g.report.temporal = l.temporal
  buffers : g.report.buffers = l.buffers
  notForAbove : g.descriptor.notForAbove = (!start.links || l.spatial + 1 == start.mode.spatial)

theorem Codes.reads {start : Encoder} {l : LayerFrame} {g : EncodedFrame} (h : start.Codes l g) :
    g.reads = l.references := by
  rw [EncodedFrame.reads, h.buffers]
  rfl

theorem Codes.writes {start : Encoder} {l : LayerFrame} {g : EncodedFrame} (h : start.Codes l g) :
    g.writes = l.updates := by
  rw [EncodedFrame.writes, h.buffers]
  rfl

structure Taken (start : Encoder) (h : List Picture) (p : PicturePlan) (done : List LayerFrame)
    (lower : Picture) (e : Encoder) : Prop where
  planned : ∀ l ∈ done, l ∈ p.frames
  coded : ∀ l ∈ done, ∃ g ∈ lower, start.Codes l g
  source : ∀ g ∈ lower, ∃ l ∈ done, start.Codes l g
  tracks : e.tracker.Tracks p.picture (lower :: h)
  number : e.picturesSinceKey = p.picture
  forced : e.keyForced = (lower.isEmpty && start.keyForced)
  mode : e.mode = start.mode
  range : e.range = start.range
  firstId : e.firstPictureId = start.firstPictureId
  kept : e.controller.Follows start.controller
  base : ∀ s < 3, e.controller.baseReady s = true ↔ start.controller.baseReady s = true ∨
    start.controller.isFull = true ∧ ∃ l ∈ done, l.temporal = 0 ∧ l.spatial = s
  middle : ∀ s < 3, e.controller.middleReady s = true → start.controller.middleReady s = true ∨
    ∃ l ∈ done, l.temporal = 1 ∧ l.spatial = s
  last : e.controller.last =
    (done.getLast?.map fun l => TemporalPhase.ofTag l.tag).getD start.controller.last
  id : ∃ cur, e.pictureId = some cur ∧ cur < pictureIds ∧
    (∀ old, start.pictureId = some old → cur = (old + 1) % pictureIds) ∧
    ∀ g ∈ lower, g.descriptor.pictureId = cur
  keys : start.keyForced = false → ∀ g ∈ lower, g.isKey = false

structure Leads (start : Encoder) (h : List Picture) (picture : Nat) (lower : Picture)
    (f : LayerFrame) (b d : Nat) (g : EncodedFrame) : Prop where
  holder : Picture.holder b (lower :: h) = some (d, g)
  bound : b < 8
  near : d ≤ picture
  bounded : d ≤ ReferenceBuffers.maxDistance
  temporal : g.report.temporal ≤ f.temporal
  own : 0 < d → g.report.spatial = f.spatial
  below : d = 0 → start.links = true ∧ lower ≠ [] ∧ g.report.spatial + 1 = f.spatial
  unused : ∀ l ∈ lower, l.descriptor.notForAbove = true → b ∉ l.writes

section
variable {start e : Encoder} {h : List Picture} {tid : Nat} {own : Nat → List Nat}
  {make : Option Nat → Nat → LayerFrame} {sids : List Nat} {p : PicturePlan}
  {done : List LayerFrame} {lower : Picture}

theorem Plans.frame (hp : start.Plans h tid own make sids p) {f : LayerFrame}
    (hf : f ∈ p.frames) : f.spatial < start.mode.spatial ∧ f.spatial < 3 ∧ f.temporal = tid ∧
      ∀ b ∈ f.updates, b = start.controller.targets.buffer f.spatial tid := by
  obtain ⟨hin, ht, -, hu⟩ := hp.prepares.frame f (hp.frames ▸ hf)
  obtain ⟨hlt, hthree⟩ := hp.prepares.lt _ hin
  exact ⟨hp.prepares.sound.spatial ▸ hlt, hthree, ht, hu⟩

theorem Taken.leads (hp : start.Plans h tid own make sids p)
    (ht : start.Taken h p done lower e) {f : LayerFrame} (hf : f ∈ p.frames) {b : Nat}
    (hb : start.Usable h done f b) : ∃ d g, start.Leads h p.picture lower f b d g := by
  obtain ⟨hspatial, -, htid, -⟩ := hp.frame hf
  rcases hb with ⟨hlt, hnot, hk, d, g, hd, hle, hfar, hg, htemp⟩ | ⟨hl, ⟨l, hl', hbl⟩, hall⟩
  · have hfree : ∀ x ∈ lower, b ∉ x.writes := by
      intro x hx
      obtain ⟨l, hl, hc⟩ := ht.source x hx
      rw [hc.writes]
      exact hnot l hl
    have hpicture : p.picture = start.picturesSinceKey + 1 := by
      simp [hp.picture, nextPicture, hk]
    refine ⟨d + 1, g, ?_, hlt, by omega, hfar, htemp, fun _ => hg, by simp,
      fun x hx _ => hfree x hx⟩
    rw [Picture.holder_of_not_stored h hfree, Picture.holder_begin, hd]
    rfl
  · obtain ⟨x, hx, hcx⟩ := ht.coded l hl'
    obtain ⟨g, hg, hbg, hh⟩ := Picture.holder_of_stored h ⟨x, hx, hcx.writes ▸ hbl⟩
    obtain ⟨l', hdone, hc⟩ := ht.source g hg
    obtain ⟨-, -, htid', hu⟩ := hp.frame (ht.planned l' hdone)
    rw [hc.writes] at hbg
    have hplace := hall l' hdone hbg
    have hb8 : b < 8 := by
      rw [hu b hbg]
      have hlt' := (hp.frame (ht.planned l' hdone)).1
      exact hp.prepares.buffer_lt (hp.prepares.sound.spatial ▸ hlt')
    refine ⟨0, g, hh, hb8, by omega, by omega,
      Nat.le_of_eq (hc.temporal.trans (htid'.trans htid.symm)), by simp,
      fun _ => ⟨hl, List.ne_nil_of_mem hg, by rw [hc.spatial, hplace]⟩, fun y hy hn hw => ?_⟩
    obtain ⟨l'', hdone', hc'⟩ := ht.source y hy
    have := hall l'' hdone' (hc'.writes ▸ hw)
    rw [hc'.notForAbove, hl] at hn
    simp only [Bool.not_true, Bool.false_or, beq_iff_eq] at hn
    omega

/-- What the tracker says of a reference is what the pictures say. -/
theorem Taken.slot (ht : start.Taken h p done lower e) {f : LayerFrame} {b d : Nat}
    {g : EncodedFrame} (hl : start.Leads h p.picture lower f b d g) :
    ∃ s, e.tracker.slot b = some s ∧ s.spatial = g.report.spatial ∧
      s.temporal = g.report.temporal ∧ s.picture + d = p.picture := by
  obtain ⟨s, hs, hspatial, htemporal, hpicture⟩ := ht.tracks b hl.bound _ hl.holder
  exact ⟨s, hs, hspatial.symm, htemporal.symm, hpicture hl.near⟩

theorem Taken.tellable (ht : start.Taken h p done lower e) {f : LayerFrame} {b d : Nat}
    {g : EncodedFrame} {s : FrameOrigin} (hl : start.Leads h p.picture lower f b d g)
    (hs : e.tracker.slot b = some s) : ReferenceBuffers.Tellable f p.picture
      (!lower.isEmpty && start.links) e.mode.prediction s := by
  obtain ⟨s', hs', hspatial, htemporal, hpicture⟩ := ht.slot hl
  obtain rfl : s = s' := Option.some.inj (hs.symm.trans hs')
  refine ⟨by omega, fun heq => ?_, fun hlt => ⟨?_, ?_⟩⟩
  · obtain ⟨hlinks, hne, hbelow⟩ := hl.below (by omega)
    exact ⟨by simp [hlinks, hne], hspatial ▸ hbelow⟩
  · exact checkOlder_ok (hspatial.trans (hl.own (by omega))) (htemporal ▸ hl.temporal)
  · have := hl.bounded
    omega

/-- The distances of a frame are those to the pictures it was predicted from. -/
theorem Taken.info_ok (hp : start.Plans h tid own make sids p)
    (ht : start.Taken h p done lower e) {f : LayerFrame} (hf : f ∈ p.frames)
    (hl : ∀ b ∈ f.references, ∃ d g, start.Leads h p.picture lower f b d g) :
    ∃ i, e.tracker.info f p.config p.picture (!lower.isEmpty && start.links)
        e.mode.prediction = .ok i ∧ i.distances.length ≤ 3 ∧ i.distances.Nodup ∧
      ∀ d, d ∈ i.distances ↔
        0 < d ∧ ∃ b ∈ f.references, ∃ g, Picture.holder b (lower :: h) = some (d, g) := by
  have hslot : ∀ b ∈ f.references, ∃ s, e.tracker.slot b = some s ∧ ReferenceBuffers.Tellable f
      p.picture (!lower.isEmpty && start.links) e.mode.prediction s := by
    intro b hb
    obtain ⟨d, g, hbl⟩ := hl b hb
    obtain ⟨s, hs, -⟩ := ht.slot hbl
    exact ⟨s, hs, ht.tellable hbl hs⟩
  obtain ⟨i, hi, hlen, hnodup, hmem⟩ := ReferenceBuffers.info_ok (hp.frame hf).2.1
    (hp.serves f hf) hslot
  refine ⟨i, hi, hlen, hnodup, fun d => ?_⟩
  rw [hmem d]
  constructor
  · rintro ⟨b, hb, s, hs, hlt, rfl⟩
    obtain ⟨d, g, hbl⟩ := hl b hb
    obtain ⟨s', hs', -, -, hpicture⟩ := ht.slot hbl
    obtain rfl : s = s' := Option.some.inj (hs.symm.trans hs')
    refine ⟨by omega, b, hb, g, ?_⟩
    rw [show p.picture - s.picture = d by omega]
    exact hbl.holder
  · rintro ⟨hpos, b, hb, g, hh⟩
    obtain ⟨d', g', hbl⟩ := hl b hb
    rw [hbl.holder] at hh
    obtain ⟨rfl, rfl⟩ := Prod.mk.inj (Option.some.inj hh)
    obtain ⟨s, hs, -, -, hpicture⟩ := ht.slot hbl
    exact ⟨b, hb, s, hs, by omega, by omega⟩

theorem Taken.upSwitch_iff (ht : start.Taken h p done lower e) {f : LayerFrame}
    (hl : ∀ b ∈ f.references, ∃ d g, start.Leads h p.picture lower f b d g) :
    e.allowsUpSwitch f f.temporal p.picture = true ↔ ∀ b ∈ f.references, ∀ d g,
      Picture.holder b (lower :: h) = some (d, g) → 0 < d →
        f.temporal = 0 ∨ g.report.temporal < f.temporal := by
  simp only [allowsUpSwitch, List.all_eq_true, List.mem_filter, List.mem_filterMap,
    decide_eq_true_eq, Bool.or_eq_true, beq_iff_eq]
  constructor
  · intro hall b hb d g hh hpos
    obtain ⟨d', g', hbl⟩ := hl b hb
    rw [hbl.holder] at hh
    obtain ⟨rfl, rfl⟩ := Prod.mk.inj (Option.some.inj hh)
    obtain ⟨s, hs, -, htemporal, hpicture⟩ := ht.slot hbl
    rw [← htemporal]
    exact hall s ⟨⟨b, hb, hs⟩, by omega⟩
  · rintro hall s ⟨⟨b, hb, hs⟩, hlt⟩
    obtain ⟨d, g, hbl⟩ := hl b hb
    obtain ⟨s', hs', -, htemporal, hpicture⟩ := ht.slot hbl
    obtain rfl : s = s' := Option.some.inj (hs.symm.trans hs')
    rw [htemporal]
    exact hall b hb d g hbl.holder (by omega)

theorem Taken.predicts (hp : start.Plans h tid own make sids p)
    (ht : start.Taken h p done lower e) :
    e.predictsFromBelow (p.picture == 0) = start.links := by
  have hkey : (p.picture == 0) = start.keyForced := by
    rw [hp.picture, nextPicture]
    cases start.keyForced <;> simp
  simp only [links, predictsFromBelow, ht.mode, hkey]

theorem Taken.fromBelow_iff (ht : start.Taken h p done lower e) {f : LayerFrame}
    (hl : ∀ b ∈ f.references, ∃ d g, start.Leads h p.picture lower f b d g)
    (hbelow : start.links = true → done ≠ [] →
      ∃ b ∈ f.references, ∃ l ∈ done, b ∈ l.updates) :
    (lower ≠ [] ∧ start.links = true) ↔
      ∃ b ∈ f.references, ∃ g, Picture.holder b (lower :: h) = some (0, g) := by
  constructor
  · rintro ⟨hne, hlinks⟩
    obtain ⟨x, hx⟩ := List.exists_mem_of_ne_nil _ hne
    obtain ⟨l, hl, -⟩ := ht.source x hx
    obtain ⟨b, hb, l', hl', hu⟩ := hbelow hlinks (List.ne_nil_of_mem hl)
    obtain ⟨y, hy, hc⟩ := ht.coded l' hl'
    obtain ⟨z, -, -, hz⟩ := Picture.holder_of_stored h ⟨y, hy, hc.writes ▸ hu⟩
    exact ⟨b, hb, z, hz⟩
  · rintro ⟨b, hb, x, hx⟩
    obtain ⟨d, y, hbl⟩ := hl b hb
    rw [hbl.holder] at hx
    obtain ⟨hlinks, hne, -⟩ := hbl.below (Prod.mk.inj (Option.some.inj hx)).1
    exact ⟨hne, hlinks⟩

/-- A frame whose descriptor was made from its sources tells the truth about them. -/
theorem Taken.told (hp : start.Plans h tid own make sids p)
    (ht : start.Taken h p done lower e) {f : LayerFrame}
    (hl : ∀ b ∈ f.references, ∃ d g, start.Leads h p.picture lower f b d g)
    (hbelow : start.links = true → done ≠ [] → ∃ b ∈ f.references, ∃ l ∈ done, b ∈ l.updates)
    {g : EncodedFrame} {i : ReferenceSummary} {layer : CodedLayer} {endOfPicture : Bool}
    (hlayer : layer.temporal = f.temporal) (hg : start.Codes f g)
    (hd : g.descriptor = e.descriptor layer f p.picture lower.isEmpty endOfPicture i)
    (hlen : i.distances.length ≤ 3) (hnodup : i.distances.Nodup)
    (hmem : ∀ d, d ∈ i.distances ↔
      0 < d ∧ ∃ b ∈ f.references, ∃ g, Picture.holder b (lower :: h) = some (d, g)) :
    Told h p.picture lower g := by
  have hdistances : g.descriptor.distances = i.distances := by rw [hd]; rfl
  have hnear : ∀ d ∈ i.distances,
      1 ≤ d ∧ d ≤ ReferenceBuffers.maxDistance ∧ d ≤ p.picture := by
    intro d hd
    obtain ⟨hpos, b, hb, x, hx⟩ := (hmem d).mp hd
    obtain ⟨d', x', hbl⟩ := hl b hb
    rw [hbl.holder] at hx
    obtain ⟨rfl, rfl⟩ := Prod.mk.inj (Option.some.inj hx)
    exact ⟨hpos, hbl.bounded, hbl.near⟩
  constructor
  case few => rwa [hdistances]
  case distinct => rwa [hdistances]
  case bounded => rwa [hdistances]
  case exact => rwa [hdistances, hg.reads]
  case grounded =>
    rw [hg.reads, hg.spatial, hg.temporal]
    intro b hb
    obtain ⟨d, x, hbl⟩ := hl b hb
    refine ⟨d, x, hbl.holder, ?_, hbl.temporal, fun h0 => (hbl.below h0).2.2⟩
    by_cases h0 : d = 0
    · have := (hbl.below h0).2.2
      omega
    · exact Nat.le_of_eq (hbl.own (Nat.pos_of_ne_zero h0))
  case fromEarlier =>
    rw [hdistances, hd]
    simp only [Encoder.descriptor, Bool.and_eq_true, Bool.not_eq_true', List.isEmpty_eq_false_iff,
      beq_eq_false_iff_ne, and_iff_right_iff_imp]
    intro hne
    obtain ⟨d, hin⟩ := List.exists_mem_of_ne_nil _ hne
    have := hnear d hin
    omega
  case fromBelow =>
    rw [hg.reads, hd, ← ht.fromBelow_iff hl hbelow]
    simp [Encoder.descriptor, ht.predicts hp]
  case upSwitch =>
    rw [hg.reads, hg.temporal, hd, ← ht.upSwitch_iff hl, ← hlayer]
    rfl
  case unused =>
    intro l hin hn b hb
    rw [hg.reads] at hb
    obtain ⟨d, x, hbl⟩ := hl b hb
    exact hbl.unused l hin hn

/-- Taking one more frame keeps what is known of the state, if the tracker and the controller have
seen to it that the frame is a source for later ones. -/
theorem Taken.extend (ht : start.Taken h p done lower e) {f : LayerFrame} (hf : f ∈ p.frames)
    {g : EncodedFrame} (hg : start.Codes f g) {t : ReferenceBuffers} {c : Controller}
    (htracks : t.Tracks p.picture ((lower ++ [g]) :: h))
    (hfollows : c.Follows e.controller)
    (hbase : ∀ s < 3, c.baseReady s = true ↔ e.controller.baseReady s = true ∨
      e.controller.isFull = true ∧ f.temporal = 0 ∧ s = f.spatial)
    (hmiddle : ∀ s < 3, c.middleReady s = true →
      e.controller.middleReady s = true ∨ f.temporal = 1 ∧ s = f.spatial)
    (hlast : c.last = .ofTag f.tag)
    (hid : e.pictureId = some g.descriptor.pictureId)
    (hkey : g.isKey = (lower.isEmpty && start.keyForced)) (needed : Bool) :
    start.Taken h p (done ++ [f]) (lower ++ [g])
      { e with
        tracker := t
        controller := c
        structureNeeded := needed
        keyForced := e.keyForced && !g.isKey } := by
  obtain ⟨cur, hcur, hlt, hold, hids⟩ := ht.id
  constructor
  case planned =>
    simpa [or_imp, forall_and] using ⟨ht.planned, hf⟩
  case coded =>
    intro l hin
    rcases List.mem_append.mp hin with hin | hin
    · obtain ⟨x, hx, hc⟩ := ht.coded l hin
      exact ⟨x, by simp [hx], hc⟩
    · obtain rfl := List.mem_singleton.mp hin
      exact ⟨g, by simp, hg⟩
  case source =>
    intro x hin
    rcases List.mem_append.mp hin with hin | hin
    · obtain ⟨l, hl, hc⟩ := ht.source x hin
      exact ⟨l, by simp [hl], hc⟩
    · obtain rfl := List.mem_singleton.mp hin
      exact ⟨f, by simp, hg⟩
  case tracks => exact htracks
  case number => exact ht.number
  case forced =>
    have hne : (lower ++ [g]).isEmpty = false := by simp
    simp only [hne, ht.forced, hkey]
    cases lower.isEmpty <;> cases start.keyForced <;> rfl
  case mode => exact ht.mode
  case range => exact ht.range
  case firstId => exact ht.firstId
  case kept => exact ⟨hfollows.isFull.trans ht.kept.isFull, hfollows.targets.trans ht.kept.targets⟩
  case base =>
    intro s hs
    rw [hbase s hs, ht.base s hs, ht.kept.isFull]
    constructor
    · rintro ((hr | ⟨hfull, l, hl, hrest⟩) | ⟨hfull, h0, rfl⟩)
      · exact .inl hr
      · exact .inr ⟨hfull, l, by simp [hl], hrest⟩
      · exact .inr ⟨hfull, f, by simp, h0, rfl⟩
    · rintro (hr | ⟨hfull, l, hl, h0, hls⟩)
      · exact .inl (.inl hr)
      · rcases List.mem_append.mp hl with hl | hl
        · exact .inl (.inr ⟨hfull, l, hl, h0, hls⟩)
        · obtain rfl := List.mem_singleton.mp hl
          exact .inr ⟨hfull, h0, hls.symm⟩
  case middle =>
    intro s hs hm
    rcases hmiddle s hs hm with hm | ⟨h1, rfl⟩
    · rcases ht.middle s hs hm with hm | ⟨l, hl, hrest⟩
      · exact .inl hm
      · exact .inr ⟨l, by simp [hl], hrest⟩
    · exact .inr ⟨f, by simp, h1, rfl⟩
  case last => simpa using hlast
  case id =>
    refine ⟨cur, hcur, hlt, hold, fun x hin => ?_⟩
    rcases List.mem_append.mp hin with hin | hin
    · exact hids x hin
    · obtain rfl := List.mem_singleton.mp hin
      exact Option.some.inj (hid.symm.trans hcur)
  case keys =>
    intro hk x hin
    rcases List.mem_append.mp hin with hin | hin
    · exact ht.keys hk x hin
    · obtain rfl := List.mem_singleton.mp hin
      simp [hkey, hk]

/-- One more coded layer of the plan is taken. -/
theorem Taken.accept (hp : start.Plans h tid own make sids p)
    (ht : start.Taken h p done lower e) {f : LayerFrame} (hf : f ∈ p.frames)
    (hu : ∀ b ∈ f.references, start.Usable h done f b)
    (hbelow : start.links = true → done ≠ [] → ∃ b ∈ f.references, ∃ l ∈ done, b ∈ l.updates)
    {layer : CodedLayer} (hspatial : layer.spatial = f.spatial)
    (htemporal : layer.temporal = f.temporal)
    (hkey : layer.isKey = (lower.isEmpty && start.keyForced)) (endOfPicture : Bool)
    (timestamp : UInt32) :
    ∃ g e', e.acceptLayer layer f p lower.isEmpty endOfPicture timestamp = .ok (g, e') ∧
      start.Taken h p (done ++ [f]) (lower ++ [g]) e' ∧ Told h p.picture lower g := by
  have hl : ∀ b ∈ f.references, ∃ d g, start.Leads h p.picture lower f b d g :=
    fun b hb => ht.leads hp hf (hu b hb)
  have hf3 := (hp.frame hf).2.1
  obtain ⟨i, hi, hlen, hnodup, hmem⟩ := ht.info_ok hp hf hl
  obtain ⟨r, c, hdone, hrs, hrt, hrb, hfollows, hbase, hmiddle⟩ := e.controller.done_ok hf3
  let descriptor := e.descriptor layer f p.picture lower.isEmpty endOfPicture i
  let g : EncodedFrame :=
    ⟨timestamp, layer.isKey && !descriptor.fromBelow, descriptor, r, layer.data⟩
  have hg : start.Codes f g := by
    refine ⟨hrs, hrt, hrb, ?_⟩
    simp only [g, descriptor, Encoder.descriptor, ht.predicts hp, ht.mode, hspatial]
  obtain ⟨t, hrec, htracks⟩ := ht.tracks.record hf3 (hp.serves f hf) hrs hrt hg.writes
  have hid : e.pictureId = some g.descriptor.pictureId := by
    obtain ⟨cur, hcur, -⟩ := ht.id
    simp [g, descriptor, Encoder.descriptor, hcur]
  -- A key frame is the first of its picture, so it is never predicted from below.
  have hfirst : g.isKey = (lower.isEmpty && start.keyForced) := by
    by_cases hnil : lower = []
    · simp [g, descriptor, Encoder.descriptor, hkey, hnil]
    · simp [g, hkey, List.isEmpty_eq_false_iff.mpr hnil]
  have hlast := (Controller.done_told hdone).2.2
  refine ⟨g, _, ?_, ht.extend hf hg htracks hfollows hbase hmiddle hlast hid hfirst
    (e.structureNeeded && !descriptor.hasStructure),
    ht.told hp hl hbelow htemporal hg rfl hlen hnodup hmem⟩
  simp only [acceptLayer, ht.predicts hp, hi, hrec, hdone, bind, Except.bind, pure, Except.pure]
  rfl

theorem Plans.sorted (hp : start.Plans h tid own make sids p) :
    p.frames.Pairwise fun f g => f.spatial < g.spatial := by
  rw [hp.frames]
  exact LayerFrame.sorted_linked hp.prepares.makes.spatial hp.prepares.sorted none

theorem find_spatial {fs : List LayerFrame} (hsort : fs.Pairwise fun f g => f.spatial < g.spatial)
    {f : LayerFrame} (hf : f ∈ fs) : (fs.find? fun g => g.spatial == f.spatial) = some f := by
  induction fs with
  | nil => simp at hf
  | cons g rest ih =>
    obtain ⟨hlt, hrest⟩ := List.pairwise_cons.mp hsort
    rcases List.mem_cons.mp hf with rfl | hf
    · simp
    · have := hlt f hf
      rw [List.find?_cons_of_neg (by simp; omega)]
      exact ih hrest hf

structure Enters (before : Encoder) (layer : CodedLayer) (first : Bool) (p : PicturePlan)
    (e : Encoder) : Prop where
  number : (before.countPicture layer.isKey first).picturesSinceKey = p.picture
  begun : (if first then (before.countPicture layer.isKey first).beginPicture layer.temporal
    else before.countPicture layer.isKey first) = e

theorem Taken.enters (ht : start.Taken h p done lower e) {layer : CodedLayer}
    (hkey : layer.isKey = false) : e.Enters layer false p e := by
  constructor
  case number =>
    rw [hkey]
    exact ht.number
  case begun =>
    rw [hkey]
    rfl

/-- One coded layer is taken by an encoder that enters it as `e`. -/
theorem Taken.takeLayer (hp : start.Plans h tid own make sids p)
    (ht : start.Taken h p done lower e) {f : LayerFrame} {todo : List LayerFrame}
    (hf : p.frames = done ++ f :: todo) {layer : CodedLayer} {first : Bool}
    (hspatial : layer.spatial = f.spatial) (htemporal : layer.temporal = f.temporal)
    (hkey : layer.isKey = (lower.isEmpty && start.keyForced)) {before : Encoder}
    (hfirst : first = lower.isEmpty) (henters : before.Enters layer first p e)
    (endOfPicture : Bool) (timestamp : UInt32) :
    ∃ g e', before.takeLayer layer f p first endOfPicture timestamp = .ok (.ok g, e') ∧
      start.Taken h p (done ++ [f]) (lower ++ [g]) e' ∧ Told h p.picture lower g := by
  have hmem : f ∈ p.frames := by simp [hf]
  have husable := (hf ▸ hp.usable).split
  have hbelow := (hf ▸ hp.fromBelow).split
  obtain ⟨g, e', hok, hrest⟩ := ht.accept hp hmem husable hbelow hspatial htemporal hkey
    endOfPicture timestamp
  refine ⟨g, e', ?_, hrest⟩
  obtain ⟨hnumber, hbegun⟩ := henters
  have hlow : ¬(p.picture = 0 ∧ layer.temporal ≠ 0) := by
    rintro ⟨h0, hne⟩
    have hk : start.keyForced = true := by
      rw [hp.picture, nextPicture] at h0
      cases hk : start.keyForced <;> simp [hk] at h0 ⊢
    rw [htemporal, (hp.frame hmem).2.2.1] at hne
    exact hne (hp.prepares.lowest hk)
  simp only [Encoder.takeLayer, hnumber, ne_eq, not_true_eq_false, if_false, hlow, hbegun]
  rw [hfirst, hok]
  rfl

theorem Taken.takeLayers (hp : start.Plans h tid own make sids p)
    (ht : start.Taken h p done lower e) {todo : List LayerFrame} (hf : p.frames = done ++ todo)
    (hne : lower ≠ []) {layers : List CodedLayer} (ha : CodedLayer.Answers false todo layers)
    (timestamp : UInt32) :
    ∃ gs e', e.takeLayers p timestamp false layers = .ok (.ok gs, e') ∧
      gs.length = layers.length ∧
      start.Taken h p (done ++ todo.take gs.length) (lower ++ gs) e' ∧
      EachAfter (Told h p.picture) lower gs := by
  induction layers generalizing done lower e todo with
  | nil => exact ⟨[], e, rfl, rfl, by simpa using ht, trivial⟩
  | cons layer rest ih =>
    cases todo with
    | nil => exact absurd ha (by simp [CodedLayer.Answers])
    | cons f todo =>
      obtain ⟨hspatial, htemporal, hkey, hrest⟩ := ha
      have hempty : lower.isEmpty = false := List.isEmpty_eq_false_iff.mpr hne
      obtain ⟨g, e₁, hok, ht₁, htold⟩ := ht.takeLayer hp hf hspatial htemporal
        (by simp [hkey, hempty]) hempty.symm (ht.enters hkey) rest.isEmpty timestamp
      obtain ⟨gs, e₂, hok₂, hlen, ht₂, htold₂⟩ := ih ht₁ (by simp [hf]) (by simp) hrest
      have hfind := find_spatial hp.sorted (f := f) (by simp [hf])
      refine ⟨g :: gs, e₂, ?_, by simp [hlen], by simpa using ht₂, htold, htold₂⟩
      simp only [Encoder.takeLayers, hspatial, hfind, hok, hok₂]

/-- The first layer begins the picture. -/
theorem Plans.begun (hp : start.Plans h tid own make sids p) (temporal : Nat) :
    start.Taken h p [] [] ((start.countPicture start.keyForced true).beginPicture temporal) := by
  have hsound := hp.prepares.sound
  have hnumber : (start.countPicture start.keyForced true).picturesSinceKey = p.picture := by
    rw [hp.picture]
    rfl
  constructor
  case planned => simp
  case coded => simp
  case source => simp
  case tracks =>
    refine hsound.tracks.begin ?_
    rw [hp.picture, nextPicture]
    cases start.keyForced <;> simp
  case number => exact hnumber
  case forced => rfl
  case mode => rfl
  case range => rfl
  case firstId => rfl
  case kept => exact ⟨rfl, rfl⟩
  case base => simp [countPicture, beginPicture]
  case middle => exact fun _ _ hm => .inl hm
  case last => rfl
  case id =>
    cases hid : start.pictureId with
    | none =>
      exact ⟨_, rfl, by simpa [countPicture, hid] using hsound.firstId, by simp, by simp⟩
    | some old =>
      refine ⟨_, rfl, ?_, ?_, by simp⟩
      · simp only [countPicture, hid]
        exact Nat.mod_lt _ (by decide)
      · simp [countPicture, hid]
  case keys => simp

theorem Plans.enters (hp : start.Plans h tid own make sids p) {layer : CodedLayer}
    (hkey : layer.isKey = start.keyForced) : start.Enters layer true p
      ((start.countPicture start.keyForced true).beginPicture layer.temporal) := by
  constructor
  case number =>
    rw [hkey]
    exact (hp.begun layer.temporal).number
  case begun =>
    rw [hkey]
    rfl

/-- Taking the layers that the codec answers always succeeds, and each frame tells the truth. -/
theorem Plans.takeLayers (hp : start.Plans h tid own make sids p) {layers : List CodedLayer}
    (ha : CodedLayer.Answers start.keyForced p.frames layers) (timestamp : UInt32) :
    ∃ gs e', start.takeLayers p timestamp true layers = .ok (.ok gs, e') ∧
      gs.length = layers.length ∧ (gs = [] ∧ e' = start ∨ gs ≠ [] ∧
        start.Taken h p (p.frames.take gs.length) gs e' ∧ EachAfter (Told h p.picture) [] gs) := by
  cases layers with
  | nil => exact ⟨[], start, rfl, rfl, .inl ⟨rfl, rfl⟩⟩
  | cons layer rest =>
    cases hf : p.frames with
    | nil => exact absurd ha (by simp [CodedLayer.Answers, hf])
    | cons f todo =>
      rw [hf] at ha
      obtain ⟨hspatial, htemporal, hkey, hrest⟩ := ha
      obtain ⟨g, e₁, hok, ht₁, htold⟩ := (hp.begun layer.temporal).takeLayer hp
        (hf : p.frames = [] ++ f :: todo) hspatial htemporal (by simp [hkey]) rfl
        (hp.enters hkey) rest.isEmpty timestamp
      obtain ⟨gs, e₂, hok₂, hlen, ht₂, htold₂⟩ := ht₁.takeLayers hp
        (hf : p.frames = ([] ++ [f]) ++ todo) (by simp) hrest timestamp
      have hfind := find_spatial hp.sorted (f := f) (by simp [hf])
      rw [hf] at hfind
      rw [List.isEmpty_nil] at hok
      refine ⟨g :: gs, e₂, ?_, by simp [hlen], .inr ⟨by simp, by simpa using ht₂, htold, htold₂⟩⟩
      simp only [Encoder.takeLayers, hf, hspatial, hfind, hok, hok₂]

end

end Encoder
end LayeredRtp
