import LayeredRtp.Proofs.SkippedLayers
import LayeredRtp.Proofs.TakenLayers

/-! What coding a picture leaves behind. Whatever part of it the codec answers, the encoder is
sound for the pictures with the new one, and every frame of it is truthful. -/
namespace LayeredRtp
namespace Encoder

variable {start e : Encoder} {h : List Picture} {tid : Nat} {own : Nat → List Nat}
  {make : Option Nat → Nat → LayerFrame} {sids : List Nat} {p : PicturePlan}
  {done : List LayerFrame} {gs : Picture}

theorem Plans.mem_frames (hp : start.Plans h tid own make sids p) {s : Nat} (hs : s ∈ sids) :
    ∃ f ∈ p.frames, f.spatial = s := by
  rw [hp.frames]
  rw [← LayerFrame.linked_spatials hp.prepares.makes.spatial none sids] at hs
  simpa using hs

theorem Plans.storesBase (hp : start.Plans h 0 own make sids p) {f : LayerFrame}
    (hf : f ∈ p.frames) : start.controller.targets.buffer f.spatial 0 ∈ f.updates := by
  obtain ⟨below, s, -, rfl⟩ := LayerFrame.mem_linked (hp.frames ▸ hf)
  rw [hp.prepares.makes.spatial]
  exact hp.prepares.makes.storesBase rfl below s

theorem Plans.storesMiddle (hp : start.Plans h 1 own make sids p)
    (ht : start.mode.temporal = 3) {f : LayerFrame} (hf : f ∈ p.frames) :
    start.controller.targets.buffer f.spatial 1 ∈ f.updates := by
  obtain ⟨below, s, -, rfl⟩ := LayerFrame.mem_linked (hp.frames ▸ hf)
  rw [hp.prepares.makes.spatial]
  exact hp.prepares.makes.storesMiddle rfl (hp.prepares.sound.temporal.trans ht) below s

theorem Taken.tidy (hp : start.Plans h tid own make sids p) (ht : start.Taken h p done gs e) :
    Picture.Tidy start.controller.targets gs := by
  intro g hg
  obtain ⟨l, hl, hc⟩ := ht.source g hg
  obtain ⟨hlt, -, htid, hu⟩ := hp.frame (ht.planned l hl)
  have hlow := hp.prepares.low
  rw [hc.writes, hc.spatial, hc.temporal, htid]
  exact ⟨hp.prepares.sound.spatial ▸ hlt, by omega, hu⟩

theorem Plans.picture_delta (hp : start.Plans h tid own make sids p)
    (hk : start.keyForced = false) : p.picture = start.picturesSinceKey + 1 := by
  simp [hp.picture, nextPicture, hk]

theorem Plans.picture_key (hp : start.Plans h tid own make sids p)
    (hk : start.keyForced = true) : p.picture = 0 := by
  simp [hp.picture, nextPicture, hk]

/-- A base frame from before this picture is fresh also after it. -/
theorem Taken.keeps_base (hp : start.Plans h tid own make sids p)
    (ht : start.Taken h p done gs e) (hk : start.keyForced = false) {s : Nat}
    (hs : s < start.mode.spatial) (hf : start.BaseFresh h s) :
    Picture.Fresh (gs :: h) p.picture (start.controller.targets.buffer s 0) s 0 := by
  rw [hp.picture_delta hk]
  exact hf.begin.keep ((ht.tidy hp).base (hp.prepares.sound.spatial ▸ hs))

/-- A base frame of this picture is fresh after it. -/
theorem Taken.stored_base (hp : start.Plans h tid own make sids p)
    (ht : start.Taken h p done gs e) {l : LayerFrame} (hl : l ∈ done) (h0 : l.temporal = 0) :
    Picture.Fresh (gs :: h) p.picture (start.controller.targets.buffer l.spatial 0) l.spatial
      0 := by
  have hf := ht.planned l hl
  obtain ⟨hlt, -, htid, -⟩ := hp.frame hf
  obtain rfl : tid = 0 := htid.symm.trans h0
  obtain ⟨g, hg, hc⟩ := ht.coded l hl
  exact .of_stored ⟨g, hg, hc.writes ▸ hp.storesBase hf⟩
    ((ht.tidy hp).base (hp.prepares.sound.spatial ▸ hlt))

theorem Taken.middle_fresh (hp : start.Plans h tid own make sids p)
    (ht : start.Taken h p done gs e) (h3 : start.mode.temporal = 3) {s : Nat}
    (hs : s < start.mode.spatial) (hr : e.controller.middleReady s = true) :
    Picture.Fresh (gs :: h) p.picture (start.controller.targets.buffer s 1) s 2 := by
  have hsound := hp.prepares.sound
  have hthree := start.mode.spatial_bounds.2
  have hown := (ht.tidy hp).upper (hsound.spatial ▸ hs)
  rcases ht.middle s (by omega) hr with hr | ⟨l, hl, h1, rfl⟩
  · cases hk : start.keyForced with
    | true =>
      rw [(hp.prepares.started hk s (by omega)).2] at hr
      cases hr
    | false =>
      rw [hp.picture_delta hk]
      exact (hsound.middle h3 s hs hr).begin.keep hown
  · have hf := ht.planned l hl
    obtain rfl : tid = 1 := (hp.frame hf).2.2.1.symm.trans h1
    obtain ⟨g, hg, hc⟩ := ht.coded l hl
    exact .of_stored ⟨g, hg, hc.writes ▸ hp.storesMiddle h3 hf⟩ hown

/-- The layers of a picture are coded from the lowest up. -/
theorem mem_take_of_lt {fs : List LayerFrame} {n : Nat}
    (hsort : fs.Pairwise fun f g => f.spatial < g.spatial) {f g : LayerFrame}
    (hf : f ∈ fs.take n) (hg : g ∈ fs) (hlt : g.spatial < f.spatial) : g ∈ fs.take n := by
  induction fs generalizing n with
  | nil => simp at hg
  | cons x rest ih =>
    cases n with
    | zero => simp at hf
    | succ n =>
      obtain ⟨hx, hsort⟩ := List.pairwise_cons.mp hsort
      rw [List.take_succ_cons, List.mem_cons] at hf ⊢
      rcases List.mem_cons.mp hg with rfl | hrest
      · exact .inl rfl
      · rcases hf with rfl | htake
        · have := hx g hrest
          omega
        · exact .inr (ih hsort htake hrest)

theorem Taken.ready_closed {n : Nat} (hp : start.Plans h tid own make sids p)
    (ht : start.Taken h p (p.frames.take n) gs e) {s l : Nat} (hs : s < 3)
    (hr : e.controller.baseReady s = true) (hl : start.range.first ≤ l) (hls : l < s) :
    e.controller.baseReady l = true := by
  have hsound := hp.prepares.sound
  rcases (ht.base s hs).mp hr with hr | ⟨hfull, f, hf, h0, rfl⟩
  · cases hk : start.keyForced with
    | true =>
      rw [(hp.prepares.started hk s hs).1] at hr
      cases hr
    | false => exact (ht.base l (by omega)).mpr (.inl (hsound.closed hk s hs hr l hl hls))
  · have hmem := ht.planned f hf
    obtain rfl : tid = 0 := (hp.frame hmem).2.2.1.symm.trans h0
    have hactive := ((hp.prepares.mem _).mp (hp.prepares.frame f (hp.frames ▸ hmem)).1).1
    have hstop := ((hsound.range _).mp hactive).2
    have hin : l ∈ sids := (hp.prepares.mem l).mpr
      ⟨(hsound.range l).mpr ⟨hl, by omega⟩, fun _ h => absurd rfl h⟩
    obtain ⟨g, hg, rfl⟩ := hp.mem_frames hin
    exact (ht.base g.spatial (by omega)).mpr (.inr ⟨hfull, g,
      mem_take_of_lt hp.sorted hf hg hls, (hp.frame hg).2.2.1, rfl⟩)

theorem Taken.base_fresh (hp : start.Plans h tid own make sids p)
    (ht : start.Taken h p done gs e) {s : Nat} (hs : s < 3)
    (hr : e.controller.baseReady s = true) : s < start.mode.spatial ∧
      Picture.Fresh (gs :: h) p.picture (start.controller.targets.buffer s 0) s 0 := by
  rcases (ht.base s hs).mp hr with hr | ⟨-, f, hf, h0, rfl⟩
  · cases hk : start.keyForced with
    | true =>
      rw [(hp.prepares.started hk s hs).1] at hr
      cases hr
    | false =>
      obtain ⟨hlt, hfresh⟩ := hp.prepares.sound.base s hs hr
      exact ⟨hlt, ht.keeps_base hp hk hlt hfresh⟩
  · exact ⟨(hp.frame (ht.planned f hf)).1, ht.stored_base hp hf h0⟩

/-- A whole key picture leaves every sent layer with a base frame of its own. -/
theorem Taken.active_fresh {n : Nat} (hp : start.Plans h tid own make sids p)
    (ht : start.Taken h p (p.frames.take n) gs e) (hmode : start.mode.keyOnly = true)
    (hall : start.keyForced = true → p.frames.length ≤ n) {s : Nat}
    (ha : start.controller.targets.isActive s 0 = true) :
    Picture.Fresh (gs :: h) p.picture (start.controller.targets.buffer s 0) s 0 := by
  have hsound := hp.prepares.sound
  have hs : s < start.mode.spatial := hsound.spatial ▸ (LayerGrid.lt_of_isActive ha).1
  cases hk : start.keyForced with
  | false => exact ht.keeps_base hp hk hs (hsound.keyed hmode hk s ha)
  | true =>
    obtain rfl := hp.prepares.lowest hk
    obtain ⟨f, hf, rfl⟩ := hp.mem_frames
      ((hp.prepares.mem s).mpr ⟨ha, fun _ h => absurd rfl h⟩)
    exact ht.stored_base hp (by rwa [List.take_of_length_le (hall hk)]) (hp.frame hf).2.2.1

/-- Counted on from the id of any emitted picture, one for each picture since, the present id is
reached. -/
theorem Taken.ids_follow (hp : start.Plans h tid own make sids p)
    (ht : start.Taken h p done gs e) (hne : gs ≠ []) (i : Nat) (q : Picture)
    (hq : (gs :: h)[i]? = some q) : q ≠ [] ∧ ∃ cur, e.pictureId = some cur ∧ ∀ g ∈ q,
      g.descriptor.pictureId < pictureIds ∧
        (g.descriptor.pictureId + i) % pictureIds = cur := by
  obtain ⟨cur, hcur, hlt, hold, hids⟩ := ht.id
  cases i with
  | zero =>
    simp only [List.getElem?_cons_zero, Option.some.injEq] at hq
    subst hq
    refine ⟨hne, cur, hcur, fun g hg => ?_⟩
    rw [hids g hg]
    exact ⟨hlt, Nat.mod_eq_of_lt hlt⟩
  | succ i =>
    rw [List.getElem?_cons_succ] at hq
    obtain ⟨hq, old, hid, hmem⟩ := hp.prepares.sound.ids i q hq
    refine ⟨hq, cur, hcur, fun g hg => ⟨(hmem g hg).1, ?_⟩⟩
    rw [hold old hid, ← (hmem g hg).2]
    simp only [pictureIds]
    omega

/-- The encoder is sound for the pictures with the one it has just coded. -/
theorem Taken.sound {n : Nat} (hp : start.Plans h tid own make sids p)
    (ht : start.Taken h p (p.frames.take n) gs e) (hne : gs ≠ [])
    (hall : start.mode.keyOnly = true → start.keyForced = true → p.frames.length ≤ n) :
    e.Sound (gs :: h) := by
  have hsound := hp.prepares.sound
  constructor
  case spatial => rw [ht.kept.targets, ht.mode, hsound.spatial]
  case temporal => rw [ht.kept.targets, ht.mode, hsound.temporal]
  case kind => rw [ht.kept.isFull, ht.mode, hsound.kind]
  case layered => exact ht.kept.targets ▸ hsound.layered
  case range =>
    rw [ht.kept.targets, ht.range]
    exact hsound.range
  case tracks => exact ht.number ▸ ht.tracks
  case base =>
    intro s hs hr
    rw [BaseFresh, ht.number, ht.kept.targets, ht.mode]
    exact ht.base_fresh hp hs hr
  case middle =>
    rw [ht.number, ht.kept.targets, ht.mode]
    exact fun h3 s hs hr => ht.middle_fresh hp h3 hs hr
  case closed =>
    rw [ht.range]
    exact fun _ s hs hr l hl hls => ht.ready_closed hp hs hr hl hls
  case keyed =>
    rw [ht.kept.targets, ht.mode]
    intro hmode _ s ha
    rw [BaseFresh, ht.number, ht.kept.targets]
    exact ht.active_fresh hp hmode (hall hmode) ha
  case opened => simp
  case epoch =>
    rw [ht.number]
    intro _
    cases hk : start.keyForced with
    | true => simp [hp.picture_key hk]
    | false =>
      have := hsound.epoch (hsound.opened hk)
      rw [hp.picture_delta hk, List.length_cons]
      omega
  case noKey =>
    rw [ht.number]
    cases hk : start.keyForced with
    | true => simp [hp.picture_key hk]
    | false =>
      rw [hp.picture_delta hk, List.take_succ_cons]
      intro q hq
      rcases List.mem_cons.mp hq with rfl | hq
      · simpa [Picture.isKey] using ht.keys hk
      · exact hsound.noKey q hq
  case firstId => exact ht.firstId ▸ hsound.firstId
  case id =>
    intro c hc
    obtain ⟨cur, hcur, hlt, -⟩ := ht.id
    rw [hcur, Option.some.injEq] at hc
    exact hc ▸ hlt
  case ids => exact ht.ids_follow hp hne

/-- What the frames of a picture tell is true of the whole picture. -/
theorem Taken.truthful (hp : start.Plans h tid own make sids p)
    (ht : start.Taken h p done gs e) (htold : EachAfter (Told h p.picture) [] gs)
    {below above : Picture} {f : EncodedFrame} (hgs : gs = below ++ f :: above) :
    Truthful h below f above := by
  have hsound := hp.prepares.sound
  subst hgs
  have hf : Told h p.picture below f := htold.split
  obtain ⟨cur, hcur, hlt, hold, hids⟩ := ht.id
  have hkey : ∀ d ∈ f.descriptor.distances, start.keyForced = false := by
    intro d hd
    cases hk : start.keyForced with
    | false => rfl
    | true =>
      have := hf.bounded d hd
      rw [hp.picture_key hk] at this
      omega
  constructor
  case few => exact hf.few
  case distinct => exact hf.distinct
  case bounded => exact fun d hd => ⟨(hf.bounded d hd).1, (hf.bounded d hd).2.1⟩
  case exact => exact hf.exact
  case reachable =>
    intro d hd
    obtain ⟨hpos, hmax, hle⟩ := hf.bounded d hd
    have hk := hkey d hd
    rw [hp.picture_delta hk] at hle
    have hlen := hsound.epoch (hsound.opened hk)
    obtain ⟨q, hq⟩ : ∃ q, h[d - 1]? = some q := ⟨_, List.getElem?_eq_getElem (by omega)⟩
    obtain ⟨hne, old, hid, hmem⟩ := hsound.ids _ q hq
    refine ⟨q, hq, hne, fun g hg => ?_, fun x hx => ?_, ?_⟩
    · obtain ⟨hglt, hgid⟩ := hmem g hg
      rw [hids f (by simp), hold old hid]
      simp only [pictureIds, ReferenceBuffers.maxDistance] at *
      omega
    · have hsub : h.take (d - 1) ⊆ h.take start.picturesSinceKey :=
        (List.take_sublist_take_left (by omega)).subset
      exact hsound.noKey x (hsub hx)
    · rw [Picture.isKey, List.any_eq_false]
      exact fun g hg => by simp [ht.keys hk g hg]
  case grounded => exact hf.grounded
  case fromEarlier => exact hf.fromEarlier
  case fromBelow => exact hf.fromBelow
  case upSwitch => exact hf.upSwitch
  case notForAbove =>
    intro hn g hg b hb
    obtain ⟨first, last, rfl⟩ := List.append_of_mem hg
    have hsplit : EachAfter (Told h p.picture) [] ((below ++ f :: first) ++ g :: last) := by
      simpa using htold
    exact hsplit.split.unused f (by simp) hn b hb

theorem Taken.uses (hp : start.Plans h tid own make sids p) (ht : start.Taken h p done gs e)
    {f : EncodedFrame} (hf : f ∈ gs) : f.Uses p.config := by
  obtain ⟨l, hl, hc⟩ := ht.source f hf
  have hserves := hp.serves l (ht.planned l hl)
  refine ⟨fun b => ?_, ?_⟩
  · rw [hc.reads, hc.spatial, hserves.references]
  · rw [hc.writes, hc.spatial, hserves.updates]

/-- Coding a planned picture succeeds, whatever part of it the codec answers. -/
theorem Sound.encode_planned {e : Encoder} (hs : e.Sound h) {p : PicturePlan}
    (hplan : e.plan = (.ok p, start)) {codec : CodecRequest → CodecAnswer}
    (hcodec : e.ObeyedBy codec) (timestamp : UInt32) :
    ∃ frames next, e.encode timestamp codec = .ok (.ok frames, next) ∧
      next.Sound (Picture.emit frames h) ∧ e.Keeps next ∧ (∀ f ∈ frames, f.Uses p.config) ∧
      ∀ below f above, frames = below ++ f :: above → Truthful h below f above := by
  obtain ⟨hpre, tid, own, make, sids, hp⟩ := hs.plans hplan
  obtain ⟨layers, hlayers, hanswers, hwhole⟩ := hcodec p start hplan
  obtain ⟨gs, next, hok, hlen, hcases⟩ := hp.takeLayers hanswers timestamp
  refine ⟨gs, next, by simp [encode, hplan, hlayers, hok], ?_⟩
  rcases hcases with ⟨rfl, rfl⟩ | ⟨hne, ht, htold⟩
  · exact ⟨hp.prepares.sound, hpre.toKeeps, by simp, by simp⟩
  · refine ⟨?_, hpre.toKeeps.trans ⟨ht.mode, ht.kept.targets⟩,
      fun f hf => ht.uses hp hf, fun below f above hgs => ht.truthful hp htold hgs⟩
    rw [Picture.emit, if_neg (by simpa using hne)]
    refine ht.sound hp hne fun hmode _ => ?_
    rw [hpre.mode] at hmode
    rcases hwhole hmode with rfl | hall
    · exact absurd (List.length_eq_zero_iff.mp hlen) hne
    · omega

/-- What can become of a picture, unless it would skip a spatial layer. -/
theorem Sound.encode_cases {e : Encoder} (hs : e.Sound h) (hskip : ¬e.Skips h)
    {codec : CodecRequest → CodecAnswer} (hcodec : e.ObeyedBy codec) (timestamp : UInt32) :
    (∃ next, e.encode timestamp codec = .ok (.error .noLayers, next) ∧ next.Sound h ∧
      e.Keeps next) ∨
    ∃ p start frames next, e.plan = (.ok p, start) ∧
      e.encode timestamp codec = .ok (.ok frames, next) ∧
      next.Sound (Picture.emit frames h) ∧ e.Keeps next ∧ (∀ f ∈ frames, f.Uses p.config) ∧
      ∀ below f above, frames = below ++ f :: above → Truthful h below f above := by
  rcases hs.plan_unless hskip with ⟨next, hnone, hrest⟩ | ⟨start, -, -, -, -, p, hok, -, -⟩
  · exact .inl ⟨next, by simp [encode, hnone], hrest⟩
  · obtain ⟨frames, next, hrest⟩ := hs.encode_planned hok hcodec timestamp
    exact .inr ⟨p, start, frames, next, hok, hrest⟩

/-- A step of a run that coded a picture, or found nothing to code, is one of those above. -/
theorem Sound.encoded {e next : Encoder} (hs : e.Sound h) {codec : CodecRequest → CodecAnswer}
    (hcodec : e.ObeyedBy codec) {timestamp : UInt32} {answer : Except LayerError Picture}
    (henc : e.encode timestamp codec = .ok (answer, next)) :
    e.Keeps next ∧ (answer = .error .noLayers ∧ next.Sound h ∨
      ∃ frames, answer = .ok frames ∧ next.Sound (Picture.emit frames h)) := by
  by_cases hskip : e.Skips h
  · obtain ⟨last, hbreach⟩ := hs.plan_skips hskip
    simp [Encoder.encode, hbreach] at henc
  · rcases hs.encode_cases hskip hcodec timestamp with
      ⟨last, hnone, hsound, hkeeps⟩ | ⟨-, -, frames, last, -, hok, hsound, hkeeps, -⟩
    · rw [henc] at hnone
      cases hnone
      exact ⟨hkeeps, .inl ⟨rfl, hsound⟩⟩
    · rw [henc] at hok
      cases hok
      exact ⟨hkeeps, .inr ⟨frames, rfl, hsound⟩⟩

/-- Encoders stay sound, whatever rates they are given. -/
theorem Run.sound {s : EncoderSettings} {id : Nat} {admits : LayerRates → Prop} {e : Encoder}
    (hrun : Run (s.setPictureId id) admits e h) : e.Sound h := by
  induction hrun with
  | new hnew => exact sound_new (Nat.mod_lt _ (by decide)) hnew
  | setRates r _ _ hset ih => exact ih.setRates hset
  | requestKey _ ih => exact ih.requestKey
  | encode timestamp codec _ hcodec henc ih =>
    rcases (ih.encoded hcodec henc).2 with ⟨hno, -⟩ | ⟨frames, hok, hsound⟩
    · cases hno
    · cases hok
      exact hsound
  | refused timestamp codec _ hcodec henc ih =>
    rcases (ih.encoded hcodec henc).2 with ⟨-, hsound⟩ | ⟨frames, hok, -⟩
    · exact hsound
    · cases hok

end Encoder
end LayeredRtp
