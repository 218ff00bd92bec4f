import LayeredRtp.Proofs.CodedFrames
import LayeredRtp.Proofs.RecoveringEncoders

/-! Requests for a key picture. Once one is wanted, it stays wanted through everything that goes
wrong, and the next picture that is emitted is one. A key picture can always be planned, so nothing
but the codec and the rates can put it off. -/
namespace LayeredRtp
namespace Encoder

variable {e last next : Encoder} {h : List Picture} {codec : CodecRequest → CodecAnswer}
  {timestamp : UInt32} {answer : Except LayerError Picture} {gs : Picture} {s : EncoderSettings}
  {id : Nat}

inductive Waits (e : Encoder) : Encoder → Prop
  | refl : Waits e e
  | setRates {last next : Encoder} (r : LayerRates) :
      Waits e last → last.setRates r = .ok next → Waits e next
  | requestKey {last : Encoder} : Waits e last → Waits e last.requestKey
  | encode {last next : Encoder} {answer : Except LayerError Picture} (timestamp : UInt32)
      (codec : CodecRequest → CodecAnswer) : Waits e last → last.AnsweredBy codec →
      last.encode timestamp codec = .ok (answer, next) → answer.toOption.getD [] = [] →
      Waits e next

/-- The rates turn on a layer below those that are on, or above them where layers are predicted
from below on key pictures only. -/
def TurnsOn (e : Encoder) (r : LayerRates) : Prop :=
  ∃ sid < e.mode.spatial, r.isOn sid = true ∧
    (sid < e.range.first ∨ e.mode.keyOnly = true ∧ e.range.stop ≤ sid)

inductive KeyAttempt (e : Encoder) (codec : CodecRequest → CodecAnswer) :
    Except LayerError Picture → Encoder → Prop
  | noLayers {next : Encoder} (off : e.range.stop ≤ e.range.first)
      (forced : next.keyForced = true) : KeyAttempt e codec (.error .noLayers) next
  | failed {next : Encoder} {request : CodecRequest} {why : LayerError}
      (asked : request.forceKey = true) (fails : codec request = .error why)
      (forced : next.keyForced = true) : KeyAttempt e codec (.error why) next
  | dropped {next : Encoder} {request : CodecRequest} (asked : request.forceKey = true)
      (drops : codec request = .ok []) (forced : next.keyForced = true) :
      KeyAttempt e codec (.ok []) next
  | emitted {next : Encoder} {request : CodecRequest} {f : EncodedFrame} {above : Picture}
      (asked : request.forceKey = true) (key : f.isKey = true)
      (lowest : ∀ g ∈ f :: above, g.report.temporal = 0)
      (ungrounded : ∀ g ∈ f :: above, g.descriptor.distances = [])
      (served : next.keyForced = false) : KeyAttempt e codec (.ok (f :: above)) next

theorem KeyAttempt.forced (h : e.KeyAttempt codec answer next)
    (hnone : answer.toOption.getD [] = []) : next.keyForced = true := by
  cases h with
  | noLayers _ forced => exact forced
  | failed _ _ forced => exact forced
  | dropped _ _ forced => exact forced
  | emitted => cases hnone

theorem forced_planOnce (hk : e.keyForced = true) : e.planOnce.2.keyForced = true := by
  obtain ⟨forced, hforced, hnext⟩ := e.planOnce_leaves
  exact hnext ▸ hforced hk

/-- Without layers to send, no layer is on. -/
theorem Sound.range_empty (hs : e.Sound h) (hany : e.controller.targets.any = false) :
    e.range.stop ≤ e.range.first := by
  refine Nat.le_of_not_lt fun hlt => ?_
  have hactive := (hs.range e.range.first).mpr ⟨Nat.le_refl _, hlt⟩
  obtain ⟨hspatial, htemporal⟩ := LayerGrid.lt_of_isActive hactive
  simp only [LayerGrid.any, LayerGrid.spatialIds, List.any_eq_false, List.mem_range,
    List.any_eq_true, not_exists, not_and] at hany
  exact hany _ hspatial 0 htemporal hactive

/-- A key picture can be planned unless no layer is on. -/
theorem Sound.plan_forced (hs : e.Sound h) (hk : e.keyForced = true) :
    (∃ next, e.plan = (.error (.refusal .noLayers), next) ∧ next.keyForced = true ∧
      e.range.stop ≤ e.range.first) ∨
    ∃ next tid own make sids p, e.plan = (.ok p, next) ∧ next.keyForced = true ∧
      next.Plans h tid own make sids p := by
  have honce := forced_planOnce hk
  rcases hs.planOnce_forced hk with
    ⟨next, hnone, -⟩ | ⟨next, tid, own, make, sids, p, hok, hpre, hp⟩
  · rw [hnone] at honce
    have hempty := hs.range_empty (planOnce_noLayers hs.layered hnone)
    exact .inl ⟨next, by simp [plan, hnone], honce, hempty⟩
  · exact .inr ⟨next, tid, own, make, sids, p, by simp [plan, hok], hpre.forced hk, hp⟩

/-- A frame without sources in earlier pictures tells of none. -/
theorem distances_of_told (htold : EachAfter (Told h 0) [] gs) {g : EncodedFrame} (hg : g ∈ gs) :
    g.descriptor.distances = [] := by
  obtain ⟨below, above, rfl⟩ := List.append_of_mem hg
  refine List.eq_nil_iff_forall_not_mem.mpr fun d hd => ?_
  obtain ⟨hpos, -, hle⟩ := htold.split.bounded d hd
  omega

/-- An attempt at a wanted key picture puts it off or emits it. -/
theorem Sound.encode_forced (hs : e.Sound h) (hk : e.keyForced = true)
    (hcodec : e.AnsweredBy codec) (timestamp : UInt32) :
    ∃ answer next, e.encode timestamp codec = .ok (answer, next) ∧
      e.KeyAttempt codec answer next := by
  rcases hs.plan_forced hk with
    ⟨next, hnone, hforced, hoff⟩ | ⟨start, tid, own, make, sids, p, hplan, hforced, hp⟩
  · exact ⟨_, next, by simp [encode, hnone], .noLayers hoff hforced⟩
  · have hasked : (start.request p).forceKey = true := hforced
    rcases hcodec p start hplan with ⟨why, hwhy⟩ | ⟨layers, hlayers, hanswers, -⟩
    · exact ⟨_, start, by simp [encode, hplan, hwhy], .failed hasked hwhy hforced⟩
    · obtain ⟨gs, next, hok, hlen, hcases⟩ := hp.takeLayers hanswers timestamp
      refine ⟨.ok gs, next, by simp [encode, hplan, hlayers, hok], ?_⟩
      rcases hcases with ⟨rfl, rfl⟩ | ⟨hne, ht, htold⟩
      · obtain rfl := List.length_eq_zero_iff.mp hlen.symm
        exact .dropped hasked hlayers hforced
      · obtain ⟨g, above, rfl⟩ := List.exists_cons_of_ne_nil hne
        refine .emitted hasked ?_ (fun x hx => ?_) (fun x hx => ?_) (by simp [ht.forced])
        · exact (isKey_takeLayers hanswers hok).trans hforced
        · obtain ⟨l, hl, hc⟩ := ht.source x hx
          obtain rfl := hp.prepares.lowest hforced
          exact hc.temporal.trans (hp.frame (ht.planned l hl)).2.2.1
        · exact distances_of_told (hp.picture_key hforced ▸ htold) hx

theorem Reached.waits (hr : Reached s e) (hw : e.Waits last) : Reached s last := by
  induction hw with
  | refl => exact hr
  | setRates r _ hset ih => exact .setRates r ih hset
  | requestKey _ ih => exact .requestKey ih
  | encode timestamp codec _ hcodec henc _ ih => exact .encode timestamp codec ih hcodec henc

theorem Reached.encode_forced (hr : Reached (s.setPictureId id) e) (hk : e.keyForced = true)
    (hcodec : e.AnsweredBy codec) (timestamp : UInt32) :
    ∃ answer next, e.encode timestamp codec = .ok (answer, next) ∧
      e.KeyAttempt codec answer next := by
  obtain ⟨h, hsound, -⟩ := hr.staged
  exact hsound.encode_forced hk hcodec timestamp

theorem forced_setRates {r : LayerRates} (h : e.setRates r = .ok next) (hk : e.keyForced = true) :
    next.keyForced = true := by
  obtain ⟨range, -, rfl⟩ := setRates_eq h
  simp [hk]

theorem forced_turnsOn {r : LayerRates} (h : e.setRates r = .ok next) (hon : e.TurnsOn r) :
    next.keyForced = true := by
  obtain ⟨range, hrange, rfl⟩ := setRates_eq h
  obtain ⟨sid, hsid, hrate, hwhere⟩ := hon
  obtain ⟨hfirst, hstop⟩ := (LayerRange.ofRates_mem hrange sid).mpr ⟨hsid, hrate⟩
  cases hwhere with
  | inl hbelow =>
    have hlower : range.first < e.range.first := by omega
    simp [hlower]
  | inr habove =>
    have hhigher : e.range.stop < range.stop := by omega
    simp [hhigher, prediction_keyOnly habove.1]

/-- A wanted key picture stays wanted until a picture is emitted. -/
theorem Waits.forced (hr : Reached (s.setPictureId id) e) (hk : e.keyForced = true)
    (hw : e.Waits last) : last.keyForced = true := by
  induction hw with
  | refl => exact hk
  | setRates r _ hset ih => exact forced_setRates hset ih
  | requestKey => rfl
  | encode timestamp codec hw hcodec henc hnone ih =>
    obtain ⟨answer, next, hok, hattempt⟩ := (hr.waits hw).encode_forced ih hcodec timestamp
    rw [henc] at hok
    cases hok
    exact hattempt.forced hnone

/-- A key frame is emitted only if the codec was asked for one. -/
theorem Sound.asked (hs : e.Sound h) (hcodec : e.AnsweredBy codec)
    (henc : e.encode timestamp codec = .ok (.ok gs, next)) (hkey : ∃ f ∈ gs, f.isKey = true) :
    ∃ p start, e.plan = (.ok p, start) ∧ (start.request p).forceKey = true := by
  obtain ⟨p, start, tid, own, make, sids, layers, hplan, hp, hanswers, htake⟩ :=
    hs.emitted hcodec henc
  refine ⟨p, start, hplan, ?_⟩
  obtain ⟨f, hf, hkey⟩ := hkey
  obtain ⟨gs', last, hok, -, hcases⟩ := hp.takeLayers hanswers timestamp
  rw [htake] at hok
  cases hok
  rcases hcases with ⟨rfl, -⟩ | ⟨-, ht, -⟩
  · cases hf
  · by_cases hforced : start.keyForced = true
    · exact hforced
    · simp [ht.keys (by simpa using hforced) f hf] at hkey

/-- No request for a key picture is lost. One is wanted at first, when it is asked for, and when the
rates turn on a layer that needs it. It stays wanted through failures, drops and other rates, and
the picture that ends the wait is a key picture. No other picture has key frames. -/
theorem Reached.requests_kept (hr : Reached (s.setPictureId id) e) :
    (∀ first, Encoder.new (s.setPictureId id) = .ok first → first.keyForced = true) ∧
    e.requestKey.keyForced = true ∧
    (∀ r next, e.setRates r = .ok next → e.TurnsOn r → next.keyForced = true) ∧
    (e.keyForced = true → ∀ last, e.Waits last → last.keyForced = true ∧
      ∀ timestamp codec, last.AnsweredBy codec → ∃ answer next,
        last.encode timestamp codec = .ok (answer, next) ∧ last.KeyAttempt codec answer next) ∧
    ∀ timestamp codec frames next, e.AnsweredBy codec →
      e.encode timestamp codec = .ok (.ok frames, next) → (∃ f ∈ frames, f.isKey = true) →
      ∃ p start, e.plan = (.ok p, start) ∧ (start.request p).forceKey = true := by
  refine ⟨fun first hnew => by rw [new_eq hnew], rfl, fun r next => forced_turnsOn, ?_, ?_⟩
  · intro hk last hw
    have hforced := hw.forced hr hk
    exact ⟨hforced, fun timestamp codec hcodec =>
      (hr.waits hw).encode_forced hforced hcodec timestamp⟩
  · intro timestamp codec frames next hcodec henc hkey
    obtain ⟨h, hsound, -⟩ := hr.staged
    exact hsound.asked hcodec henc hkey

theorem answeredBy_error (e : Encoder) (why : LayerError) : e.AnsweredBy fun _ => .error why :=
  fun _ _ _ => .inl ⟨why, rfl⟩

theorem answeredBy_nil (e : Encoder) : e.AnsweredBy fun _ => .ok [] :=
  fun _ _ _ => .inr ⟨[], rfl, by simp [CodedLayer.Answers], fun _ => .inl rfl⟩

/-- After the first picture a key picture is asked for. The codec fails, then it drops the picture,
and then it codes the key picture, which is the second one that is emitted. -/
theorem requests_kept_second : ∃ (s : EncoderSettings) (e last next : Encoder)
    (codec : CodecRequest → CodecAnswer) (f : EncodedFrame) (above : Picture),
    Reached (s.setPictureId 7) e ∧ e.keyForced = true ∧ e.Waits last ∧ last.AnsweredBy codec ∧
    last.encode 0 codec = .ok (.ok (f :: above), next) ∧ f.descriptor.pictureId = 8 ∧
    last.KeyAttempt codec (.ok (f :: above)) next := by
  let s : EncoderSettings :=
    { width := 320, height := 180, mode := { spatial := 2, temporal := 2, keyOnly := true } }
  let codes : CodecRequest → CodecAnswer := fun _ => .ok [⟨0, 0, true, [1]⟩, ⟨1, 0, false, [2]⟩]
  obtain ⟨e, last, hr, hk, hw, hcodec, hid⟩ : ∃ e last, Reached (s.setPictureId 7) e ∧
      e.keyForced = true ∧ e.Waits last ∧ last.AnsweredBy codes ∧
      ∃ f above next, last.encode 0 codes = .ok (.ok (f :: above), next) ∧
        f.descriptor.pictureId = 8 := by
    refine ⟨_, _, .requestKey (.encode 0 codes (.new rfl)
      (obeyedBy_of_plan rfl rfl ?_ rfl).answered rfl), rfl,
      .encode 0 _ (.encode 0 _ .refl (answeredBy_error _ (.codec "Overload")) rfl rfl)
        (answeredBy_nil _) rfl rfl,
      (obeyedBy_of_plan rfl rfl ?_ rfl).answered, _, _, _, rfl, rfl⟩
    · exact ⟨rfl, rfl, rfl, rfl, rfl, rfl, trivial⟩
    · exact ⟨rfl, rfl, rfl, rfl, rfl, rfl, trivial⟩
  obtain ⟨f, above, next, hok, hsecond⟩ := hid
  obtain ⟨-, -, -, hwaits, -⟩ := hr.requests_kept
  obtain ⟨answer, final, hanswer, hattempt⟩ := (hwaits hk last hw).2 0 codes hcodec
  rw [hok] at hanswer
  cases hanswer
  exact ⟨s, e, last, next, codes, f, above, hr, hk, hw, hcodec, hok, hsecond, hattempt⟩

end Encoder
end LayeredRtp
