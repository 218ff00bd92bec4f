import LayeredRtp.Proofs.EncoderRuns
import LayeredRtp.Proofs.RecountedPictures
import LayeredRtp.Proofs.StagedRuns

/-! Encoders that go on coding. With all layers sent and a codec that delivers what it is asked
for, a sound encoder codes every picture to come. One that starts to count its pictures again does
so too, unless its next picture is predicted from one with a number above zero. -/
namespace LayeredRtp

theorem LayerGrid.Whole.connected {g : LayerGrid} (hg : g.Whole) : g.Connected := by
  intro tid low mid high _ hmh _ hhigh
  obtain ⟨hs, ht⟩ := lt_of_isActive hhigh
  exact hg mid (by omega) tid ht

/-- There are frames for the next picture as long as anything is sent. -/
theorem Controller.Planned.any {c c' : Controller} {restart : Bool} {frames : List LayerFrame}
    (h : c.Planned restart frames c') (hnil : frames = []) : c.targets.any = false := by
  cases h with
  | nothing none => exact none
  | key hp =>
    have hlength := congrArg List.length hnil
    rw [LayerFrame.length_linked, List.length_nil, List.length_eq_zero_iff] at hlength
    exact absurd hlength hp.chosen
  | delta _ hp =>
    have hlength := congrArg List.length hnil
    rw [LayerFrame.length_linked, List.length_nil, List.length_eq_zero_iff] at hlength
    exact absurd hlength hp.chosen

/-- No picture can recall a frame that counts as no older than itself. -/
theorem ReferenceBuffers.configure_recalls {t : ReferenceBuffers} {frames : List LayerFrame}
    {picture b : Nat} (mode : LayerPrediction) {o : FrameOrigin}
    (hr : LayerFrame.Recalls frames b) (hslot : t.slot b = some o) (hle : picture ≤ o.picture)
    (hnear : picture ≤ maxDistance) : ∃ why, t.configure frames picture mode =
      .error (.breach why) := by
  cases hc : t.configure frames picture mode with
  | error stop =>
    rcases configureFrom_error hc with ⟨why, rfl⟩ | ⟨-, -, hfar⟩
    · exact ⟨why, rfl⟩
    · omega
  | ok config =>
    obtain ⟨lower, f, upper, rfl, hb, hfree⟩ := hr
    have hcheck := (configureFrom_checked hc).split b hb
    have hfind : (lower.find? fun l => decide (b ∈ l.updates)) = none := by
      simpa [List.find?_eq_none] using hfree
    simp [checkReference, hfind, hslot, hle] at hcheck

namespace Encoder

def DeliveredBy (e : Encoder) (codec : CodecRequest → CodecAnswer) : Prop :=
  ∀ p next, e.plan = (.ok p, next) → ∃ layers, codec (next.request p) = .ok layers ∧
    CodedLayer.Answers next.keyForced p.frames layers ∧ layers.length = p.frames.length

inductive Continues : Encoder → Encoder → Prop
  | refl (e : Encoder) : Continues e e
  | encode {e last next : Encoder} {frames : Picture} (timestamp : UInt32)
      (codec : CodecRequest → CodecAnswer) : Continues e last → last.DeliveredBy codec →
      last.encode timestamp codec = .ok (.ok frames, next) → Continues e next

def KeepsCoding (e : Encoder) : Prop :=
  ∀ last, e.Continues last → ∀ timestamp codec, last.DeliveredBy codec →
    ∃ frames next, last.encode timestamp codec = .ok (.ok frames, next)

/-- The next picture is the first after the last key picture, by the count of the encoder, but it
is predicted from a buffer that holds a picture with a number above zero. -/
def ReadsAhead (e : Encoder) : Prop :=
  e.keyForced = false ∧ e.picturesSinceKey = 0 ∧ ∃ b o,
    LayerFrame.Recalls (e.controller.next false).1 b ∧ e.tracker.slot b = some o ∧ o.picture ≠ 0

variable {e : Encoder} {h : List Picture}

theorem DeliveredBy.obeyed {codec : CodecRequest → CodecAnswer} (hcodec : e.DeliveredBy codec) :
    e.ObeyedBy codec := by
  intro p next hplan
  obtain ⟨layers, hlayers, hanswers, hlength⟩ := hcodec p next hplan
  exact ⟨layers, hlayers, hanswers, fun _ => .inr hlength⟩

theorem planOnce_noLayers {next : Encoder} (hg : e.controller.targets.Layered)
    (h : e.planOnce = (.error (.refusal .noLayers), next)) :
    e.controller.targets.any = false := by
  have hplanned := e.controller.next_planned e.keyForced hg
  cases hnext : e.controller.next e.keyForced with
  | mk frames c =>
    rw [hnext] at hplanned
    cases frames with
    | nil => exact hplanned.any rfl
    | cons first rest =>
      rw [planOnce_cons hnext] at h
      simp only [Prod.mk.injEq] at h
      have hrefused := h.1
      simp only [Except.map] at hrefused
      split at hrefused
      · rename_i stop hstop
        rw [Except.error.inj hrefused] at hstop
        rcases ReferenceBuffers.configureFrom_error hstop with ⟨_, hb⟩ | ⟨_, hold, -⟩
        · cases hb
        · cases hold
      · cases hrefused

/-- The encoder finds nothing to code only if nothing is sent. -/
theorem plan_noLayers {next : Encoder} (hg : e.controller.targets.Layered)
    (h : e.plan = (.error (.refusal .noLayers), next)) : e.controller.targets.any = false := by
  have hfollows := planOnce_follows hg
  unfold plan at h
  split at h
  · rename_i n retry hold
    rw [hold] at hfollows
    split at h
    · cases h
    · have hany := planOnce_noLayers (e := retry.requestKey) (hfollows.targets ▸ hg) h
      exact hfollows.targets ▸ hany
  · exact planOnce_noLayers hg h

theorem Sound.any (hs : e.Sound h) (hg : e.controller.targets.Whole) :
    e.controller.targets.any = true := by
  have hspatial := e.mode.spatial_bounds.1
  have htemporal := e.mode.temporal_bounds.1
  exact hg.any (hs.spatial ▸ hspatial) (hs.temporal ▸ htemporal)

/-- With all layers sent, there is always a plan for the next picture. -/
theorem Sound.plan_whole (hs : e.Sound h) (hg : e.controller.targets.Whole) :
    ∃ p start, e.plan = (.ok p, start) := by
  rcases hs.plan_unless (hs.not_skips hg.connected) with
    ⟨next, hnone, -⟩ | ⟨start, -, -, -, -, p, hok, -, -⟩
  · have hany := hs.any hg
    rw [plan_noLayers hs.layered hnone] at hany
    cases hany
  · exact ⟨p, start, hok⟩

/-- Delivered pictures leave an encoder that is sound, with all layers still sent. -/
theorem Continues.sound {last : Encoder} (hc : e.Continues last) (hs : e.Sound h)
    (hg : e.controller.targets.Whole) :
    (∃ h, last.Sound h) ∧ last.controller.targets.Whole := by
  induction hc with
  | refl => exact ⟨⟨h, hs⟩, hg⟩
  | encode timestamp codec _ hcodec henc ih =>
    obtain ⟨⟨older, hsound⟩, hwhole⟩ := ih
    obtain ⟨hkeeps, hanswer⟩ := hsound.encoded hcodec.obeyed henc
    cases hanswer with
    | inl hnone => cases hnone.1
    | inr hok =>
      obtain ⟨frames, -, hnext⟩ := hok
      exact ⟨⟨_, hnext⟩, hkeeps.targets ▸ hwhole⟩

theorem Sound.keepsCoding (hs : e.Sound h) (hg : e.controller.targets.Whole) :
    e.KeepsCoding := by
  intro last hlast timestamp codec hcodec
  obtain ⟨⟨older, hsound⟩, hwhole⟩ := hlast.sound hs hg
  obtain ⟨p, start, hplan⟩ := hsound.plan_whole hwhole
  obtain ⟨frames, next, henc, -⟩ := hsound.encode_planned hplan hcodec.obeyed timestamp
  exact ⟨frames, next, henc⟩

/-- Only what is planned matters to what is coded. -/
theorem KeepsCoding.of_plan {other : Encoder} (hk : e.KeepsCoding) (hplan : other.plan = e.plan) :
    other.KeepsCoding := by
  have hencode (timestamp : UInt32) (codec : CodecRequest → CodecAnswer) :
      other.encode timestamp codec = e.encode timestamp codec := by
    simp only [Encoder.encode, hplan]
  have hdelivered (codec : CodecRequest → CodecAnswer) (hcodec : other.DeliveredBy codec) :
      e.DeliveredBy codec := by
    simpa only [DeliveredBy, hplan] using hcodec
  have hcontinues (last : Encoder) (hlast : other.Continues last) :
      last = other ∨ e.Continues last := by
    induction hlast with
    | refl => exact .inl rfl
    | encode timestamp codec _ hcodec henc ih =>
      right
      rcases ih with rfl | hlast
      · exact .encode timestamp codec (.refl e) (hdelivered codec hcodec)
          (hencode timestamp codec ▸ henc)
      · exact .encode timestamp codec hlast hcodec henc
  intro last hlast timestamp codec hcodec
  rcases hcontinues last hlast with rfl | hlast
  · obtain ⟨frames, next, henc⟩ := hk e (.refl e) timestamp codec (hdelivered codec hcodec)
    exact ⟨frames, next, hencode timestamp codec ▸ henc⟩
  · exact hk last hlast timestamp codec hcodec

theorem ReadsAhead.plan (hr : e.ReadsAhead) :
    ∃ why next, e.plan = (.error (.breach why), next) := by
  obtain ⟨hk, hcount, b, o, hrecalls, hslot, hne⟩ := hr
  cases hnext : e.controller.next e.keyForced with
  | mk frames c =>
    rw [← hk, hnext] at hrecalls
    cases frames with
    | nil =>
      have hnil := hrecalls.ne_nil
      cases hnil
    | cons first rest =>
      let start : Encoder :=
        { e with controller := c, keyForced := e.keyForced || first.isKey }
      have hpicture : start.nextPicture ≤ 1 := by
        simp only [start, nextPicture, hcount]
        split <;> omega
      have hnear : start.nextPicture ≤ ReferenceBuffers.maxDistance := by
        unfold ReferenceBuffers.maxDistance
        omega
      obtain ⟨why, hwhy⟩ := ReferenceBuffers.configure_recalls e.mode.prediction hrecalls hslot
        (by omega) hnear
      have honce : e.planOnce = (.error (.breach why), start) := by
        rw [planOnce_cons hnext]
        simp only [start] at hwhy
        simp only [hwhy, Except.map, start]
      exact ⟨why, start, by simp [Encoder.plan, honce]⟩

/-- Whatever the codec does, the next picture stops the encoder for good. -/
theorem ReadsAhead.stops (hr : e.ReadsAhead) (timestamp : UInt32)
    (codec : CodecRequest → CodecAnswer) : ∃ why, e.encode timestamp codec = .error why := by
  obtain ⟨why, next, hplan⟩ := hr.plan
  exact ⟨why, by simp [Encoder.encode, hplan]⟩

theorem ReadsAhead.not_keepsCoding (hr : e.ReadsAhead) : ¬e.KeepsCoding := by
  intro hk
  obtain ⟨why, next, hplan⟩ := hr.plan
  have hcodec : e.DeliveredBy fun _ => .ok [] := by
    intro p start hok
    rw [hplan] at hok
    cases hok
  obtain ⟨frames, last, henc⟩ := hk e (.refl e) 0 _ hcodec
  simp [Encoder.encode, hplan] at henc

/-- What a controller chooses is all that planning takes from it. -/
theorem plan_controller {c : Controller} (hc : c.next e.keyForced = e.controller.next e.keyForced) :
    { e with controller := c }.plan = e.plan := by
  have honce : { e with controller := c }.planOnce = e.planOnce := by
    simp only [planOnce, hc]
  simp only [Encoder.plan, honce]

/-- Counting anew does no harm unless the next picture reads ahead of the count. -/
theorem Sound.recovers (hs : e.Sound h) (hst : e.Staged h) (hg : e.controller.targets.Whole)
    (hk : e.keyForced = false) (hlast : e.controller.last ≠ .idle)
    (hnot : ¬{ e with picturesSinceKey := 0 }.ReadsAhead) :
    { e with picturesSinceKey := 0 }.KeepsCoding := by
  have hany := hs.any hg
  have hbound := e.mode.spatial_bounds
  have hspatial := hs.spatial
  let place := e.controller.targets.nextPhase e.controller.last
  have hown (s : Nat) (hlt : s < e.mode.spatial)
      (hr : e.controller.isFull = true → e.controller.baseReady s = true) (o : FrameOrigin)
      (ho : e.tracker.slot (e.controller.ownBuffer place s) = some o) : o.picture = 0 := by
    apply Decidable.byContradiction
    intro hne
    have hrecalls := hst.controller.recalls hg hany hlast (hspatial ▸ hlt) (by omega) hr
    exact hnot ⟨hk, rfl, _, o, hrecalls, ho, hne⟩
  -- A middle frame in use was stored after the last key picture, so reading it reads ahead.
  have hlate (hp : place = .lateT2) :
      ∀ s < 3, e.controller.middleReady s = false := by
    intro s hthree
    apply Bool.eq_false_iff.mpr
    intro hm
    obtain ⟨hlt, hbase⟩ := hst.controller.based s hthree hm
    rw [hspatial] at hlt
    have htop := LayerGrid.lt_of_sendsTemporal (LayerGrid.sendsTemporal_of_lateT2 hp)
    have htemporal := e.mode.temporal_bounds.2
    rw [hs.temporal] at htop
    obtain ⟨d, g, hd, hle, -⟩ := hs.middle (by omega) s hlt hm
    obtain ⟨o, ho, -, -, hpicture⟩ := hs.tracks _ (hs.buffer_lt hlt) _ hd
    have hzero := hown s hlt hbase o (by rwa [Controller.ownBuffer, if_pos ⟨hp, hm⟩])
    have hne := hst.upper s hlt d g hd
    have hsum := hpicture hle
    simp only at hsum
    omega
  have hfollows := e.controller.follows_forgetMiddle
  have hsound : { e with controller := e.controller.forgetMiddle }.Sound h := by
    apply hs.follow hfollows
    · simp [Controller.baseReady_forgetMiddle]
    · simp [Controller.middleReady_forgetMiddle]
    · rw [Controller.baseReady_forgetMiddle]
      exact hs.closed
  have hbase (s : Nat) (hlt : s < e.mode.spatial)
      (hr : e.controller.forgetMiddle.isFull = true →
        e.controller.forgetMiddle.baseReady s = true) (o : FrameOrigin)
      (ho : e.tracker.slot (e.controller.forgetMiddle.targets.buffer s 0) = some o) :
      o.picture = 0 := by
    rw [hfollows.isFull, Controller.baseReady_forgetMiddle] at hr
    rw [hfollows.targets] at ho
    apply hown s hlt hr o
    rwa [Controller.ownBuffer, if_neg]
    rintro ⟨hp, hm⟩
    simp [hlate hp s (by omega)] at hm
  obtain ⟨q, hq⟩ := hsound.recount hk
    (fun s _ => e.controller.middleReady_forgetMiddle s) hbase
  refine (hq.keepsCoding (hfollows.targets ▸ hg)).of_plan (Eq.symm ?_)
  apply plan_controller (e := { e with picturesSinceKey := 0 })
  simp only [hk]
  exact hst.controller.next_forgetMiddle hany hlast hlate

end Encoder
end LayeredRtp
