import LayeredRtp.Proofs.ControllerStages
import LayeredRtp.Proofs.EmittedPictures

/-! The place in the temporal pattern along a run. The controller stays in step with the pictures
that were emitted, and no key picture ever stores anything in the buffers of the upper temporal
layers. -/
namespace LayeredRtp

namespace Encoder

structure Staged (e : Encoder) (h : List Picture) : Prop where
  controller : e.controller.Staged
  upper : ∀ s < e.mode.spatial, ∀ d g,
    Picture.holder (e.controller.targets.buffer s 1) h = some (d, g) → d ≠ e.picturesSinceKey

structure Stages (e : Encoder) (planned : Except Stop PicturePlan × Encoder) : Prop where
  staged : planned.2.controller.Staged
  follows : planned.2.controller.Follows e.controller
  mode : planned.2.mode = e.mode
  count : planned.2.picturesSinceKey = e.picturesSinceKey
  expects : ∀ p, planned.1 = .ok p → ∃ place, planned.2.controller.Expects place p.frames
  going : ∀ p, planned.1 = .ok p → planned.2.keyForced = false →
    planned.2.controller.last ≠ .idle

variable {e : Encoder} {h : List Picture}

theorem planOnce_follows (hg : e.controller.targets.Layered) :
    e.planOnce.2.controller.Follows e.controller := by
  obtain ⟨forced, -, hnext⟩ := e.planOnce_leaves
  rw [hnext]
  exact (e.controller.next_planned e.keyForced hg).follows

theorem planOnce_stages (hc : e.controller.Staged) (hg : e.controller.targets.Layered) :
    e.Stages e.planOnce := by
  obtain ⟨hstaged, hexpects⟩ := hc.next hg e.keyForced
  have hfollows := planOnce_follows hg
  generalize hnext : e.controller.next e.keyForced = planned at hstaged hexpects
  obtain ⟨frames, c⟩ := planned
  simp only at hstaged hexpects
  cases frames with
  | nil =>
    rw [planOnce_nil hnext] at hfollows ⊢
    exact ⟨hstaged, hfollows, rfl, rfl, by simp, by simp⟩
  | cons first rest =>
    obtain ⟨place, hplace⟩ := hexpects (by simp)
    rw [planOnce_cons hnext] at hfollows ⊢
    constructor
    case staged => exact hstaged
    case follows => exact hfollows
    case mode => rfl
    case count => rfl
    case expects =>
      intro p hp
      simp only [Except.map] at hp
      split at hp <;> cases hp
      exact ⟨place, hplace⟩
    case going =>
      intro p _ hk
      rcases hplace.going with hlast | ⟨f, hf, hkey⟩
      · exact hlast
      · simp only [List.head?_cons, Option.some.injEq] at hf
        simp [hf, hkey] at hk

theorem plan_stages (hc : e.controller.Staged) (hg : e.controller.targets.Layered) :
    e.Stages e.plan := by
  have honce := planOnce_stages hc hg
  unfold plan
  split
  · rename_i n next hold
    rw [hold] at honce
    split
    · exact ⟨honce.staged, honce.follows, honce.mode, honce.count, by simp, by simp⟩
    · have htwice : next.requestKey.Stages next.requestKey.planOnce :=
        planOnce_stages honce.staged (honce.follows.targets ▸ hg)
      exact ⟨htwice.staged,
        ⟨htwice.follows.isFull.trans honce.follows.isFull,
          htwice.follows.targets.trans honce.follows.targets⟩,
        htwice.mode.trans honce.mode, htwice.count.trans honce.count, htwice.expects, htwice.going⟩
  · exact honce

variable {start : Encoder} {tid : Nat} {own : Nat → List Nat}
  {make : Option Nat → Nat → LayerFrame} {sids : List Nat} {p : PicturePlan}
  {done : List LayerFrame} {gs : Picture} {place : TemporalPhase}

theorem Taken.last_cases (ht : start.Taken h p done gs e)
    (hx : start.controller.Expects place p.frames) :
    done = [] ∧ e.controller.last = start.controller.last ∨ e.controller.last = place := by
  have hlast := ht.last
  cases hd : done.getLast? with
  | none =>
    rw [hd] at hlast
    exact .inl ⟨List.getLast?_eq_none_iff.mp hd, hlast⟩
  | some l =>
    rw [hd] at hlast
    exact .inr (hlast.trans (hx.tag l (ht.planned l (List.mem_of_getLast? hd))))

/-- Coding frames of the expected place keeps the controller in step. -/
theorem Taken.staged (hp : start.Plans h tid own make sids p) (ht : start.Taken h p done gs e)
    (hs : start.controller.Staged) (hx : start.controller.Expects place p.frames) :
    e.controller.Staged := by
  constructor
  case cleared =>
    intro hearly s hlt
    apply Bool.eq_false_iff.mpr
    intro hm
    rcases ht.last_cases hx with ⟨rfl, hlast⟩ | hlast
    · rw [hlast] at hearly
      rcases ht.middle s hlt hm with hm | ⟨l, hl, -⟩
      · simp [hs.cleared hearly s hlt] at hm
      · simp at hl
    · rw [hlast] at hearly
      obtain ⟨hclear, hupper⟩ := hx.cleared hearly
      rcases ht.middle s hlt hm with hm | ⟨l, hl, h1, -⟩
      · simp [hclear s hlt] at hm
      · exact hupper l (ht.planned l hl) h1
  case based =>
    intro s hlt hm
    rw [ht.kept.targets, ht.kept.isFull]
    rcases ht.middle s hlt hm with hm | ⟨l, hl, h1, rfl⟩
    · obtain ⟨hspatial, hbase⟩ := hs.based s hlt hm
      exact ⟨hspatial, fun hf => (ht.base s hlt).mpr (.inl (hbase hf))⟩
    · have hmem := ht.planned l hl
      refine ⟨hp.prepares.sound.spatial ▸ (hp.frame hmem).1, fun hf => ?_⟩
      exact (ht.base _ hlt).mpr (.inl (hx.based hf l hmem h1))

/-- Only a picture that is not a key picture stores anything in the upper buffers. -/
theorem Taken.upper (hp : start.Plans h tid own make sids p) (ht : start.Taken h p done gs e)
    (hstart : start.Staged h) {s : Nat} (hs : s < start.mode.spatial) {d : Nat} {g : EncodedFrame}
    (hd : Picture.holder (start.controller.targets.buffer s 1) (gs :: h) = some (d, g)) :
    d ≠ p.picture := by
  have hspatial := hp.prepares.sound.spatial
  by_cases hstored : ∃ f ∈ gs, start.controller.targets.buffer s 1 ∈ f.writes
  · obtain ⟨f, hf, hb, hholder⟩ := Picture.holder_of_stored h hstored
    obtain ⟨rfl, rfl⟩ := Prod.mk.inj (Option.some.inj (hholder.symm.trans hd))
    obtain ⟨l, hl, hc⟩ := ht.source f hf
    obtain ⟨hlt, -, -, hu⟩ := hp.frame (ht.planned l hl)
    have hbuffer := hu _ (hc.writes ▸ hb)
    cases hk : start.keyForced with
    | false =>
      rw [hp.picture_delta hk]
      omega
    | true =>
      rw [hp.prepares.lowest hk] at hbuffer
      simp only [LayerGrid.buffer, Nat.one_ne_zero, if_false, if_true] at hbuffer
      omega
  · simp only [not_exists, not_and] at hstored
    rw [Picture.holder_of_not_stored h hstored, Picture.holder_begin, Option.map_eq_some_iff] at hd
    obtain ⟨⟨d', g'⟩, hold, heq⟩ := hd
    have hne := hstart.upper s hs d' g' hold
    obtain ⟨rfl, rfl⟩ := Prod.mk.inj heq
    cases hk : start.keyForced with
    | false =>
      rw [hp.picture_delta hk]
      omega
    | true =>
      rw [hp.picture_key hk]
      omega

/-- Planning a picture changes nothing that matters here. -/
theorem Stages.staged_next {planned : Except Stop PicturePlan × Encoder} (hst : e.Staged h)
    (hstages : e.Stages planned) : planned.2.Staged h := by
  refine ⟨hstages.staged, fun s hs d g hd => ?_⟩
  rw [hstages.mode] at hs
  rw [hstages.follows.targets] at hd
  exact hstages.count ▸ hst.upper s hs d g hd

theorem Taken.staged_next (hp : start.Plans h tid own make sids p)
    (ht : start.Taken h p done gs e) (hstart : start.Staged h)
    (hx : start.controller.Expects place p.frames) : e.Staged (gs :: h) := by
  refine ⟨ht.staged hp hstart.controller hx, fun s hs d g hd => ?_⟩
  rw [ht.mode] at hs
  rw [ht.kept.targets] at hd
  exact ht.number ▸ ht.upper hp hstart hs hd

/-- A step of a run keeps the encoder in step with the pattern. -/
theorem Staged.encoded {next : Encoder} (hst : e.Staged h) (hs : e.Sound h)
    {codec : CodecRequest → CodecAnswer} (hcodec : e.ObeyedBy codec) {timestamp : UInt32}
    {answer : Except LayerError Picture}
    (henc : e.encode timestamp codec = .ok (answer, next)) :
    next.Staged (Picture.emit (answer.toOption.getD []) h) := by
  have hstages := plan_stages hst.controller hs.layered
  have hplanned := hstages.staged_next hst
  rcases encode_ends henc with ⟨why, hplan, rfl⟩ | ⟨p, start, hplan, hends⟩
  · rw [hplan] at hplanned
    exact hplanned
  · rw [hplan] at hstages hplanned
    obtain ⟨hpre, tid, own, make, sids, hp⟩ := hs.plans hplan
    obtain ⟨layers, hlayers, hanswers, -⟩ := hcodec p start hplan
    obtain ⟨place, hx⟩ := hstages.expects p rfl
    rcases hends with ⟨why, hwhy, -⟩ | ⟨_, hcoded, htake⟩
    · rw [hlayers] at hwhy
      cases hwhy
    · cases hlayers.symm.trans hcoded
      obtain ⟨gs, last, hok, -, hcases⟩ := hp.takeLayers hanswers timestamp
      cases htake.symm.trans hok
      rcases hcases with ⟨rfl, rfl⟩ | ⟨hne, ht, -⟩
      · exact hplanned
      · rw [Except.toOption, Option.getD_some, Picture.emit, if_neg (by simpa using hne)]
        exact ht.staged_next hp hplanned hx

def AnsweredBy (e : Encoder) (codec : CodecRequest → CodecAnswer) : Prop :=
  ∀ p next, e.plan = (.ok p, next) → (∃ why, codec (next.request p) = .error why) ∨
    ∃ layers, codec (next.request p) = .ok layers ∧
      CodedLayer.Answers next.keyForced p.frames layers ∧
      (e.mode.keyOnly = true → layers = [] ∨ layers.length = p.frames.length)

theorem ObeyedBy.answered {codec : CodecRequest → CodecAnswer} (hcodec : e.ObeyedBy codec) :
    e.AnsweredBy codec :=
  fun p next hplan => .inr (hcodec p next hplan)

/-- The encoders that are reached from some settings, with any rates and key requests, as long as
the codec codes key frames where they are asked for. -/
inductive Reached (s : EncoderSettings) : Encoder → Prop
  | new {e : Encoder} : Encoder.new s = .ok e → Reached s e
  | setRates {e next : Encoder} (r : LayerRates) :
      Reached s e → e.setRates r = .ok next → Reached s next
  | requestKey {e : Encoder} : Reached s e → Reached s e.requestKey
  | encode {e next : Encoder} {answer : Except LayerError Picture} (timestamp : UInt32)
      (codec : CodecRequest → CodecAnswer) : Reached s e → e.AnsweredBy codec →
      e.encode timestamp codec = .ok (answer, next) → Reached s next

theorem Staged.answered {next : Encoder} (hst : e.Staged h) (hs : e.Sound h)
    {codec : CodecRequest → CodecAnswer} (hcodec : e.AnsweredBy codec) {timestamp : UInt32}
    {answer : Except LayerError Picture}
    (henc : e.encode timestamp codec = .ok (answer, next)) :
    ∃ h, next.Sound h ∧ next.Staged h := by
  have hobeyed (hcodec : e.ObeyedBy codec) : ∃ h, next.Sound h ∧ next.Staged h := by
    have hstaged := hst.encoded hs hcodec henc
    rcases (hs.encoded hcodec henc).2 with ⟨rfl, hsound⟩ | ⟨frames, rfl, hsound⟩
    · exact ⟨h, hsound, hstaged⟩
    · exact ⟨_, hsound, hstaged⟩
  cases hplan : e.plan with
  | mk result start =>
    cases result with
    | error stop =>
      apply hobeyed
      intro p start hok
      rw [hplan] at hok
      cases hok
    | ok p =>
      rcases hcodec p start hplan with ⟨why, hwhy⟩ | hanswers
      · simp only [Encoder.encode, hplan, hwhy, Except.ok.injEq, Prod.mk.injEq] at henc
        obtain ⟨-, rfl⟩ := henc
        obtain ⟨-, tid, own, make, sids, hp⟩ := hs.plans hplan
        have hstaged := (plan_stages hst.controller hs.layered).staged_next hst
        rw [hplan] at hstaged
        exact ⟨h, hp.prepares.sound, hstaged⟩
      · apply hobeyed
        intro p' start' hok
        rw [hplan] at hok
        cases hok
        exact hanswers

/-- Whatever is reached is sound for some pictures and in step with the pattern. -/
theorem Reached.staged {s : EncoderSettings} {id : Nat} (hr : Reached (s.setPictureId id) e) :
    ∃ h, e.Sound h ∧ e.Staged h := by
  induction hr with
  | new hnew =>
    refine ⟨[], sound_new (Nat.mod_lt _ (by decide)) hnew, ?_⟩
    rw [new_eq hnew]
    exact ⟨Controller.staged_ofMode _, by simp [Picture.holder]⟩
  | setRates r _ hset ih =>
    obtain ⟨h, hsound, hstaged⟩ := ih
    refine ⟨h, hsound.setRates hset, ?_⟩
    obtain ⟨range, -, rfl⟩ := setRates_eq hset
    exact ⟨hstaged.controller.setRates r, by simpa using hstaged.upper⟩
  | requestKey _ ih =>
    obtain ⟨h, hsound, hstaged⟩ := ih
    exact ⟨h, hsound.requestKey, hstaged.controller, hstaged.upper⟩
  | encode timestamp codec _ hcodec henc ih =>
    obtain ⟨h, hsound, hstaged⟩ := ih
    exact hstaged.answered hsound hcodec henc

end Encoder
end LayeredRtp
