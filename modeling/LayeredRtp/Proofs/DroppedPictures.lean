import LayeredRtp.Proofs.PreparedPictures

/-! Pictures that the codec drops. Asking a controller for the next picture changes what it
remembers, but asking once more changes nothing further and gives the same frames. So however many
pictures are dropped in a row, the next one is asked for and coded as if there had been none. -/
namespace LayeredRtp

theorem LayerFrame.linked_congr {make make' : Option Nat → Nat → LayerFrame} {below : Option Nat}
    {sids : List Nat} (h : ∀ below, ∀ s ∈ sids, make below s = make' below s) :
    linked make below sids = linked make' below sids := by
  induction sids generalizing below with
  | nil => rfl
  | cons s rest ih =>
    simp only [linked]
    rw [h below s (by simp), ih fun below x hx => h below x (by simp [hx])]

namespace FullController

/-- A layer that is sent keeps its base frame when a base picture begins. -/
theorem baseReady_settle {c : FullController} {s : Nat} (hs : s < 3)
    (ha : c.targets.isActive s 0 = true) : c.settle.baseReady.get s = c.baseReady.get s := by
  simp [settle, PerLayer.get_ofFn _ s hs, ha]

theorem settle_settle (c : FullController) : c.settle.settle = c.settle := by
  simp only [settle, PerLayer.ofFn, PerLayer.get, Bool.and_assoc, Bool.and_self]

theorem basePicture_settle {c : FullController} (h : c.targets.spatial ≤ 3)
    (pattern : TemporalPhase) :
    LayerFrame.linked (c.settle.baseFrame pattern) none (c.targets.activeAt 0) =
      LayerFrame.linked (c.baseFrame pattern) none (c.targets.activeAt 0) := by
  apply LayerFrame.linked_congr
  intro below s hs
  have ha := LayerGrid.mem_activeAt.mp hs
  have hlt := (LayerGrid.lt_of_isActive ha).1
  simp only [baseFrame, baseReady_settle (by omega) ha]
  rfl

theorem framesFor_again {c : FullController} (h : c.targets.spatial ≤ 3)
    (pattern : TemporalPhase) : (c.framesFor pattern).2.framesFor pattern = c.framesFor pattern := by
  cases pattern with
  | key => exact Prod.ext (basePicture_settle h .key) c.settle_settle
  | t0 => exact Prod.ext (basePicture_settle h .t0) c.settle_settle
  | idle | earlyT2 | t1 | lateT2 => rfl

theorem last_framesFor (c : FullController) (pattern : TemporalPhase) :
    (c.framesFor pattern).2.last = c.last := by
  cases pattern <;> rfl

/-- A controller that has come to a key picture asks for it until it is coded. -/
theorem next_keyPicture {c : FullController} (h : c.targets.any = true) (restart : Bool) :
    c.keyPicture.2.next restart = c.keyPicture := by
  have hsame : c.keyPicture.2.keyPicture = c.keyPicture := keyPicture_eq rfl
  rcases c.keyPicture.2.next_cases restart h with hkey | ⟨-, hlast, -⟩
  · exact hkey.trans hsame
  · exact absurd rfl hlast

theorem next_again {c : FullController} (h : c.targets.spatial ≤ 3) (restart : Bool) :
    (c.next restart).2.next restart = c.next restart := by
  by_cases hany : c.targets.any = true
  · rcases c.next_cases restart hany with hkey | ⟨rfl, hlast, hne, hgoing⟩
    · rw [hkey]
      exact next_keyPicture hany restart
    · have hplan := plan_going hlast
      have hstay : (c.plan false).2.plan false = c.plan false := by
        rw [plan_going (by rwa [hplan, last_framesFor]), hplan, targets_framesFor,
          last_framesFor, framesFor_again h]
      rw [hgoing, next_going (by rwa [targets_plan]) (by rwa [hstay]), hstay]
  · simp [next, hany]

theorem isKey_framesFor {c : FullController} {pattern : TemporalPhase} (hp : pattern ≠ .key)
    {f : LayerFrame} (hf : f ∈ (c.framesFor pattern).1) : f.isKey = false := by
  cases pattern with
  | idle => simp [framesFor] at hf
  | key => exact absurd rfl hp
  | t0 =>
    obtain ⟨below, s, -, rfl⟩ := LayerFrame.mem_linked hf
    simp [baseFrame]
  | earlyT2 | t1 | lateT2 =>
    obtain ⟨below, s, -, rfl⟩ := LayerFrame.mem_linked hf
    rfl

/-- After a picture with a key frame, a restart asks for the same picture. -/
theorem next_key {c : FullController} {restart : Bool} {f : LayerFrame}
    (hf : f ∈ (c.next restart).1) (hk : f.isKey = true) :
    (c.next restart).2.next true = c.next restart := by
  by_cases hany : c.targets.any = true
  · rcases c.next_cases restart hany with hkey | ⟨rfl, hlast, -, hgoing⟩
    · rw [hkey]
      exact next_keyPicture hany true
    · rw [hgoing, plan_going hlast] at hf
      rw [isKey_framesFor (LayerGrid.nextPhase_ne_key hlast) hf] at hk
      cases hk
  · simp [next, hany] at hf

end FullController

namespace KeyController

/-- A key picture depends only on which layers are sent. -/
theorem keyPicture_eq {c c' : KeyController} (h : c'.targets = c.targets) :
    c'.keyPicture = c.keyPicture := by
  cases c
  cases c'
  cases h
  rfl

theorem settle_settle (c : KeyController) : c.settle.settle = c.settle := by
  simp only [settle, PerLayer.ofFn, PerLayer.get, Bool.and_assoc, Bool.and_self]

theorem framesFor_again (c : KeyController) (pattern : TemporalPhase) :
    (c.framesFor pattern).2.framesFor pattern = c.framesFor pattern := by
  cases pattern with
  | t0 => exact Prod.ext rfl c.settle_settle
  | idle | key | earlyT2 | t1 | lateT2 => rfl

theorem targets_framesFor (c : KeyController) (pattern : TemporalPhase) :
    (c.framesFor pattern).2.targets = c.targets := by
  cases pattern <;> rfl

theorem last_framesFor (c : KeyController) (pattern : TemporalPhase) :
    (c.framesFor pattern).2.last = c.last := by
  cases pattern <;> rfl

theorem next_going {c : KeyController} (h : c.targets.any = true) :
    c.next false = c.framesFor (c.targets.nextPhase c.last) := by
  simp [next, h]

/-- A controller that has come to a key picture asks for it until it is coded. -/
theorem next_keyPicture {c : KeyController} (h : c.targets.any = true) (restart : Bool) :
    c.keyPicture.2.next restart = c.keyPicture := by
  have hsame : c.keyPicture.2.keyPicture = c.keyPicture := keyPicture_eq rfl
  rcases c.keyPicture.2.next_cases restart h with hkey | ⟨-, hlast, -⟩
  · exact hkey.trans hsame
  · exact absurd rfl hlast

theorem next_again (c : KeyController) (restart : Bool) :
    (c.next restart).2.next restart = c.next restart := by
  by_cases hany : c.targets.any = true
  · rcases c.next_cases restart hany with hkey | ⟨rfl, hlast, hgoing⟩
    · rw [hkey]
      exact next_keyPicture hany restart
    · rw [hgoing, next_going (by rwa [targets_framesFor]), targets_framesFor, last_framesFor,
        framesFor_again]
  · simp [next, hany]

theorem isKey_framesFor {c : KeyController} {pattern : TemporalPhase} (hp : pattern ≠ .key)
    {f : LayerFrame} (hf : f ∈ (c.framesFor pattern).1) : f.isKey = false := by
  cases pattern with
  | idle => simp [framesFor] at hf
  | key => exact absurd rfl hp
  | t0 | earlyT2 | t1 | lateT2 =>
    obtain ⟨s, -, rfl⟩ := List.mem_map.mp hf
    rfl

/-- After a picture with a key frame, a restart asks for the same picture. -/
theorem next_key {c : KeyController} {restart : Bool} {f : LayerFrame}
    (hf : f ∈ (c.next restart).1) (hk : f.isKey = true) :
    (c.next restart).2.next true = c.next restart := by
  by_cases hany : c.targets.any = true
  · rcases c.next_cases restart hany with hkey | ⟨rfl, hlast, hgoing⟩
    · rw [hkey]
      exact next_keyPicture hany true
    · rw [hgoing] at hf
      rw [isKey_framesFor (LayerGrid.nextPhase_ne_key hlast) hf] at hk
      cases hk
  · simp [next, hany] at hf

end KeyController

namespace Controller

theorem next_again {c : Controller} (h : c.targets.spatial ≤ 3) (restart : Bool) :
    (c.next restart).2.next restart = c.next restart := by
  cases c with
  | full c => exact congrArg (Prod.map id full) (FullController.next_again h restart)
  | key c => exact congrArg (Prod.map id key) (c.next_again restart)

theorem next_key {c : Controller} {restart : Bool} {f : LayerFrame}
    (hf : f ∈ (c.next restart).1) (hk : f.isKey = true) :
    (c.next restart).2.next true = c.next restart := by
  cases c with
  | full c => exact congrArg (Prod.map id full) (FullController.next_key hf hk)
  | key c => exact congrArg (Prod.map id key) (KeyController.next_key hf hk)

theorem targets_next (c : Controller) (restart : Bool) :
    (c.next restart).2.targets = c.targets := by
  cases c with
  | full c =>
    change (c.next restart).2.targets = c.targets
    by_cases hany : c.targets.any = true
    · rcases c.next_cases restart hany with hkey | ⟨rfl, -, -, hgoing⟩
      · rw [hkey]
        rfl
      · rw [hgoing, FullController.targets_plan]
    · simp [FullController.next, hany]
  | key c =>
    change (c.next restart).2.targets = c.targets
    by_cases hany : c.targets.any = true
    · rcases c.next_cases restart hany with hkey | ⟨rfl, -, hgoing⟩
      · rw [hkey]
        rfl
      · rw [hgoing, KeyController.targets_framesFor]
    · simp [KeyController.next, hany]

theorem targets_done {c c' : Controller} {f : LayerFrame} {r : FrameReport}
    (h : c.done f = .ok (r, c')) : c'.targets = c.targets := by
  cases c with
  | full c =>
    simp only [done, FullController.done] at h
    split at h <;> cases h
    rfl
  | key c =>
    simp only [done, KeyController.done] at h
    split at h <;> cases h
    rfl

end Controller

namespace Encoder

variable {e next : Encoder} {p : PicturePlan} {timestamp : UInt32}

inductive Arises (s : EncoderSettings) : Encoder → Prop
  | new {e : Encoder} : Encoder.new s = .ok e → Arises s e
  | setRates {e next : Encoder} (r : LayerRates) :
      Arises s e → e.setRates r = .ok next → Arises s next
  | requestKey {e : Encoder} : Arises s e → Arises s e.requestKey
  | encode {e next : Encoder} {answer : Except LayerError Picture} (timestamp : UInt32)
      (codec : CodecRequest → CodecAnswer) : Arises s e →
      e.encode timestamp codec = .ok (answer, next) → Arises s next

def asks (e : Encoder) : Option CodecRequest :=
  match e.plan with
  | (.ok p, next) => some (next.request p)
  | (.error _, _) => none

/-- Pictures in a row that the codec drops: each time it is asked for one, and fails or delivers
no layer. -/
inductive Drops : Encoder → Encoder → Prop
  | refl (e : Encoder) : Drops e e
  | encode {e last next : Encoder} {request : CodecRequest}
      {answer : Except LayerError Picture} (timestamp : UInt32)
      (codec : CodecRequest → CodecAnswer) : Drops e last → last.asks = some request →
      (codec request = .ok [] ∨ ∃ why, codec request = .error why) →
      last.encode timestamp codec = .ok (answer, next) → Drops e next

theorem keeps_planOnce (e : Encoder) : e.Keeps e.planOnce.2 := by
  obtain ⟨forced, -, hnext⟩ := e.planOnce_leaves
  exact hnext ▸ ⟨rfl, e.controller.targets_next e.keyForced⟩

theorem plan_cases (e : Encoder) : e.plan = e.planOnce ∨
    e.plan = e.planOnce.2.requestKey.planOnce := by
  unfold plan
  split
  · rename_i hold
    rw [hold]
    split
    · exact .inl rfl
    · exact .inr rfl
  · exact .inl rfl

/-- However often it is attempted, planning leaves all but the state of the controller and the want
of a key picture. -/
theorem plan_leaves (e : Encoder) : ∃ c forced, c.targets = e.controller.targets ∧
    (e.keyForced = true → forced = true) ∧
    e.plan.2 = { e with controller := c, keyForced := forced } := by
  obtain ⟨forced, hforced, honce⟩ := e.planOnce_leaves
  have htargets := e.controller.targets_next e.keyForced
  rcases e.plan_cases with h | h
  · exact ⟨_, forced, htargets, hforced, h ▸ honce⟩
  · obtain ⟨again, hagain, hnext⟩ := e.planOnce.2.requestKey.planOnce_leaves
    rw [h, hnext, honce]
    exact ⟨_, again, (Controller.targets_next _ _).trans htargets, fun _ => hagain rfl, rfl⟩

theorem keeps_plan (e : Encoder) : e.Keeps e.plan.2 := by
  obtain ⟨c, forced, htargets, -, hplan⟩ := e.plan_leaves
  exact hplan ▸ ⟨rfl, htargets⟩

theorem keeps_acceptLayer {layer : CodedLayer} {f : LayerFrame} {first endOfPicture : Bool}
    {g : EncodedFrame}
    (h : e.acceptLayer layer f p first endOfPicture timestamp = .ok (g, next)) : e.Keeps next := by
  obtain ⟨_, _, _, hdone, -, -, rfl⟩ := acceptLayer_cases h
  exact ⟨rfl, Controller.targets_done hdone⟩

theorem keeps_takeLayer {layer : CodedLayer} {f : LayerFrame} {first endOfPicture : Bool}
    {answer : Except LayerError EncodedFrame}
    (h : e.takeLayer layer f p first endOfPicture timestamp = .ok (answer, next)) :
    e.Keeps next := by
  rcases takeLayer_ends h with ⟨-, rfl, -⟩ | ⟨g, -, -, haccept⟩
  · exact ⟨rfl, rfl⟩
  · have hentered : e.Keeps (e.entered layer first) := by
      cases first <;> exact ⟨rfl, rfl⟩
    exact hentered.trans (keeps_acceptLayer haccept)

theorem keeps_takeLayers {layers : List CodedLayer} {first : Bool}
    {answer : Except LayerError Picture}
    (h : e.takeLayers p timestamp first layers = .ok (answer, next)) : e.Keeps next := by
  induction layers generalizing e first answer with
  | nil =>
    cases h
    exact ⟨rfl, rfl⟩
  | cons layer rest ih =>
    rcases takeLayers_ends h with
      ⟨-, rfl, -⟩ | ⟨f, -, ⟨why, -, hrefused⟩ | ⟨g, mid, more, htake, hrest, -⟩⟩
    · exact ⟨rfl, rfl⟩
    · exact keeps_takeLayer hrefused
    · exact (keeps_takeLayer htake).trans (ih hrest)

theorem keeps_encode {codec : CodecRequest → CodecAnswer} {answer : Except LayerError Picture}
    (h : e.encode timestamp codec = .ok (answer, next)) : e.Keeps next := by
  have hkeeps := e.keeps_plan
  rcases encode_ends h with
    ⟨why, hplan, -⟩ | ⟨p, start, hplan, ⟨why, -, -, rfl⟩ | ⟨layers, -, htake⟩⟩
  · rwa [hplan] at hkeeps
  · rwa [hplan] at hkeeps
  · rw [hplan] at hkeeps
    exact hkeeps.trans (keeps_takeLayers htake)

theorem Arises.spatial {s : EncoderSettings} (h : Arises s e) :
    e.controller.targets.spatial = e.mode.spatial := by
  induction h with
  | new hnew => rw [new_eq hnew, Controller.targets_ofMode]
  | setRates r _ hset ih =>
    obtain ⟨range, -, rfl⟩ := setRates_eq hset
    simpa using ih
  | requestKey _ ih => exact ih
  | encode timestamp codec _ henc ih =>
    have hkeeps := keeps_encode henc
    rw [hkeeps.targets, hkeeps.mode, ih]

/-- One more attempt at the same picture finds the same frames, and the same plan for them. -/
theorem planOnce_again (h : e.controller.targets.spatial ≤ 3) :
    e.planOnce.2.planOnce = e.planOnce := by
  have hagain := Controller.next_again h e.keyForced
  cases hnext : e.controller.next e.keyForced with
  | mk frames c =>
    rw [hnext] at hagain
    cases frames with
    | nil =>
      rw [planOnce_nil hnext]
      exact planOnce_nil hagain
    | cons first rest =>
      have hforced : c.next (e.keyForced || first.isKey) = (first :: rest, c) := by
        cases hk : first.isKey with
        | false => rwa [Bool.or_false]
        | true =>
          have hfirst : first ∈ (e.controller.next e.keyForced).1 := by simp [hnext]
          have hkey := Controller.next_key hfirst hk
          rwa [hnext, ← Bool.or_true e.keyForced] at hkey
      rw [planOnce_cons hnext]
      refine (planOnce_cons hforced).trans ?_
      simp only [Bool.or_assoc, Bool.or_self]

/-- A plan that was made once is made again, from the state that it leaves. -/
theorem plan_again (h : e.controller.targets.spatial ≤ 3) (hplan : e.plan = (.ok p, next)) :
    next.plan = (.ok p, next) := by
  have honce : next.planOnce = (.ok p, next) := by
    rcases e.plan_cases with heq | heq
    · have hagain := planOnce_again h
      rwa [← heq, hplan] at hagain
    · have hagain := planOnce_again (e := e.planOnce.2.requestKey)
        (e.keeps_planOnce.targets ▸ h)
      rwa [← heq, hplan] at hagain
  simp only [plan, honce]

theorem plan_of_asks {request : CodecRequest} (h : e.asks = some request) :
    ∃ p next, e.plan = (.ok p, next) ∧ request = next.request p := by
  unfold asks at h
  split at h
  · rename_i p next hplan
    cases h
    exact ⟨p, next, hplan, rfl⟩
  · cases h

/-- A dropped picture leaves the encoder as planning it did. -/
theorem plan_of_dropped {request : CodecRequest} {codec : CodecRequest → CodecAnswer}
    {answer : Except LayerError Picture} (hasks : e.asks = some request)
    (hdrop : codec request = .ok [] ∨ ∃ why, codec request = .error why)
    (henc : e.encode timestamp codec = .ok (answer, next)) :
    ∃ p, e.plan = (.ok p, next) := by
  obtain ⟨p, start, hplan, rfl⟩ := plan_of_asks hasks
  rcases hdrop with hempty | ⟨why, hfail⟩
  · simp only [Encoder.encode, hplan, hempty, takeLayers] at henc
    cases henc
    exact ⟨p, hplan⟩
  · simp only [Encoder.encode, hplan, hfail] at henc
    cases henc
    exact ⟨p, hplan⟩

theorem Drops.plan_eq {s : EncoderSettings} {dropped : Encoder} (h : e.Drops dropped)
    (he : Arises s e) : Arises s dropped ∧ dropped.plan = e.plan := by
  induction h with
  | refl => exact ⟨he, rfl⟩
  | encode timestamp codec _ hasks hdrop henc ih =>
    obtain ⟨hlast, hplan⟩ := ih
    have hbound : _ ≤ 3 := hlast.spatial ▸ (Encoder.mode _).spatial_bounds.2
    obtain ⟨p, hp⟩ := plan_of_dropped hasks hdrop henc
    exact ⟨hlast.encode timestamp codec henc, (plan_again hbound hp).trans (hp.symm.trans hplan)⟩

/-- What is coded depends on the codec only by its answer to what it is asked. -/
theorem encode_congr {other : Encoder} {codec codec' : CodecRequest → CodecAnswer}
    (hplan : other.plan = e.plan)
    (hanswer : ∀ request, e.asks = some request → codec' request = codec request)
    (timestamp : UInt32) : other.encode timestamp codec' = e.encode timestamp codec := by
  cases h : e.plan with
  | mk result start =>
    cases result with
    | error stop => cases stop <;> simp only [Encoder.encode, hplan, h]
    | ok p =>
      have heq := hanswer (start.request p) (by simp [asks, h])
      simp only [Encoder.encode, hplan, h, heq]

/-- However many pictures the codec drops in a row, it is then asked for the same as if there had
been none, and with the same answer the encoder gives the same result and is in the same state. -/
theorem Drops.invisible {s : EncoderSettings} {dropped : Encoder} (he : Arises s e)
    (h : e.Drops dropped) {codec codec' : CodecRequest → CodecAnswer}
    (hanswer : ∀ request, e.asks = some request → codec' request = codec request)
    (timestamp : UInt32) : dropped.asks = e.asks ∧
      dropped.encode timestamp codec' = e.encode timestamp codec := by
  have hplan := (h.plan_eq he).2
  exact ⟨by simp only [asks, hplan], encode_congr hplan hanswer timestamp⟩

/-- The upper of two layers was turned off. The first picture without it is dropped twice, which
makes the controller forget that layer but does not show in the picture that is coded next. -/
theorem invisible_twice : ∃ (s : EncoderSettings) (e dropped : Encoder)
    (codec : CodecRequest → CodecAnswer), Arises s e ∧ e.Drops dropped ∧ dropped ≠ e ∧
    (e.encode 0 codec).toOption.map (fun x => x.1.toOption.map (·.map (·.descriptor.distances))) =
      some (some [[1]]) ∧
    dropped.asks = e.asks ∧ dropped.encode 0 codec = e.encode 0 codec := by
  let s : EncoderSettings :=
    { width := 320, height := 180, mode := { spatial := 2, temporal := 1 } }
  let codes (layers : List CodedLayer) : CodecRequest → CodecAnswer := fun _ => .ok layers
  obtain ⟨e, dropped, harises, hdrops, hne, hcoded⟩ : ∃ e dropped, Arises s e ∧
      e.Drops dropped ∧ dropped ≠ e ∧
      (e.encode 0 (codes [⟨0, 0, false, [3]⟩])).toOption.map
          (fun x => x.1.toOption.map (·.map (·.descriptor.distances))) = some (some [[1]]) := by
    refine ⟨_, _, .setRates (LayerRates.set {} 0 0 ⟨1000⟩)
      (.encode 0 (codes [⟨0, 0, true, [1]⟩, ⟨1, 0, false, [2]⟩]) (.new rfl) rfl) rfl,
      .encode 0 (fun _ => .error .noLayers) (.encode 0 (codes []) (.refl _) rfl (.inl rfl) rfl)
        rfl (.inr ⟨_, rfl⟩) rfl, by decide, rfl⟩
  exact ⟨s, e, dropped, _, harises, hdrops, hne, hcoded,
    hdrops.invisible harises (fun _ _ => rfl) 0⟩

end Encoder
end LayeredRtp
