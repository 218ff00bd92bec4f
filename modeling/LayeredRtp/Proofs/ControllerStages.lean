import LayeredRtp.Proofs.SoundEncoder

/-! Where in the temporal pattern a controller stands. Middle frames are remembered only from the
picture that stored them to the next one of the lowest temporal layer, so a controller that stands
before them remembers none. -/
namespace LayeredRtp

def TemporalPhase.isEarly : TemporalPhase → Bool
  | key | t0 | earlyT2 => true
  | idle | t1 | lateT2 => false

namespace LayerGrid

def Whole (g : LayerGrid) : Prop :=
  ∀ s < g.spatial, ∀ t < g.temporal, g.isActive s t = true

theorem Whole.any {g : LayerGrid} (hg : g.Whole) (hs : 0 < g.spatial) (ht : 0 < g.temporal) :
    g.any = true := by
  simp only [LayerGrid.any, spatialIds, List.any_eq_true, List.mem_range]
  exact ⟨0, hs, 0, ht, hg 0 hs 0 ht⟩

theorem temporal_pos {g : LayerGrid} (h : g.any = true) : 0 < g.temporal := by
  simp only [LayerGrid.any, List.any_eq_true, List.mem_range] at h
  obtain ⟨s, -, t, ht, -⟩ := h
  exact Nat.zero_lt_of_lt ht

theorem lt_of_sendsTemporal {g : LayerGrid} {t : Nat} (h : g.sendsTemporal t = true) :
    t < g.temporal := by
  simp only [sendsTemporal, List.any_eq_true] at h
  obtain ⟨s, -, ha⟩ := h
  exact (lt_of_isActive ha).2

/-- The pattern comes to the middle layer, and to the highest one before it, from an early
place. -/
theorem isEarly_of_nextPhase {g : LayerGrid} {last : TemporalPhase}
    (h : g.nextPhase last = .t1 ∨ g.nextPhase last = .earlyT2) : last.isEarly = true := by
  cases last with
  | key | t0 | earlyT2 => rfl
  | idle | lateT2 => simp [nextPhase] at h
  | t1 =>
    simp only [nextPhase] at h
    split at h <;> simp at h

theorem sendsTemporal_of_lateT2 {g : LayerGrid} {last : TemporalPhase}
    (h : g.nextPhase last = .lateT2) : g.sendsTemporal 2 = true := by
  cases htop : g.sendsTemporal 2 with
  | true => rfl
  | false =>
    cases hmiddle : g.sendsTemporal 1 <;> cases last <;> simp [nextPhase, htop, hmiddle] at h

end LayerGrid

namespace Controller

/-- What a controller remembers of middle frames fits its place in the pattern. -/
structure Staged (c : Controller) : Prop where
  cleared : c.last.isEarly = true → ∀ s < 3, c.middleReady s = false
  based : ∀ s < 3, c.middleReady s = true →
    s < c.targets.spatial ∧ (c.isFull = true → c.baseReady s = true)

theorem Staged.of_cleared {c : Controller} (h : ∀ s < 3, c.middleReady s = false) :
    c.Staged := by
  constructor
  case cleared => exact fun _ => h
  case based =>
    intro s hs hm
    rw [h s hs] at hm
    cases hm

theorem staged_ofMode (m : ScalabilityMode) : (ofMode m).Staged := by
  apply Staged.of_cleared
  intro s _
  unfold ofMode
  split <;> simp [middleReady]

theorem Staged.setRates {c : Controller} (hc : c.Staged) (r : LayerRates) :
    (c.setRates r).Staged := by
  constructor
  case cleared =>
    intro hearly
    simp only [middleReady_setRates]
    apply hc.cleared
    cases c with
    | full c => exact hearly
    | key c =>
      simp only [Controller.setRates, KeyController.setRates, Controller.last] at hearly ⊢
      split at hearly
      · cases hearly
      · exact hearly
  case based => simpa using hc.based

structure Expects (c : Controller) (place : TemporalPhase) (frames : List LayerFrame) : Prop where
  placed : place ≠ .idle
  tag : ∀ f ∈ frames, TemporalPhase.ofTag f.tag = place
  cleared : place.isEarly = true →
    (∀ s < 3, c.middleReady s = false) ∧ ∀ f ∈ frames, f.temporal ≠ 1
  based : c.isFull = true → ∀ f ∈ frames, f.temporal = 1 → c.baseReady f.spatial = true
  going : c.last ≠ .idle ∨ ∃ f, frames.head? = some f ∧ f.isKey = true

theorem Expects.linked {c : Controller} {place : TemporalPhase} (tid : Nat) {sids : List Nat}
    {make : Option Nat → Nat → LayerFrame} (hplaced : place ≠ .idle)
    (hmake : ∀ below s, TemporalPhase.ofTag (make below s).tag = place ∧
      (make below s).spatial = s ∧ (make below s).temporal = tid)
    (hcleared : place.isEarly = true → (∀ s < 3, c.middleReady s = false) ∧ tid ≠ 1)
    (hbased : c.isFull = true → tid = 1 → ∀ s ∈ sids, c.baseReady s = true)
    (hgoing : c.last ≠ .idle ∨ sids ≠ [] ∧ ∀ s, (make none s).isKey = true) :
    c.Expects place (LayerFrame.linked make none sids) := by
  constructor
  case placed => exact hplaced
  case tag =>
    intro f hf
    obtain ⟨below, s, -, rfl⟩ := LayerFrame.mem_linked hf
    exact (hmake below s).1
  case cleared =>
    intro hearly
    refine ⟨(hcleared hearly).1, fun f hf => ?_⟩
    obtain ⟨below, s, -, rfl⟩ := LayerFrame.mem_linked hf
    exact (hmake below s).2.2 ▸ (hcleared hearly).2
  case based =>
    intro hfull f hf htid
    obtain ⟨below, s, hs, rfl⟩ := LayerFrame.mem_linked hf
    rw [(hmake below s).2.1]
    exact hbased hfull ((hmake below s).2.2.symm.trans htid) s hs
  case going =>
    refine hgoing.imp id ?_
    rintro ⟨hsome, hkey⟩
    obtain ⟨s, rest, rfl⟩ := List.exists_cons_of_ne_nil hsome
    exact ⟨make none s, rfl, hkey s⟩

end Controller

namespace FullController

theorem keyPicture_staged {c : FullController} (hg : c.targets.Layered)
    (h : c.targets.any = true) : (Controller.full c.keyPicture.2).Staged ∧
      (Controller.full c.keyPicture.2).Expects .key c.keyPicture.1 := by
  have hclear (s : Nat) : (Controller.full c.keyPicture.2).middleReady s = false := by
    simp [Controller.middleReady, keyPicture, framesFor, settle]
  refine ⟨.of_cleared fun s _ => hclear s, ?_⟩
  refine .linked 0 (by simp) (fun _ _ => ⟨rfl, rfl, rfl⟩) (fun _ => ?_) (by simp)
    (.inr ⟨LayerGrid.activeAt_ne_nil hg h, fun _ => rfl⟩)
  exact ⟨fun s _ => hclear s, by simp⟩

theorem plan_staged {c : FullController} (hc : (Controller.full c).Staged)
    (hlast : c.last ≠ .idle) : (Controller.full (c.plan false).2).Staged ∧
      ∃ place, (Controller.full (c.plan false).2).Expects place (c.plan false).1 := by
  rw [plan_going hlast]
  rcases c.targets.nextPhase_cases hlast with hp | ⟨hp, -⟩ | ⟨hp, -⟩ | ⟨hp, -⟩ <;> rw [hp]
  case inl =>
    have hclear (s : Nat) : (Controller.full c.settle).middleReady s = false := by
      simp [Controller.middleReady, settle]
    refine ⟨.of_cleared fun s _ => hclear s, .t0, ?_⟩
    refine .linked 0 (by simp) (fun _ _ => ⟨rfl, rfl, rfl⟩) (fun _ => ?_) (by simp)
      (.inl hlast)
    exact ⟨fun s _ => hclear s, by simp⟩
  case inr.inl =>
    refine ⟨hc, .t1, ?_⟩
    refine .linked 1 (by simp) (fun _ _ => ⟨rfl, rfl, rfl⟩)
      (by simp [TemporalPhase.isEarly]) (fun _ _ s hs => ?_) (.inl hlast)
    exact (mem_readyAt.mp hs).2
  case inr.inr.inl =>
    refine ⟨hc, .earlyT2, ?_⟩
    refine .linked 2 (by simp) (fun _ _ => ⟨rfl, rfl, rfl⟩) (fun _ => ?_) (by simp)
      (.inl hlast)
    exact ⟨hc.cleared (LayerGrid.isEarly_of_nextPhase (.inr hp)), by simp⟩
  case inr.inr.inr =>
    refine ⟨hc, .lateT2, ?_⟩
    exact .linked 2 (by simp) (fun _ _ => ⟨rfl, rfl, rfl⟩)
      (by simp [TemporalPhase.isEarly]) (by simp) (.inl hlast)

end FullController

namespace KeyController

theorem keyPicture_staged {c : KeyController} (hg : c.targets.Layered)
    (h : c.targets.any = true) : (Controller.key c.keyPicture.2).Staged ∧
      (Controller.key c.keyPicture.2).Expects .key c.keyPicture.1 := by
  have hclear (s : Nat) : (Controller.key c.keyPicture.2).middleReady s = false := by
    simp [Controller.middleReady, keyPicture, framesFor, startKey]
  refine ⟨.of_cleared fun s _ => hclear s, ?_⟩
  refine .linked 0 (by simp) (fun _ _ => ⟨rfl, rfl, rfl⟩) (fun _ => ?_) (by simp)
    (.inr ⟨LayerGrid.activeAt_ne_nil hg h, fun _ => rfl⟩)
  exact ⟨fun s _ => hclear s, by simp⟩

theorem framesFor_staged {c : KeyController} (hc : (Controller.key c).Staged)
    (hlast : c.last ≠ .idle) :
    let planned := c.framesFor (c.targets.nextPhase c.last)
    (Controller.key planned.2).Staged ∧
      ∃ place, (Controller.key planned.2).Expects place planned.1 := by
  rcases c.targets.nextPhase_cases hlast with hp | ⟨hp, -⟩ | ⟨hp, -⟩ | ⟨hp, -⟩ <;>
    rw [hp] <;> simp only [framesFor, ← LayerFrame.linked_const _ none]
  case inl =>
    have hclear (s : Nat) : (Controller.key c.settle).middleReady s = false := by
      simp [Controller.middleReady, settle]
    refine ⟨.of_cleared fun s _ => hclear s, .t0, ?_⟩
    refine .linked 0 (by simp) (fun _ _ => ⟨rfl, rfl, rfl⟩) (fun _ => ?_) (by simp)
      (.inl hlast)
    exact ⟨fun s _ => hclear s, by simp⟩
  case inr.inl =>
    refine ⟨hc, .t1, ?_⟩
    exact .linked 1 (by simp) (fun _ _ => ⟨rfl, rfl, rfl⟩)
      (by simp [TemporalPhase.isEarly]) (by simp [Controller.isFull]) (.inl hlast)
  case inr.inr.inl =>
    refine ⟨hc, .earlyT2, ?_⟩
    refine .linked 2 (by simp) (fun _ _ => ⟨rfl, rfl, rfl⟩) (fun _ => ?_) (by simp)
      (.inl hlast)
    exact ⟨hc.cleared (LayerGrid.isEarly_of_nextPhase (.inr hp)), by simp⟩
  case inr.inr.inr =>
    refine ⟨hc, .lateT2, ?_⟩
    exact .linked 2 (by simp) (fun _ _ => ⟨rfl, rfl, rfl⟩)
      (by simp [TemporalPhase.isEarly]) (by simp) (.inl hlast)

end KeyController

namespace Controller

/-- Choosing the next picture leaves a controller that expects its frames. -/
theorem Staged.next {c : Controller} (hc : c.Staged) (hg : c.targets.Layered) (restart : Bool) :
    (c.next restart).2.Staged ∧ ((c.next restart).1 ≠ [] →
      ∃ place, (c.next restart).2.Expects place (c.next restart).1) := by
  cases c with
  | full c =>
    simp only [Controller.next, Prod.map_fst, Prod.map_snd, id_eq]
    cases h : c.targets.any with
    | false =>
      simp only [FullController.next, h, Bool.not_false, if_true, ne_eq, not_true_eq_false,
        false_implies, and_true]
      exact ⟨by simp [Controller.last, TemporalPhase.isEarly], hc.based⟩
    | true =>
      rcases c.next_cases restart h with hkey | ⟨rfl, hlast, -, hgoing⟩
      · rw [hkey]
        obtain ⟨hstaged, hexpects⟩ := FullController.keyPicture_staged hg h
        exact ⟨hstaged, fun _ => ⟨.key, hexpects⟩⟩
      · rw [hgoing]
        obtain ⟨hstaged, hexpects⟩ := FullController.plan_staged hc hlast
        exact ⟨hstaged, fun _ => hexpects⟩
  | key c =>
    simp only [Controller.next, Prod.map_fst, Prod.map_snd, id_eq]
    cases h : c.targets.any with
    | false =>
      simp only [KeyController.next, h, Bool.not_false, if_true, ne_eq, not_true_eq_false,
        false_implies, and_true]
      exact ⟨by simp [Controller.last, TemporalPhase.isEarly], hc.based⟩
    | true =>
      rcases c.next_cases restart h with hkey | ⟨rfl, hlast, hgoing⟩
      · rw [hkey]
        obtain ⟨hstaged, hexpects⟩ := KeyController.keyPicture_staged hg h
        exact ⟨hstaged, fun _ => ⟨.key, hexpects⟩⟩
      · rw [hgoing]
        obtain ⟨hstaged, hexpects⟩ := KeyController.framesFor_staged hc hlast
        exact ⟨hstaged, fun _ => hexpects⟩

end Controller

def LayerFrame.Recalls (frames : List LayerFrame) (b : Nat) : Prop :=
  ∃ lower f upper, frames = lower ++ f :: upper ∧ b ∈ f.references ∧ ∀ l ∈ lower, b ∉ l.updates

theorem LayerFrame.Recalls.ne_nil {frames : List LayerFrame} {b : Nat}
    (h : LayerFrame.Recalls frames b) : frames.isEmpty = false := by
  obtain ⟨lower, f, upper, rfl, -⟩ := h
  simp

/-- The frames of lower layers leave the buffers of a layer as they were. -/
theorem Makes.recalls {g : LayerGrid} {tid : Nat} {links : Bool} {own : Nat → List Nat}
    {make : Option Nat → Nat → LayerFrame} (hm : Makes g tid links own make) {below : Option Nat}
    {sids : List Nat} {s t : Nat} (hs : s ∈ sids) (hsort : sids.Pairwise (· < ·))
    (hlt : ∀ x ∈ sids, x < g.spatial) (href : ∀ k, g.buffer s t ∈ (make k s).references) :
    LayerFrame.Recalls (LayerFrame.linked make below sids) (g.buffer s t) := by
  induction sids generalizing below with
  | nil => simp at hs
  | cons a rest ih =>
    obtain ⟨hlow, hsort⟩ := List.pairwise_cons.mp hsort
    cases List.mem_cons.mp hs with
    | inl he =>
      subst he
      exact ⟨[], make below s, LayerFrame.linked make (some s) rest, rfl, href below, by simp⟩
    | inr hs =>
      have hrest : LayerFrame.Recalls (LayerFrame.linked make (some a) rest) (g.buffer s t) :=
        ih hs hsort fun x hx => hlt x (by simp [hx])
      obtain ⟨lower, f, upper, heq, hb, hfree⟩ := hrest
      refine ⟨make below a :: lower, f, upper, by simp [LayerFrame.linked, heq], hb, ?_⟩
      intro l hl hu
      cases List.mem_cons.mp hl with
      | inl he =>
        subst he
        have hsame := g.buffer_inj (hlt s (by simp [hs])) (hlt a (by simp))
          (hm.updates below a _ hu)
        have := hlow s hs
        omega
      | inr hl => exact hfree l hl hu

def Controller.ownBuffer (c : Controller) (place : TemporalPhase) (s : Nat) : Nat :=
  c.targets.buffer s (if place = .lateT2 ∧ c.middleReady s = true then 1 else 0)

namespace FullController

theorem recalls {c : FullController} (hg : c.targets.Whole) (h : c.targets.any = true)
    (hlast : c.last ≠ .idle) {s : Nat} (hs : s < c.targets.spatial)
    (hr : c.baseReady.get s = true) : LayerFrame.Recalls (c.next false).1
      ((Controller.full c).ownBuffer (c.targets.nextPhase c.last) s) := by
  have hready (tid : Nat) (x : Nat) (hx : x ∈ c.readyAt tid) : x < c.targets.spatial :=
    (LayerGrid.lt_of_isActive (mem_readyAt.mp hx).1).1
  have hin (tid : Nat) (ht : c.targets.sendsTemporal tid = true) : s ∈ c.readyAt tid :=
    mem_readyAt.mpr ⟨hg s hs tid (LayerGrid.lt_of_sendsTemporal ht), hr⟩
  have hplan : LayerFrame.Recalls (c.plan false).1
      ((Controller.full c).ownBuffer (c.targets.nextPhase c.last) s) := by
    rw [plan_going hlast]
    rcases c.targets.nextPhase_cases hlast with hp | ⟨hp, ht⟩ | ⟨hp, ht⟩ | ⟨hp, ht⟩ <;> rw [hp]
    · have hin := LayerGrid.mem_activeAt.mpr (hg s hs 0 (LayerGrid.temporal_pos h))
      refine (c.makes_base .t0).recalls hin (c.targets.sorted_activeAt 0)
        (fun x hx => (LayerGrid.lt_of_isActive (LayerGrid.mem_activeAt.mp hx)).1) (fun k => ?_)
      simp [references_baseFrame, ownBase, hr]
    · refine c.makes_middle.recalls (hin 1 ht) (c.readyAt_sorted 1) (hready 1) (fun k => ?_)
      simp [references_middleFrame]
    · refine (c.makes_top .earlyT2).recalls (hin 2 ht) (c.readyAt_sorted 2) (hready 2)
        (fun k => ?_)
      simp [references_topFrame, ownTop]
    · refine (c.makes_top .lateT2).recalls (hin 2 ht) (c.readyAt_sorted 2) (hready 2)
        (fun k => ?_)
      simp [references_topFrame, ownTop, Controller.middleReady]
  rwa [next_going h hplan.ne_nil]

end FullController

namespace KeyController

theorem recalls {c : KeyController} (hc : (Controller.key c).Staged) (hg : c.targets.Whole)
    (h : c.targets.any = true) (hlast : c.last ≠ .idle) {s : Nat} (hs : s < c.targets.spatial)
    (hthree : s < 3) : LayerFrame.Recalls (c.next false).1
      ((Controller.key c).ownBuffer (c.targets.nextPhase c.last) s) := by
  have hlt (tid : Nat) (x : Nat) (hx : x ∈ c.targets.activeAt tid) : x < c.targets.spatial :=
    (LayerGrid.lt_of_isActive (LayerGrid.mem_activeAt.mp hx)).1
  have hin (tid : Nat) (ht : tid < c.targets.temporal) : s ∈ c.targets.activeAt tid :=
    LayerGrid.mem_activeAt.mpr (hg s hs tid ht)
  have hsort := c.targets.sorted_activeAt
  have hplan : c.next false = c.framesFor (c.targets.nextPhase c.last) := by simp [next, h]
  rw [hplan]
  rcases c.targets.nextPhase_cases hlast with hp | ⟨hp, ht⟩ | ⟨hp, ht⟩ | ⟨hp, ht⟩ <;>
    rw [hp] <;> simp only [framesFor, ← LayerFrame.linked_const _ none]
  · refine c.makes_base.recalls (hin 0 (LayerGrid.temporal_pos h)) (hsort 0) (hlt 0) fun k => ?_
    simp [baseFrame, LayerFrame.references, BufferUse.readsAndWrites]
  · refine c.makes_middle.recalls (hin 1 (LayerGrid.lt_of_sendsTemporal ht)) (hsort 1) (hlt 1)
      fun k => ?_
    simp [references_middleFrame]
  · have hm : c.middleReady.get s = false :=
      hc.cleared (LayerGrid.isEarly_of_nextPhase (.inr hp)) s hthree
    refine (c.makes_top .earlyT2).recalls (hin 2 (LayerGrid.lt_of_sendsTemporal ht)) (hsort 2)
      (hlt 2) fun k => ?_
    simp [topFrame, LayerFrame.references, BufferUse.reads, hm]
  · refine (c.makes_top .lateT2).recalls (hin 2 (LayerGrid.lt_of_sendsTemporal ht)) (hsort 2)
      (hlt 2) fun k => ?_
    simp [topFrame, LayerFrame.references, BufferUse.reads, Controller.middleReady]

end KeyController

namespace Controller

/-- With all layers sent, the next picture recalls a frame of every layer that is ready. -/
theorem Staged.recalls {c : Controller} (hc : c.Staged) (hg : c.targets.Whole)
    (h : c.targets.any = true) (hlast : c.last ≠ .idle) {s : Nat} (hs : s < c.targets.spatial)
    (hthree : s < 3) (hr : c.isFull = true → c.baseReady s = true) :
    LayerFrame.Recalls (c.next false).1 (c.ownBuffer (c.targets.nextPhase c.last) s) := by
  cases c with
  | full c => exact FullController.recalls hg h hlast hs (hr rfl)
  | key c => exact KeyController.recalls hc hg h hlast hs hthree

def forgetMiddle : Controller → Controller
  | full c => full { c with middleReady := .replicate false }
  | key c => key { c with middleReady := .replicate false }

theorem follows_forgetMiddle (c : Controller) : c.forgetMiddle.Follows c := by
  cases c <;> exact ⟨rfl, rfl⟩

theorem baseReady_forgetMiddle (c : Controller) : c.forgetMiddle.baseReady = c.baseReady := by
  cases c <;> rfl

theorem middleReady_forgetMiddle (c : Controller) (s : Nat) :
    c.forgetMiddle.middleReady s = false := by
  cases c <;> simp [forgetMiddle, middleReady]

theorem replicate_of_get {p : PerLayer Bool} (h : ∀ s < 3, p.get s = false) :
    p = .replicate false := by
  obtain ⟨first, second, third⟩ := p
  obtain rfl : first = false := h 0 (by omega)
  obtain rfl : second = false := h 1 (by omega)
  obtain rfl : third = false := h 2 (by omega)
  rfl

theorem forgetMiddle_eq {c : Controller} (h : ∀ s < 3, c.middleReady s = false) :
    c.forgetMiddle = c := by
  cases c with
  | full c =>
    have heq : c.middleReady = .replicate false := replicate_of_get h
    rw [forgetMiddle, ← heq]
  | key c =>
    have heq : c.middleReady = .replicate false := replicate_of_get h
    rw [forgetMiddle, ← heq]

/-- Middle frames make a difference only to the highest layer after the middle one. -/
theorem Staged.next_forgetMiddle {c : Controller} (hc : c.Staged) (h : c.targets.any = true)
    (hlast : c.last ≠ .idle)
    (hlate : c.targets.nextPhase c.last = .lateT2 → ∀ s < 3, c.middleReady s = false) :
    c.forgetMiddle.next false = c.next false := by
  rcases c.targets.nextPhase_cases hlast with hp | ⟨hp, -⟩ | ⟨hp, -⟩ | ⟨hp, -⟩
  · cases c with
    | full c =>
      have hplan : { c with middleReady := .replicate false }.plan false = c.plan false := by
        rw [FullController.plan_going (show c.last ≠ .idle from hlast),
          FullController.plan_going (by exact hlast)]
        have hp : c.targets.nextPhase c.last = .t0 := hp
        simp only [hp]
        rfl
      have h : c.targets.any = true := h
      simp only [forgetMiddle, Controller.next, FullController.next, h, hplan, Bool.not_true,
        Bool.false_eq_true, if_false]
    | key c =>
      have h : c.targets.any = true := h
      have hp : c.targets.nextPhase c.last = .t0 := hp
      simp only [forgetMiddle, Controller.next, KeyController.next, h, Bool.false_eq_true, if_false,
        Bool.not_true, hp]
      rfl
  · rw [forgetMiddle_eq (hc.cleared (LayerGrid.isEarly_of_nextPhase (.inl hp)))]
  · rw [forgetMiddle_eq (hc.cleared (LayerGrid.isEarly_of_nextPhase (.inr hp)))]
  · rw [forgetMiddle_eq (hlate hp)]

end Controller
end LayeredRtp
