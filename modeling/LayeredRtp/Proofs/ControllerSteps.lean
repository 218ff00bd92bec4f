import LayeredRtp.Proofs.PlannedLayers

/-! What the controllers can do: all that planning a picture and reporting a frame can lead to,
said once for both of them. -/
namespace LayeredRtp

def LayerGrid.Layered (g : LayerGrid) : Prop :=
  ∀ sid tid, g.isActive sid tid = true → g.isActive sid 0 = true

theorem LayerGrid.activeAt_ne_nil {g : LayerGrid} (hg : g.Layered) (h : g.any = true) :
    g.activeAt 0 ≠ [] := by
  simp only [any, List.any_eq_true] at h
  obtain ⟨s, _, t, _, ha⟩ := h
  exact List.ne_nil_of_mem (mem_activeAt.mpr (hg s t ha))

theorem LayerGrid.activeAt_ne_nil_of_sends {g : LayerGrid} {tid : Nat}
    (h : g.sendsTemporal tid = true) : g.activeAt tid ≠ [] := by
  simp only [sendsTemporal, List.any_eq_true] at h
  obtain ⟨s, _, ha⟩ := h
  exact List.ne_nil_of_mem (mem_activeAt.mpr ha)

namespace FullController

def ownBase (c : FullController) (sid : Nat) : List Nat :=
  if c.baseReady.get sid then [c.targets.buffer sid 0] else []

def ownTop (c : FullController) (pattern : TemporalPhase) (sid : Nat) : List Nat :=
  [c.targets.buffer sid (if pattern == .lateT2 && c.middleReady.get sid then 1 else 0)]

theorem references_baseFrame (c : FullController) (pattern : TemporalPhase) (below : Option Nat)
    (sid : Nat) : (c.baseFrame pattern below sid).references =
      (below.map (c.targets.buffer · 0)).toList ++ c.ownBase sid := by
  cases below <;> cases h : c.baseReady.get sid <;>
    simp [baseFrame, ownBase, h, LayerFrame.references, LayerFrame.readsIf, BufferUse.reads,
      BufferUse.writes, BufferUse.readsAndWrites]

theorem updates_baseFrame (c : FullController) (pattern : TemporalPhase) (below : Option Nat)
    (sid : Nat) : (c.baseFrame pattern below sid).updates = [c.targets.buffer sid 0] := by
  cases below <;> cases h : c.baseReady.get sid <;>
    simp [baseFrame, h, LayerFrame.updates, LayerFrame.readsIf, BufferUse.reads,
      BufferUse.writes, BufferUse.readsAndWrites]

theorem references_middleFrame (c : FullController) (below : Option Nat) (sid : Nat) :
    (c.middleFrame below sid).references =
      c.targets.buffer sid 0 :: (below.map (c.targets.buffer · 1)).toList := by
  cases below <;> by_cases h : 2 < c.targets.temporal ∨ sid + 1 < c.targets.spatial <;>
    simp [middleFrame, h, LayerFrame.references, LayerFrame.readsIf, BufferUse.reads,
      BufferUse.writes]

theorem updates_middleFrame (c : FullController) (below : Option Nat) (sid : Nat) :
    (c.middleFrame below sid).updates =
      if 2 < c.targets.temporal ∨ sid + 1 < c.targets.spatial then [c.targets.buffer sid 1]
      else [] := by
  cases below <;> by_cases h : 2 < c.targets.temporal ∨ sid + 1 < c.targets.spatial <;>
    simp [middleFrame, h, LayerFrame.updates, LayerFrame.readsIf, BufferUse.reads,
      BufferUse.writes]

theorem references_topFrame (c : FullController) (pattern : TemporalPhase) (below : Option Nat)
    (sid : Nat) : (c.topFrame pattern below sid).references =
      c.ownTop pattern sid ++ (below.map (c.targets.buffer · 2)).toList := by
  cases below <;> by_cases h : sid + 1 < c.targets.spatial <;>
    simp [topFrame, ownTop, h, LayerFrame.references, LayerFrame.readsIf, BufferUse.reads,
      BufferUse.writes]

theorem updates_topFrame (c : FullController) (pattern : TemporalPhase) (below : Option Nat)
    (sid : Nat) : (c.topFrame pattern below sid).updates =
      if sid + 1 < c.targets.spatial then [c.targets.buffer sid 2] else [] := by
  cases below <;> by_cases h : sid + 1 < c.targets.spatial <;>
    simp [topFrame, h, LayerFrame.updates, LayerFrame.readsIf, BufferUse.reads,
      BufferUse.writes]

theorem makes_base (c : FullController) (pattern : TemporalPhase) :
    Makes c.targets 0 true c.ownBase (c.baseFrame pattern) where
  spatial _ _ := rfl
  temporal _ _ := rfl
  short below _ := by cases below <;> simp [baseFrame, LayerFrame.readsIf]
  references below s b := by
    cases below <;> simp [references_baseFrame, or_comm]
  ordered h := by simp at h
  own s b hb := by
    simp only [ownBase, List.mem_ite_nil_right, List.mem_singleton] at hb
    exact ⟨0, hb.2⟩
  updates below s b hb := by simpa [updates_baseFrame] using hb
  storesBelow _ below s _ := by simp [updates_baseFrame]
  storesBase _ below s := by simp [updates_baseFrame]
  storesMiddle h := by simp at h

theorem makes_middle (c : FullController) :
    Makes c.targets 1 true (fun s => [c.targets.buffer s 0]) c.middleFrame where
  spatial _ _ := rfl
  temporal _ _ := rfl
  short below s := by
    cases below <;> by_cases h : 2 < c.targets.temporal ∨ s + 1 < c.targets.spatial <;>
      simp [middleFrame, LayerFrame.readsIf, h]
  references below s b := by
    cases below <;> simp [references_middleFrame]
  ordered _ _ below s := references_middleFrame c below s
  own s b hb := ⟨0, List.mem_singleton.mp hb⟩
  updates below s b hb := by
    simp only [updates_middleFrame, List.mem_ite_nil_right, List.mem_singleton] at hb
    exact hb.2
  storesBelow _ below s hs := by simp [updates_middleFrame, hs]
  storesBase h := by simp at h
  storesMiddle _ ht below s := by simp [updates_middleFrame, ht]

theorem makes_top (c : FullController) (pattern : TemporalPhase) :
    Makes c.targets 2 true (c.ownTop pattern) (c.topFrame pattern) where
  spatial _ _ := rfl
  temporal _ _ := rfl
  short below s := by
    cases below <;> by_cases h : s + 1 < c.targets.spatial <;>
      simp [topFrame, LayerFrame.readsIf, h]
  references below s b := by
    cases below <;> simp [references_topFrame]
  ordered _ _ below s := references_topFrame c pattern below s
  own s b hb := ⟨_, List.mem_singleton.mp hb⟩
  updates below s b hb := by
    simp only [updates_topFrame, List.mem_ite_nil_right, List.mem_singleton] at hb
    exact hb.2
  storesBelow _ below s hs := by simp [updates_topFrame, hs]
  storesBase h := by simp at h
  storesMiddle h := by simp at h

/-- A key picture refers to nothing older. -/
theorem makes_key (c : FullController) (h : c.baseReady = .replicate false) :
    Makes c.targets 0 true (fun _ => []) (c.baseFrame .key) := by
  have hown : c.ownBase = fun _ => [] := by
    funext sid
    simp [ownBase, h]
  exact hown ▸ c.makes_base .key

end FullController

namespace KeyController

def ownTop (c : KeyController) (sid : Nat) : List Nat :=
  [c.targets.buffer sid (if c.middleReady.get sid then 1 else 0)]

theorem makes_key (c : KeyController) : Makes c.targets 0 true (fun _ => []) c.keyFrame where
  spatial _ _ := rfl
  temporal _ _ := rfl
  short below _ := by cases below <;> simp [keyFrame, LayerFrame.readsIf]
  references below s b := by
    cases below <;> simp [keyFrame, LayerFrame.references, LayerFrame.readsIf,
      BufferUse.reads, BufferUse.writes]
  ordered h := by simp at h
  own s b hb := by simp at hb
  updates below s b hb := by
    cases below <;> simp_all [keyFrame, LayerFrame.updates, LayerFrame.readsIf,
      BufferUse.reads, BufferUse.writes]
  storesBelow _ below s _ := by
    cases below <;> simp [keyFrame, LayerFrame.updates, LayerFrame.readsIf,
      BufferUse.reads, BufferUse.writes]
  storesBase _ below s := by
    cases below <;> simp [keyFrame, LayerFrame.updates, LayerFrame.readsIf,
      BufferUse.reads, BufferUse.writes]
  storesMiddle h := by simp at h

theorem makes_base (c : KeyController) :
    Makes c.targets 0 false (fun s => [c.targets.buffer s 0]) (fun _ => c.baseFrame) where
  spatial _ _ := rfl
  temporal _ _ := rfl
  short _ _ := by simp [baseFrame]
  references _ s b := by simp [baseFrame, LayerFrame.references, BufferUse.readsAndWrites]
  ordered _ h := by simp at h
  own s b hb := ⟨0, List.mem_singleton.mp hb⟩
  updates _ s b hb := by
    simpa [baseFrame, LayerFrame.updates, BufferUse.readsAndWrites] using hb
  storesBelow h := by simp at h
  storesBase _ _ s := by simp [baseFrame, LayerFrame.updates, BufferUse.readsAndWrites]
  storesMiddle h := by simp at h

theorem references_middleFrame (c : KeyController) (sid : Nat) :
    (c.middleFrame sid).references = [c.targets.buffer sid 0] := by
  by_cases h : 2 < c.targets.temporal <;>
    simp [middleFrame, h, LayerFrame.references, BufferUse.reads, BufferUse.writes]

theorem updates_middleFrame (c : KeyController) (sid : Nat) :
    (c.middleFrame sid).updates =
      if 2 < c.targets.temporal then [c.targets.buffer sid 1] else [] := by
  by_cases h : 2 < c.targets.temporal <;>
    simp [middleFrame, h, LayerFrame.updates, BufferUse.reads, BufferUse.writes]

theorem makes_middle (c : KeyController) :
    Makes c.targets 1 false (fun s => [c.targets.buffer s 0]) (fun _ => c.middleFrame) where
  spatial _ _ := rfl
  temporal _ _ := rfl
  short _ s := by by_cases h : 2 < c.targets.temporal <;> simp [middleFrame, h]
  references _ s b := by simp [references_middleFrame]
  ordered _ h := by simp at h
  own s b hb := ⟨0, List.mem_singleton.mp hb⟩
  updates _ s b hb := by
    simp only [updates_middleFrame, List.mem_ite_nil_right, List.mem_singleton] at hb
    exact hb.2
  storesBelow h := by simp at h
  storesBase h := by simp at h
  storesMiddle _ ht _ s := by simp [updates_middleFrame, ht]

theorem makes_top (c : KeyController) (pattern : TemporalPhase) :
    Makes c.targets 2 false c.ownTop (fun _ => c.topFrame pattern) where
  spatial _ _ := rfl
  temporal _ _ := rfl
  short _ _ := by simp [topFrame]
  references _ s b := by simp [topFrame, ownTop, LayerFrame.references, BufferUse.reads]
  ordered _ h := by simp at h
  own s b hb := ⟨_, List.mem_singleton.mp hb⟩
  updates _ s b hb := by simp [topFrame, LayerFrame.updates, BufferUse.reads] at hb
  storesBelow h := by simp at h
  storesBase h := by simp at h
  storesMiddle h := by simp at h

end KeyController

namespace Controller

def isFull : Controller → Bool
  | full _ => true
  | key _ => false

def baseReady : Controller → Nat → Bool
  | full c => c.baseReady.get
  | key _ => fun _ => false

def middleReady : Controller → Nat → Bool
  | full c => c.middleReady.get
  | key c => c.middleReady.get

def enabled : Controller → Nat → Bool
  | full _ => fun _ => false
  | key c => c.enabled.get

def last : Controller → TemporalPhase
  | full c => c.last
  | key c => c.last

structure Follows (c' c : Controller) : Prop where
  isFull : c'.isFull = c.isFull
  targets : c'.targets = c.targets

structure KeyPlan (c : Controller) (make : Option Nat → Nat → LayerFrame) (c' : Controller) :
    Prop where
  makes : Makes c.targets 0 true (fun _ => []) make
  chosen : c.targets.activeAt 0 ≠ []
  isKey : ∀ below s, (make below s).isKey = below.isNone
  tag : ∀ below s, TemporalPhase.ofTag (make below s).tag = .key
  base : ∀ s < 3, c'.baseReady s = false
  middle : ∀ s < 3, c'.middleReady s = false
  enabled : c.isFull = false → ∀ s < 3, c'.enabled s = c.targets.isActive s 0
  kept : c'.Follows c
  last : c'.last = .idle

/-- A picture that is predicted from earlier ones, and a controller that asked for it. It takes
only buffers that the controller remembers. A base picture makes the controller forget the layers
that it leaves out. -/
structure DeltaPlan (c : Controller) (tid : Nat) (own : Nat → List Nat)
    (make : Option Nat → Nat → LayerFrame) (sids : List Nat) (c' : Controller) : Prop where
  going : c.last ≠ .idle
  low : tid ≤ 2
  makes : Makes c.targets tid c.isFull own make
  chosen : sids ≠ []
  sorted : sids.Pairwise (· < ·)
  mem : ∀ s, s ∈ sids ↔ c.targets.isActive s tid = true ∧
    (c.isFull = true → tid ≠ 0 → c.baseReady s = true)
  isKey : ∀ below s, (make below s).isKey = false
  tag : ∀ below s, TemporalPhase.ofTag (make below s).tag ≠ .key
  bare : ∀ s, own s = [] ↔ c.isFull = true ∧ tid = 0 ∧ c.baseReady s = false
  own : ∀ s ∈ sids, ∀ b ∈ own s,
    b = c.targets.buffer s 0 ∧ (c.isFull = true → c.baseReady s = true) ∨
    b = c.targets.buffer s 1 ∧ c.middleReady s = true ∧ tid = 2
  base : ∀ s < 3, c'.baseReady s = true ↔ c.baseReady s = true ∧
    (tid = 0 → s < c.targets.spatial → c.targets.isActive s 0 = true)
  middle : ∀ s < 3, c'.middleReady s = true → c.middleReady s = true
  enabled : ∀ s < 3, c'.enabled s = true ↔ c.enabled s = true ∧
    (tid = 0 → s < c.targets.spatial → c.targets.isActive s 0 = true)
  kept : c'.Follows c
  last : c'.last = c.last

inductive Planned (c : Controller) (restart : Bool) : List LayerFrame → Controller → Prop
  | nothing {c' : Controller} (none : c.targets.any = false)
      (base : c'.baseReady = c.baseReady) (middle : c'.middleReady = c.middleReady)
      (kept : c'.Follows c) (last : c'.last = .idle) : Planned c restart [] c'
  | key {make : Option Nat → Nat → LayerFrame} {c' : Controller} (plan : c.KeyPlan make c') :
      Planned c restart (LayerFrame.linked make none (c.targets.activeAt 0)) c'
  | delta {tid : Nat} {own : Nat → List Nat} {make : Option Nat → Nat → LayerFrame}
      {sids : List Nat} {c' : Controller} (unforced : restart = false)
      (plan : c.DeltaPlan tid own make sids c') :
      Planned c restart (LayerFrame.linked make none sids) c'

theorem Planned.follows {c c' : Controller} {restart : Bool} {frames : List LayerFrame}
    (h : c.Planned restart frames c') : c'.Follows c := by
  cases h with
  | nothing _ _ _ hkept => exact hkept
  | key hp => exact hp.kept
  | delta _ hp => exact hp.kept

end Controller

theorem LayerGrid.nextPhase_cases (g : LayerGrid) {last : TemporalPhase} (h : last ≠ .idle) :
    g.nextPhase last = .t0 ∨ (g.nextPhase last = .t1 ∧ g.sendsTemporal 1 = true) ∨
    (g.nextPhase last = .earlyT2 ∧ g.sendsTemporal 2 = true) ∨
    (g.nextPhase last = .lateT2 ∧ g.sendsTemporal 2 = true) := by
  cases h1 : g.sendsTemporal 1 <;> cases h2 : g.sendsTemporal 2 <;> cases last <;>
    simp_all [nextPhase]

theorem LayerGrid.nextPhase_ne_key {g : LayerGrid} {last : TemporalPhase} (h : last ≠ .idle) :
    g.nextPhase last ≠ .key := by
  rcases g.nextPhase_cases h with hp | ⟨hp, -⟩ | ⟨hp, -⟩ | ⟨hp, -⟩ <;> simp [hp]

namespace FullController

theorem readyAt_sorted (c : FullController) (tid : Nat) : (c.readyAt tid).Pairwise (· < ·) :=
  List.Pairwise.filter _ (c.targets.sorted_activeAt tid)

theorem mem_readyAt {c : FullController} {sid tid : Nat} :
    sid ∈ c.readyAt tid ↔ c.targets.isActive sid tid = true ∧ c.baseReady.get sid = true := by
  simp [readyAt, LayerGrid.mem_activeAt]

def forgotten (c : FullController) : FullController :=
  { c with baseReady := .replicate false, last := .idle }

def keyPicture (c : FullController) : List LayerFrame × FullController :=
  c.forgotten.framesFor .key

/-- A key picture depends only on which layers are sent. -/
theorem keyPicture_eq {c c' : FullController} (h : c'.targets = c.targets) :
    c'.keyPicture = c.keyPicture := by
  cases c
  cases c'
  cases h
  rfl

theorem targets_framesFor (c : FullController) (pattern : TemporalPhase) :
    (c.framesFor pattern).2.targets = c.targets := by
  cases pattern <;> rfl

theorem targets_plan (c : FullController) (restart : Bool) :
    (c.plan restart).2.targets = c.targets := by
  unfold plan
  split <;> exact targets_framesFor _ _

theorem plan_restart (c : FullController) : c.plan true = c.keyPicture := by
  simp [plan, keyPicture, forgotten, LayerGrid.nextPhase]

theorem plan_idle {c : FullController} (h : c.last = .idle) (restart : Bool) :
    c.plan restart = c.keyPicture := by
  simp [plan, keyPicture, forgotten, LayerGrid.nextPhase, h]

theorem plan_going {c : FullController} (h : c.last ≠ .idle) :
    c.plan false = c.framesFor (c.targets.nextPhase c.last) := by
  simp [plan, h]

theorem keyPicture_plan (c : FullController) (hg : c.targets.Layered)
    (h : c.targets.any = true) :
    (Controller.full c).KeyPlan (c.forgotten.baseFrame .key) (.full c.keyPicture.2) where
  makes := c.forgotten.makes_key rfl
  chosen := LayerGrid.activeAt_ne_nil hg h
  isKey below _ := by simp [baseFrame]
  tag _ _ := rfl
  base s hs := by
    simp [Controller.baseReady, keyPicture, forgotten, framesFor, settle, PerLayer.get_ofFn _ s hs]
  middle s hs := by simp [Controller.middleReady, keyPicture, framesFor, settle]
  enabled hf := by simp [Controller.isFull] at hf
  kept := ⟨rfl, rfl⟩
  last := rfl

theorem base_plan {c : FullController} (hlast : c.last ≠ .idle) (hg : c.targets.Layered)
    (h : c.targets.any = true) :
    (Controller.full c).DeltaPlan 0 c.ownBase (c.baseFrame .t0) (c.targets.activeAt 0)
      (.full c.settle) where
  going := hlast
  low := by omega
  makes := c.makes_base .t0
  chosen := LayerGrid.activeAt_ne_nil hg h
  sorted := c.targets.sorted_activeAt 0
  mem s := by simp [LayerGrid.mem_activeAt, Controller.targets]
  isKey below s := by simp [baseFrame]
  tag _ _ := by simp [baseFrame, TemporalPhase.ofTag_tag]
  bare s := by simp [ownBase, Controller.isFull, Controller.baseReady]
  own s _ b hb := by
    simp only [ownBase, List.mem_ite_nil_right, List.mem_singleton] at hb
    exact .inl ⟨hb.2, fun _ => hb.1⟩
  base s hs := by
    simp only [Controller.baseReady, Controller.targets, settle, PerLayer.get_ofFn _ s hs]
    by_cases hlt : s < c.targets.spatial <;> simp [hlt]
  middle s hs := by simp [Controller.middleReady, settle]
  enabled s _ := by simp [Controller.enabled]
  kept := ⟨rfl, rfl⟩
  last := rfl

theorem middle_plan {c : FullController} (hlast : c.last ≠ .idle) (h : c.readyAt 1 ≠ []) :
    (Controller.full c).DeltaPlan 1 (fun s => [c.targets.buffer s 0]) c.middleFrame (c.readyAt 1)
      (.full c) where
  going := hlast
  low := by omega
  makes := c.makes_middle
  chosen := h
  sorted := c.readyAt_sorted 1
  mem s := by simp [mem_readyAt, Controller.targets, Controller.isFull, Controller.baseReady]
  isKey _ _ := rfl
  tag _ _ := by simp [middleFrame, TemporalPhase.ofTag_tag]
  bare s := by simp
  own s hs b hb := .inl ⟨List.mem_singleton.mp hb, fun _ => (mem_readyAt.mp hs).2⟩
  base s hs := by simp
  middle _ _ hm := hm
  enabled s _ := by simp
  kept := ⟨rfl, rfl⟩
  last := rfl

/-- The two places of the highest temporal layer differ in whether a middle frame may be used. -/
theorem top_plan {c : FullController} {pattern : TemporalPhase} (hlast : c.last ≠ .idle)
    (hp : pattern = .earlyT2 ∨ pattern = .lateT2) (h : c.readyAt 2 ≠ []) :
    (Controller.full c).DeltaPlan 2 (c.ownTop pattern) (c.topFrame pattern) (c.readyAt 2)
      (.full c) where
  going := hlast
  low := by omega
  makes := c.makes_top pattern
  chosen := h
  sorted := c.readyAt_sorted 2
  mem s := by simp [mem_readyAt, Controller.targets, Controller.isFull, Controller.baseReady]
  isKey _ _ := rfl
  tag _ _ := by rcases hp with rfl | rfl <;> simp [topFrame, TemporalPhase.ofTag_tag]
  bare s := by simp [ownTop]
  own s hs b hb := by
    have hb := List.mem_singleton.mp hb
    by_cases hmid : (pattern == .lateT2 && c.middleReady.get s) = true
    · rw [hmid] at hb
      exact .inr ⟨hb, (Bool.and_eq_true_iff.mp hmid).2, rfl⟩
    · rw [if_neg hmid] at hb
      exact .inl ⟨hb, fun _ => (mem_readyAt.mp hs).2⟩
  base s hs := by simp
  middle _ _ hm := hm
  enabled s _ := by simp
  kept := ⟨rfl, rfl⟩
  last := rfl

theorem linked_eq_nil {make : Option Nat → Nat → LayerFrame} {sids : List Nat}
    (h : (LayerFrame.linked make none sids).isEmpty = false) : sids ≠ [] := by
  rintro rfl
  simp [LayerFrame.linked] at h

/-- A picture of the pattern that has frames, in whichever temporal layer it is. -/
theorem going_planned {c : FullController} (hg : c.targets.Layered) (h : c.targets.any = true)
    (hlast : c.last ≠ .idle) (hne : (c.plan false).1.isEmpty = false) :
    (Controller.full c).Planned false (c.plan false).1 (.full (c.plan false).2) := by
  rw [plan_going hlast] at hne ⊢
  rcases c.targets.nextPhase_cases hlast with hp | hp | hp | hp
  · rw [hp]
    exact .delta rfl (base_plan hlast hg h)
  · rw [hp.1] at hne ⊢
    exact .delta rfl (middle_plan hlast (linked_eq_nil hne))
  · rw [hp.1] at hne ⊢
    exact .delta rfl (top_plan hlast (.inl rfl) (linked_eq_nil hne))
  · rw [hp.1] at hne ⊢
    exact .delta rfl (top_plan hlast (.inr rfl) (linked_eq_nil hne))

theorem next_going {c : FullController} (h : c.targets.any = true)
    (hne : (c.plan false).1.isEmpty = false) : c.next false = c.plan false := by
  simp [next, h, hne]

/-- The next picture is a key picture or the one that the pattern asks for. -/
theorem next_cases (c : FullController) (restart : Bool) (h : c.targets.any = true) :
    c.next restart = c.keyPicture ∨ restart = false ∧ c.last ≠ .idle ∧
      (c.plan false).1.isEmpty = false ∧ c.next false = c.plan false := by
  by_cases hstart : restart = true ∨ c.last = .idle
  · have hplan : c.plan restart = c.keyPicture := by
      cases hstart with
      | inl hr => exact hr ▸ c.plan_restart
      | inr hi => exact plan_idle hi restart
    have hagain : c.keyPicture.2.plan true = c.keyPicture :=
      c.keyPicture.2.plan_restart.trans (keyPicture_eq rfl)
    exact .inl (by simp [next, h, hplan, hagain])
  · simp only [not_or, Bool.not_eq_true] at hstart
    obtain ⟨rfl, hlast⟩ := hstart
    by_cases hempty : (c.plan false).1.isEmpty = true
    · have hrestart : (c.plan false).2.plan true = c.keyPicture :=
        (c.plan false).2.plan_restart.trans (keyPicture_eq (c.targets_plan false))
      exact .inl (by simp [next, h, hempty, hrestart])
    · simp only [Bool.not_eq_true] at hempty
      exact .inr ⟨rfl, hlast, hempty, next_going h hempty⟩

theorem next_planned (c : FullController) (restart : Bool) (hg : c.targets.Layered) :
    (Controller.full c).Planned restart (c.next restart).1 (.full (c.next restart).2) := by
  by_cases h : c.targets.any = true
  · rcases c.next_cases restart h with hkey | ⟨rfl, hlast, hne, hgoing⟩
    · rw [hkey]
      exact .key (c.keyPicture_plan hg h)
    · rw [hgoing]
      exact going_planned hg h hlast hne
  · simp only [Bool.not_eq_true] at h
    simp only [next, h]
    exact .nothing (c := .full c) h rfl rfl ⟨rfl, rfl⟩ rfl

end FullController

namespace KeyController

def keyPicture (c : KeyController) : List LayerFrame × KeyController :=
  { c with last := .idle }.framesFor .key

theorem keyPicture_plan (c : KeyController) (hg : c.targets.Layered)
    (h : c.targets.any = true) : (Controller.key c).KeyPlan c.keyFrame (.key c.keyPicture.2) where
  makes := c.makes_key
  chosen := LayerGrid.activeAt_ne_nil hg h
  isKey _ _ := rfl
  tag _ _ := rfl
  base _ _ := rfl
  middle s hs := by simp [Controller.middleReady, keyPicture, framesFor, startKey]
  enabled _ s hs := by
    simp [Controller.enabled, Controller.targets, keyPicture, framesFor, startKey,
      PerLayer.get_ofFn _ s hs]
  kept := ⟨rfl, rfl⟩
  last := rfl

theorem base_plan {c : KeyController} (hlast : c.last ≠ .idle) (hg : c.targets.Layered)
    (h : c.targets.any = true) :
    (Controller.key c).DeltaPlan 0 (fun s => [c.targets.buffer s 0]) (fun _ => c.baseFrame)
      (c.targets.activeAt 0) (.key c.settle) where
  going := hlast
  low := by omega
  makes := c.makes_base
  chosen := LayerGrid.activeAt_ne_nil hg h
  sorted := c.targets.sorted_activeAt 0
  mem s := by simp [LayerGrid.mem_activeAt, Controller.targets]
  isKey _ _ := rfl
  tag _ _ := by simp [baseFrame, TemporalPhase.ofTag_tag]
  bare s := by simp [Controller.isFull]
  own s _ b hb := .inl ⟨List.mem_singleton.mp hb, fun h => by simp [Controller.isFull] at h⟩
  base s hs := by simp [Controller.baseReady]
  middle s hs := by simp [Controller.middleReady, settle]
  enabled s hs := by
    simp only [Controller.enabled, Controller.targets, settle, PerLayer.get_ofFn _ s hs]
    by_cases hlt : s < c.targets.spatial <;> simp [hlt]
  kept := ⟨rfl, rfl⟩
  last := rfl

theorem middle_plan {c : KeyController} (hlast : c.last ≠ .idle)
    (h : c.targets.sendsTemporal 1 = true) :
    (Controller.key c).DeltaPlan 1 (fun s => [c.targets.buffer s 0]) (fun _ => c.middleFrame)
      (c.targets.activeAt 1) (.key c) where
  going := hlast
  low := by omega
  makes := c.makes_middle
  chosen := LayerGrid.activeAt_ne_nil_of_sends h
  sorted := c.targets.sorted_activeAt 1
  mem s := by simp [LayerGrid.mem_activeAt, Controller.targets, Controller.isFull]
  isKey _ _ := rfl
  tag _ _ := by simp [middleFrame, TemporalPhase.ofTag_tag]
  bare s := by simp
  own s _ b hb := .inl ⟨List.mem_singleton.mp hb, fun h => by simp [Controller.isFull] at h⟩
  base s hs := by simp
  middle _ _ hm := hm
  enabled s _ := by simp
  kept := ⟨rfl, rfl⟩
  last := rfl

theorem top_plan {c : KeyController} {pattern : TemporalPhase} (hlast : c.last ≠ .idle)
    (hp : pattern = .earlyT2 ∨ pattern = .lateT2) (h : c.targets.sendsTemporal 2 = true) :
    (Controller.key c).DeltaPlan 2 c.ownTop (fun _ => c.topFrame pattern) (c.targets.activeAt 2)
      (.key c) where
  going := hlast
  low := by omega
  makes := c.makes_top pattern
  chosen := LayerGrid.activeAt_ne_nil_of_sends h
  sorted := c.targets.sorted_activeAt 2
  mem s := by simp [LayerGrid.mem_activeAt, Controller.targets, Controller.isFull]
  isKey _ _ := rfl
  tag _ _ := by rcases hp with rfl | rfl <;> simp [topFrame, TemporalPhase.ofTag_tag]
  bare s := by simp [ownTop]
  own s _ b hb := by
    have hb := List.mem_singleton.mp hb
    by_cases hmid : c.middleReady.get s = true
    · rw [if_pos hmid] at hb
      exact .inr ⟨hb, hmid, rfl⟩
    · rw [if_neg hmid] at hb
      exact .inl ⟨hb, fun h => by simp [Controller.isFull] at h⟩
  base s hs := by simp
  middle _ _ hm := hm
  enabled s _ := by simp
  kept := ⟨rfl, rfl⟩
  last := rfl

/-- A picture of the pattern, in whichever temporal layer it is. -/
theorem going_planned {c : KeyController} (hg : c.targets.Layered) (h : c.targets.any = true)
    (hlast : c.last ≠ .idle) {frames : List LayerFrame} {next : KeyController}
    (hnext : c.framesFor (c.targets.nextPhase c.last) = (frames, next)) :
    (Controller.key c).Planned false frames (.key next) := by
  rcases c.targets.nextPhase_cases hlast with hp | ⟨hp, hsent⟩ | ⟨hp, hsent⟩ | ⟨hp, hsent⟩
  all_goals
    rw [hp] at hnext
    simp only [framesFor, ← LayerFrame.linked_const _ none, Prod.mk.injEq] at hnext
    obtain ⟨rfl, rfl⟩ := hnext
  · exact .delta rfl (base_plan hlast hg h)
  · exact .delta rfl (middle_plan hlast hsent)
  · exact .delta rfl (top_plan hlast (.inl rfl) hsent)
  · exact .delta rfl (top_plan hlast (.inr rfl) hsent)

theorem next_cases (c : KeyController) (restart : Bool) (h : c.targets.any = true) :
    c.next restart = c.keyPicture ∨ restart = false ∧ c.last ≠ .idle ∧
      c.next false = c.framesFor (c.targets.nextPhase c.last) := by
  by_cases hstart : restart = true ∨ c.last = .idle
  · left
    cases c
    cases hstart with
    | inl hr => simp_all [next, keyPicture, LayerGrid.nextPhase]
    | inr hi => cases restart <;> simp_all [next, keyPicture, LayerGrid.nextPhase]
  · simp only [not_or, Bool.not_eq_true] at hstart
    exact .inr ⟨hstart.1, hstart.2, by simp [next, h]⟩

theorem next_planned (c : KeyController) (restart : Bool) (hg : c.targets.Layered) :
    (Controller.key c).Planned restart (c.next restart).1 (.key (c.next restart).2) := by
  by_cases h : c.targets.any = true
  · rcases c.next_cases restart h with hkey | ⟨rfl, hlast, hplan⟩
    · rw [hkey]
      exact .key (c.keyPicture_plan hg h)
    · rw [hplan]
      exact going_planned hg h hlast rfl
  · simp only [Bool.not_eq_true] at h
    simp only [next, h]
    exact .nothing (c := .key c) h rfl rfl ⟨rfl, rfl⟩ rfl

end KeyController

namespace Controller

theorem next_planned (c : Controller) (restart : Bool) (hg : c.targets.Layered) :
    c.Planned restart (c.next restart).1 (c.next restart).2 := by
  cases c with
  | full c => exact c.next_planned restart hg
  | key c => exact c.next_planned restart hg

/-- Reporting a frame always succeeds, and only makes frames of its layers ready. -/
theorem done_ok (c : Controller) {f : LayerFrame} (hf : f.spatial < 3) :
    ∃ r c', c.done f = .ok (r, c') ∧ r.spatial = f.spatial ∧ r.temporal = f.temporal ∧
      r.buffers = f.buffers ∧ c'.Follows c ∧
      (∀ s < 3, c'.baseReady s = true ↔
        c.baseReady s = true ∨ c.isFull = true ∧ f.temporal = 0 ∧ s = f.spatial) ∧
      ∀ s < 3, c'.middleReady s = true →
        c.middleReady s = true ∨ f.temporal = 1 ∧ s = f.spatial := by
  have hin : ¬(f.temporal < 2 ∧ PerLayer.count ≤ f.spatial) := fun h => Nat.not_le.mpr hf h.2
  have hin' : ¬(f.temporal = 1 ∧ PerLayer.count ≤ f.spatial) := fun h => Nat.not_le.mpr hf h.2
  cases c with
  | full c =>
    refine ⟨_, _, by simp only [done, FullController.done, if_neg hin]; rfl, ?_⟩
    refine ⟨rfl, rfl, rfl, ⟨rfl, rfl⟩, fun s hs => ?_, fun s hs => ?_⟩
    · by_cases h0 : f.temporal = 0 <;> by_cases he : s = f.spatial <;>
        simp [baseReady, isFull, h0, he, hf, hs]
    · by_cases h1 : f.temporal = 1 <;> by_cases he : s = f.spatial <;>
        simp [middleReady, h1, he, hf, hs]
  | key c =>
    refine ⟨_, _, by simp only [done, KeyController.done, if_neg hin']; rfl, ?_⟩
    refine ⟨rfl, rfl, rfl, ⟨rfl, rfl⟩, fun s hs => by simp [baseReady, isFull], fun s hs => ?_⟩
    by_cases h1 : f.temporal = 1 <;> by_cases he : s = f.spatial <;>
      simp [middleReady, h1, he, hf, hs]

def inChain : Controller → LayerFrame → Nat → Bool
  | full _, f, s => f.temporal == 0 && f.spatial ≤ s
  | key _, f, s =>
    if f.isKey || TemporalPhase.ofTag f.tag == .key then f.spatial ≤ s
    else f.temporal == 0 && f.spatial == s

theorem done_told {c c' : Controller} {f : LayerFrame} {r : FrameReport}
    (h : c.done f = .ok (r, c')) :
    r.inChain = c.targets.spatialIds.map (c.inChain f) ∧ c'.enabled = c.enabled ∧
      c'.last = .ofTag f.tag := by
  cases c with
  | full c =>
    by_cases hout : f.temporal < 2 ∧ PerLayer.count ≤ f.spatial
    · simp [done, FullController.done, hout, Except.map] at h
    · simp only [done, FullController.done, hout, if_false, Except.map, Except.ok.injEq,
        Prod.map_apply, Prod.mk.injEq] at h
      obtain ⟨rfl, rfl⟩ := h
      exact ⟨rfl, rfl, rfl⟩
  | key c =>
    by_cases hout : f.temporal = 1 ∧ PerLayer.count ≤ f.spatial
    · simp [done, KeyController.done, hout, Except.map] at h
    · simp only [done, KeyController.done, hout, if_false, Except.map, Except.ok.injEq,
        Prod.map_apply, Prod.mk.injEq] at h
      obtain ⟨rfl, rfl⟩ := h
      refine ⟨?_, rfl, rfl⟩
      refine congrArg (List.map · c.targets.spatialIds) (funext fun s => ?_)
      cases hkey : f.isKey || TemporalPhase.ofTag f.tag == .key <;> simp [inChain, hkey]

end Controller
end LayeredRtp
