import LayeredRtp.Proofs.SoundEncoder

/-! Runs of a controller by itself. It is asked for pictures, told which of their frames were
coded, and given new rates. What was coded since the last key picture is all that later pictures
may be predicted from. -/
namespace LayeredRtp

namespace LayerFrame

variable {g : LayerGrid} {tid : Nat} {links : Bool} {own : Nat → List Nat}
  {make : Option Nat → Nat → LayerFrame} {below : Option Nat} {sids : List Nat}

theorem linked_split {lower upper : List LayerFrame} {f : LayerFrame}
    (h : linked make below sids = lower ++ f :: upper) :
    ∃ low s high, sids = low ++ s :: high ∧ lower = linked make below low ∧
      f = make (low.getLast?.or below) s := by
  induction sids generalizing below lower with
  | nil => simp [linked] at h
  | cons s rest ih =>
    cases lower with
    | nil =>
      obtain ⟨rfl, -⟩ := List.cons.inj h
      exact ⟨[], s, rest, rfl, rfl, rfl⟩
    | cons l lower =>
      obtain ⟨rfl, hrest⟩ := List.cons.inj h
      obtain ⟨low, x, high, rfl, rfl, rfl⟩ := ih hrest
      refine ⟨s :: low, x, high, rfl, rfl, ?_⟩
      cases low <;> simp [List.getLast?_cons]

theorem linked_concat (make : Option Nat → Nat → LayerFrame) (below : Option Nat)
    (low : List Nat) (s : Nat) :
    ∃ k, linked make below (low ++ [s]) = linked make below low ++ [make k s] := by
  induction low generalizing below with
  | nil => exact ⟨below, rfl⟩
  | cons x low ih =>
    obtain ⟨k, hk⟩ := ih (some x)
    exact ⟨k, congrArg _ hk⟩

structure Placed (make : Option Nat → Nat → LayerFrame) (sids : List Nat)
    (lower : List LayerFrame) (f : LayerFrame) (below : Option Nat) : Prop where
  made : f = make below f.spatial
  mem : f.spatial ∈ sids
  lowest : below = none ↔ lower = []
  next : ∀ k, below = some k → k < f.spatial ∧ ∃ j rest, lower = rest ++ [make j k]

theorem linked_placed (hm : Makes g tid links own make) (hsort : sids.Pairwise (· < ·))
    {lower upper : List LayerFrame} {f : LayerFrame}
    (h : linked make none sids = lower ++ f :: upper) : ∃ k, Placed make sids lower f k := by
  obtain ⟨low, s, high, rfl, rfl, rfl⟩ := linked_split h
  refine ⟨low.getLast?, ?_⟩
  rw [Option.or_none]
  constructor
  case made => rw [hm.spatial]
  case mem => simp [hm.spatial]
  case lowest =>
    rw [List.getLast?_eq_none_iff, ← List.length_eq_zero_iff, ← List.length_eq_zero_iff,
      length_linked]
  case next =>
    intro k hk
    obtain ⟨rest, rfl⟩ := List.getLast?_eq_some_iff.mp hk
    obtain ⟨j, hj⟩ := linked_concat make none rest k
    rw [hm.spatial]
    exact ⟨(List.pairwise_append.mp hsort).2.2 k (by simp) s (by simp), j, _, hj⟩

/-- The frames with the numbers in the list are all there. -/
theorem mem_linked_of_mem (make : Option Nat → Nat → LayerFrame) (below : Option Nat) {s : Nat}
    (h : s ∈ sids) : ∃ k, make k s ∈ linked make below sids := by
  induction sids generalizing below with
  | nil => simp at h
  | cons x rest ih =>
    cases List.mem_cons.mp h with
    | inl he => exact ⟨below, by simp [linked, he]⟩
    | inr hr =>
      obtain ⟨k, hk⟩ := ih (some x) hr
      exact ⟨k, List.mem_cons_of_mem _ hk⟩

end LayerFrame

structure CodedFrame where
  frame : LayerFrame
  report : FrameReport
deriving DecidableEq, Repr

namespace CodedFrame

def sinceKey : List CodedFrame → List CodedFrame
  | [] => []
  | x :: older => if x.frame.isKey then [x] else x :: sinceKey older

def Stored (b : Nat) (log : List CodedFrame) : Prop :=
  ∃ x ∈ sinceKey log, b ∈ x.frame.updates

theorem sinceKey_subset (log : List CodedFrame) : sinceKey log ⊆ log := by
  induction log with
  | nil => exact List.Subset.refl _
  | cons x older ih =>
    unfold sinceKey
    split
    · simp
    · exact List.cons_subset_cons x ih

theorem sinceKey_append {xs : List CodedFrame} (h : ∀ x ∈ xs, x.frame.isKey = false)
    (log : List CodedFrame) : sinceKey (xs ++ log) = xs ++ sinceKey log := by
  induction xs with
  | nil => rfl
  | cons x xs ih =>
    have hx := h x (by simp)
    simp [sinceKey, hx, ih fun y hy => h y (by simp [hy])]

theorem sinceKey_cons (x : CodedFrame) (log : List CodedFrame) :
    ∃ rest, sinceKey (x :: log) = x :: rest := by
  unfold sinceKey
  split
  · exact ⟨_, rfl⟩
  · exact ⟨_, rfl⟩

def KeyFirst (xs : List CodedFrame) : Prop :=
  ∀ x ∈ xs.tail, x.frame.isKey = false

theorem KeyFirst.mem_sinceKey {xs : List CodedFrame} (h : KeyFirst xs) (log : List CodedFrame)
    {x : CodedFrame} (hx : x ∈ xs) : x ∈ sinceKey (xs.reverse ++ log) := by
  cases xs with
  | nil => simp at hx
  | cons first rest =>
    have hrest : ∀ y ∈ rest.reverse, y.frame.isKey = false :=
      fun y hy => h y (List.mem_reverse.mp hy)
    obtain ⟨older, hfirst⟩ := sinceKey_cons first log
    rw [List.reverse_cons, List.append_assoc, List.singleton_append, sinceKey_append hrest, hfirst]
    cases List.mem_cons.mp hx with
    | inl he => simp [he]
    | inr hr => simp [hr]

theorem KeyFirst.stored {xs : List CodedFrame} (h : KeyFirst xs) (log : List CodedFrame)
    {x : CodedFrame} (hx : x ∈ xs) {b : Nat} (hb : b ∈ x.frame.updates) :
    Stored b (xs.reverse ++ log) :=
  ⟨x, h.mem_sinceKey log hx, hb⟩

theorem Stored.append {b : Nat} {log xs : List CodedFrame} (h : Stored b log)
    (hxs : ∀ x ∈ xs, x.frame.isKey = false) : Stored b (xs.reverse ++ log) := by
  obtain ⟨x, hx, hb⟩ := h
  rw [Stored, sinceKey_append fun y hy => hxs y (List.mem_reverse.mp hy)]
  exact ⟨x, by simp [hx], hb⟩

/-- What was stored last, if not by the latest picture, was stored before it. -/
theorem Stored.cases {b : Nat} {coded log : List CodedFrame}
    (h : Stored b (coded.reverse ++ log)) : (∃ x ∈ coded, b ∈ x.frame.updates) ∨
      (∀ x ∈ coded, x.frame.isKey = false) ∧ Stored b log := by
  induction coded generalizing log with
  | nil => exact .inr ⟨by simp, h⟩
  | cons x rest ih =>
    rw [List.reverse_cons, List.append_assoc, List.singleton_append] at h
    rcases ih h with ⟨y, hy, hb⟩ | ⟨hrest, hstored⟩
    · exact .inl ⟨y, by simp [hy], hb⟩
    · obtain ⟨y, hy, hb⟩ := hstored
      unfold sinceKey at hy
      cases hkey : x.frame.isKey with
      | true =>
        simp only [hkey, if_true, List.mem_singleton] at hy
        exact .inl ⟨x, by simp, hy ▸ hb⟩
      | false =>
        simp only [hkey, Bool.false_eq_true, if_false, List.mem_cons] at hy
        rcases hy with rfl | hy
        · exact .inl ⟨y, by simp, hb⟩
        · exact .inr ⟨by simpa [hkey] using hrest, y, hy, hb⟩

end CodedFrame

structure AskedPicture where
  frames : List LayerFrame
  coded : List CodedFrame
deriving DecidableEq, Repr

namespace AskedPicture

def isKey (p : AskedPicture) : Bool := p.frames.any (·.isKey)

def reported (asked : List AskedPicture) : List CodedFrame :=
  asked.flatMap (·.coded.reverse)

end AskedPicture

namespace Controller

def reportAll (c : Controller) : List LayerFrame → Checked (List CodedFrame × Controller)
  | [] => .ok ([], c)
  | f :: rest =>
    match c.done f with
    | .error b => .error b
    | .ok (r, c) => (c.reportAll rest).map (Prod.map (⟨f, r⟩ :: ·) id)

/-- The runs from a controller, with rates of some kind and pictures of which some of the frames
are coded. -/
inductive Run (start : Controller) (admits : LayerRates → Prop)
    (codes : List LayerFrame → List LayerFrame → Prop) : Controller → List AskedPicture → Prop
  | start : Run start admits codes start []
  | setRates {c : Controller} {asked : List AskedPicture} (r : LayerRates) :
      Run start admits codes c asked → admits r → Run start admits codes (c.setRates r) asked
  | picture {c next : Controller} {asked : List AskedPicture} {taken : List LayerFrame}
      {coded : List CodedFrame} (restart : Bool) :
      Run start admits codes c asked → codes (c.next restart).1 taken →
      (c.next restart).2.reportAll taken = .ok (coded, next) →
      Run start admits codes next (⟨(c.next restart).1, coded⟩ :: asked)

def AllOrNone (frames taken : List LayerFrame) : Prop := taken = [] ∨ taken = frames

theorem AllOrNone.isPrefix {frames taken : List LayerFrame} (h : AllOrNone frames taken) :
    taken <+: frames := by
  cases h with
  | inl hnone => exact hnone ▸ List.nil_prefix
  | inr hall => exact hall ▸ List.prefix_rfl

structure Took (c : Controller) (taken : List LayerFrame) (coded : List CodedFrame)
    (next : Controller) : Prop where
  frames : coded.map (·.frame) = taken
  chains : ∀ x ∈ coded, x.report.inChain = c.targets.spatialIds.map (c.inChain x.frame)
  kept : next.Follows c
  enabled : next.enabled = c.enabled
  last : next.last = (taken.getLast?.map (TemporalPhase.ofTag ·.tag)).getD c.last
  base : ∀ s < 3, next.baseReady s = true ↔ c.baseReady s = true ∨
    c.isFull = true ∧ ∃ f ∈ taken, f.temporal = 0 ∧ f.spatial = s
  middle : ∀ s < 3, next.middleReady s = true → c.middleReady s = true ∨
    ∃ f ∈ taken, f.temporal = 1 ∧ f.spatial = s

theorem inChain_follows {c next : Controller} (h : next.Follows c) :
    next.inChain = c.inChain := by
  have hkind := h.isFull
  cases c <;> cases next <;> first | rfl | simp [isFull] at hkind

theorem reportAll_took {c next : Controller} {taken : List LayerFrame} {coded : List CodedFrame}
    (hlt : ∀ f ∈ taken, f.spatial < 3) (h : c.reportAll taken = .ok (coded, next)) :
    c.Took taken coded next := by
  induction taken generalizing c coded with
  | nil =>
    simp only [reportAll, Except.ok.injEq, Prod.mk.injEq] at h
    obtain ⟨rfl, rfl⟩ := h
    exact ⟨rfl, by simp, ⟨rfl, rfl⟩, rfl, rfl, by simp, fun s _ hm => .inl hm⟩
  | cons f rest ih =>
    obtain ⟨r, mid, hdone, -, -, -, hkept, hbase, hmiddle⟩ := c.done_ok (hlt f (by simp))
    obtain ⟨hchain, henabled, hlast⟩ := done_told hdone
    simp only [reportAll, hdone] at h
    cases hrest : mid.reportAll rest with
    | error b => simp [hrest, Except.map] at h
    | ok told =>
      obtain ⟨more, last⟩ := told
      simp only [hrest, Except.map, Except.ok.injEq, Prod.map_apply, id, Prod.mk.injEq] at h
      obtain ⟨rfl, rfl⟩ := h
      have ht := ih (fun g hg => hlt g (by simp [hg])) hrest
      constructor
      case frames => simp [ht.frames]
      case chains =>
        intro x hx
        cases List.mem_cons.mp hx with
        | inl he => exact he ▸ hchain
        | inr hx =>
          rw [ht.chains x hx, hkept.targets, inChain_follows hkept]
      case kept => exact ⟨ht.kept.isFull.trans hkept.isFull, ht.kept.targets.trans hkept.targets⟩
      case enabled => exact ht.enabled.trans henabled
      case last =>
        rw [ht.last, hlast]
        cases rest <;> simp [List.getLast?_cons]
      case base =>
        intro s hs
        rw [ht.base s hs, hbase s hs, hkept.isFull]
        simp only [List.mem_cons, exists_eq_or_imp, or_assoc, eq_comm (a := s), ← and_or_left]
      case middle =>
        intro s hs hm
        simp only [List.mem_cons, exists_eq_or_imp]
        rcases ht.middle s hs hm with hm | hm
        · rcases hmiddle s hs hm with hm | ⟨h1, he⟩
          · exact .inl hm
          · exact .inr (.inl ⟨h1, he.symm⟩)
        · exact .inr (.inr hm)

/-- A controller can be told of any frames of layers that there are. -/
theorem reportAll_ok {taken : List LayerFrame} (hlt : ∀ f ∈ taken, f.spatial < 3)
    (c : Controller) : ∃ coded next, c.reportAll taken = .ok (coded, next) := by
  induction taken generalizing c with
  | nil => exact ⟨[], c, rfl⟩
  | cons f rest ih =>
    obtain ⟨r, mid, hdone, -⟩ := c.done_ok (hlt f (by simp))
    obtain ⟨coded, next, hrest⟩ := ih (fun g hg => hlt g (by simp [hg])) mid
    exact ⟨⟨f, r⟩ :: coded, next, by simp [reportAll, hdone, hrest, Except.map]⟩

end Controller
end LayeredRtp
