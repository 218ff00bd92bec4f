import LayeredRtp.Controller
import LayeredRtp.Proofs.BufferContents

/-! The frames that controllers plan for one picture: the buffers each of them is predicted
from, and the one it is stored in. -/
namespace LayeredRtp

def Neighbours : List Nat → Prop
  | [] => True
  | [_] => True
  | a :: b :: rest => a + 1 = b ∧ Neighbours (b :: rest)

/-- Ascending numbers without a gap are neighbours. -/
theorem neighbours_of_gapless {l : List Nat} (hsort : l.Pairwise (· < ·))
    (h : ∀ a m b, a ∈ l → b ∈ l → a < m → m < b → m ∈ l) : Neighbours l := by
  induction l with
  | nil => trivial
  | cons a rest ih =>
    obtain ⟨hlt, hrest⟩ := List.pairwise_cons.mp hsort
    have htail : Neighbours rest := by
      refine ih hrest fun x m y hx hy hxm hmy => ?_
      have hm := h x m y (by simp [hx]) (by simp [hy]) hxm hmy
      have := hlt x hx
      cases List.mem_cons.mp hm with
      | inl he => omega
      | inr hm => exact hm
    cases rest with
    | nil => trivial
    | cons b rest =>
      refine ⟨?_, htail⟩
      have hab := hlt b (by simp)
      by_cases hgap : a + 1 = b
      · exact hgap
      · have hm := h a (a + 1) b (by simp) (by simp) (by omega) (by omega)
        have hb := (List.pairwise_cons.mp hrest).1
        simp only [List.mem_cons] at hm
        rcases hm with hm | hm | hm
        · omega
        · omega
        · have := hb _ hm
          omega

namespace LayerGrid

theorem buffer_inj {g : LayerGrid} {s s' t t' : Nat} (hs : s < g.spatial) (hs' : s' < g.spatial)
    (h : g.buffer s t = g.buffer s' t') : s = s' := by
  unfold buffer at h
  split at h <;> split at h <;> omega

theorem mem_activeAt {g : LayerGrid} {sid tid : Nat} :
    sid ∈ g.activeAt tid ↔ g.isActive sid tid = true := by
  simp only [activeAt, spatialIds, List.mem_filter, List.mem_range, and_iff_right_iff_imp]
  intro h
  simp only [isActive, Bool.and_eq_true, decide_eq_true_eq] at h
  exact h.1.1

theorem sorted_activeAt (g : LayerGrid) (tid : Nat) : (g.activeAt tid).Pairwise (· < ·) :=
  List.Pairwise.filter _ List.pairwise_lt_range

theorem lt_of_isActive {g : LayerGrid} {sid tid : Nat} (h : g.isActive sid tid = true) :
    sid < g.spatial ∧ tid < g.temporal := by
  simp only [isActive, Bool.and_eq_true, decide_eq_true_eq] at h
  exact h.1

end LayerGrid

/-- A way to make the frames of one temporal layer. A frame is predicted from buffers of its
own spatial layer and, if frames are linked, from the one that the layer below is stored in. -/
structure Makes (g : LayerGrid) (tid : Nat) (links : Bool) (own : Nat → List Nat)
    (make : Option Nat → Nat → LayerFrame) : Prop where
  spatial : ∀ below s, (make below s).spatial = s
  temporal : ∀ below s, (make below s).temporal = tid
  short : ∀ below s, (make below s).buffers.length ≤ 3
  references : ∀ below s b, b ∈ (make below s).references ↔
    b ∈ own s ∨ links = true ∧ ∃ l, below = some l ∧ b = g.buffer l tid
  ordered : tid ≠ 0 → links = true → ∀ below s,
    (make below s).references = own s ++ (below.map (g.buffer · tid)).toList
  own : ∀ s, ∀ b ∈ own s, ∃ t, b = g.buffer s t
  updates : ∀ below s, ∀ b ∈ (make below s).updates, b = g.buffer s tid
  storesBelow : links = true → ∀ below s, s + 1 < g.spatial →
    g.buffer s tid ∈ (make below s).updates
  storesBase : tid = 0 → ∀ below s, g.buffer s 0 ∈ (make below s).updates
  storesMiddle : tid = 1 → g.temporal = 3 → ∀ below s, g.buffer s 1 ∈ (make below s).updates

theorem Makes.readsBelow {g : LayerGrid} {tid : Nat} {links : Bool} {own : Nat → List Nat}
    {make : Option Nat → Nat → LayerFrame} (hm : Makes g tid links own make)
    (hl : links = true) (l s : Nat) : g.buffer l tid ∈ (make (some l) s).references :=
  (hm.references (some l) s _).mpr (.inr ⟨hl, l, rfl, rfl⟩)

namespace LayerFrame

theorem linked_const (f : Nat → LayerFrame) (below : Option Nat) (sids : List Nat) :
    linked (fun _ => f) below sids = sids.map f := by
  induction sids generalizing below with
  | nil => rfl
  | cons s rest ih => simp [linked, ih]

theorem linked_spatials {make : Option Nat → Nat → LayerFrame}
    (hspatial : ∀ below s, (make below s).spatial = s) (below : Option Nat) (sids : List Nat) :
    (linked make below sids).map (·.spatial) = sids := by
  induction sids generalizing below with
  | nil => rfl
  | cons s rest ih => simp [linked, hspatial, ih]

/-- The spatial layers of linked frames ascend. -/
theorem sorted_linked {make : Option Nat → Nat → LayerFrame}
    (hspatial : ∀ below s, (make below s).spatial = s) {sids : List Nat}
    (hsort : sids.Pairwise (· < ·)) (below : Option Nat) :
    (linked make below sids).Pairwise fun f g => f.spatial < g.spatial := by
  rw [← linked_spatials hspatial below sids] at hsort
  exact List.pairwise_map.mp hsort

theorem mem_linked {make : Option Nat → Nat → LayerFrame} {below : Option Nat} {sids : List Nat}
    {f : LayerFrame} (h : f ∈ linked make below sids) : ∃ b, ∃ s ∈ sids, f = make b s := by
  induction sids generalizing below with
  | nil => simp [linked] at h
  | cons s rest ih =>
    cases List.mem_cons.mp h with
    | inl he => exact ⟨below, s, by simp, he⟩
    | inr hr =>
      obtain ⟨b, x, hx, he⟩ := ih hr
      exact ⟨b, x, by simp [hx], he⟩

def Sources (links : Bool) (own : Nat → List Nat) (earlier : List LayerFrame)
    (f : LayerFrame) : Prop :=
  (∀ b ∈ f.references,
    (b ∈ own f.spatial ∧ ∀ l ∈ earlier, b ∉ l.updates) ∨
    (links = true ∧ (∃ l ∈ earlier, b ∈ l.updates) ∧
      ∀ l ∈ earlier, b ∈ l.updates → l.spatial + 1 = f.spatial)) ∧
  (links = true → earlier ≠ [] → ∃ b ∈ f.references, ∃ l ∈ earlier, b ∈ l.updates)

structure Linking (g : LayerGrid) (tid : Nat) (links : Bool) (below : Option Nat)
    (sids : List Nat) (earlier : List LayerFrame) : Prop where
  lt : ∀ s ∈ sids, s < g.spatial
  sorted : sids.Pairwise (· < ·)
  adjacent : links = true → Neighbours sids
  lower : ∀ l ∈ earlier, l.spatial < g.spatial ∧ (∀ s ∈ sids, l.spatial < s) ∧
    ∀ b ∈ l.updates, b = g.buffer l.spatial tid
  latest : links = true → ∀ k, below = some k → ∀ s, sids.head? = some s →
    k + 1 = s ∧ ∃ l ∈ earlier, g.buffer k tid ∈ l.updates
  first : links = true → below = none → earlier = []

section
variable {g : LayerGrid} {tid : Nat} {links : Bool} {own : Nat → List Nat}
  {make : Option Nat → Nat → LayerFrame} {below : Option Nat} {s : Nat} {rest : List Nat}
  {earlier : List LayerFrame}

theorem Linking.sources (h : Linking g tid links below (s :: rest) earlier)
    (hm : Makes g tid links own make) : Sources links own earlier (make below s) := by
  have hs := h.lt s (by simp)
  have hown (l : LayerFrame) (hl : l ∈ earlier) (b t : Nat) (hb : b = g.buffer s t) :
      b ∉ l.updates := fun hu => by
    obtain ⟨hlt, hlower, hupdates⟩ := h.lower l hl
    have he := g.buffer_inj hs hlt (hb ▸ hupdates b hu)
    have := hlower s (by simp)
    omega
  refine ⟨fun b hb => ?_, fun hl hne => ?_⟩
  · rw [hm.spatial]
    cases (hm.references below s b).mp hb with
    | inl ho =>
      obtain ⟨t, ht⟩ := hm.own s b ho
      exact .inl ⟨ho, fun l hl => hown l hl b t ht⟩
    | inr hk =>
      obtain ⟨hl, k, hk, hbk⟩ := hk
      obtain ⟨hks, l, hmem, hst⟩ := h.latest hl k hk s rfl
      refine .inr ⟨hl, ⟨l, hmem, hbk ▸ hst⟩, fun x hx hu => ?_⟩
      obtain ⟨hlt, -, hupdates⟩ := h.lower x hx
      have he := hupdates b hu
      rw [hbk] at he
      exact g.buffer_inj (by omega) hlt he ▸ hks
  · cases hk : below with
    | none => exact absurd (h.first hl hk) hne
    | some k =>
      obtain ⟨-, l, hmem, hst⟩ := h.latest hl k hk s rfl
      exact ⟨_, hm.readsBelow hl k s, l, hmem, hst⟩

theorem Linking.next (h : Linking g tid links below (s :: rest) earlier)
    (hm : Makes g tid links own make) :
    Linking g tid links (some s) rest (earlier ++ [make below s]) := by
  obtain ⟨hslt, hsort⟩ := List.pairwise_cons.mp h.sorted
  constructor
  case lt => exact fun x hx => h.lt x (by simp [hx])
  case sorted => exact hsort
  case adjacent =>
    intro hl
    cases rest with
    | nil => trivial
    | cons y rest => exact (h.adjacent hl).2
  case lower =>
    intro l hl
    rcases List.mem_append.mp hl with hl | hl
    · obtain ⟨hlt, hlower, hupdates⟩ := h.lower l hl
      exact ⟨hlt, fun x hx => hlower x (by simp [hx]), hupdates⟩
    · obtain rfl := List.mem_singleton.mp hl
      rw [hm.spatial]
      exact ⟨h.lt s (by simp), hslt, hm.updates below s⟩
  case latest =>
    intro hl k hk x hx
    obtain rfl : s = k := Option.some.inj hk
    have hsx : s + 1 = x := by
      cases rest with
      | nil => simp at hx
      | cons y rest =>
        simp only [List.head?_cons, Option.some.injEq] at hx
        exact hx ▸ (h.adjacent hl).1
    have hxlt := h.lt x (by simp [List.mem_of_mem_head? hx])
    exact ⟨hsx, make below s, by simp, hm.storesBelow hl below s (by omega)⟩
  case first => simp

end

theorem linked_sources {g : LayerGrid} {tid : Nat} {links : Bool} {own : Nat → List Nat}
    {make : Option Nat → Nat → LayerFrame} (hm : Makes g tid links own make)
    {below : Option Nat} {sids : List Nat} {earlier : List LayerFrame}
    (h : Linking g tid links below sids earlier) :
    EachAfter (Sources links own) earlier (linked make below sids) := by
  induction sids generalizing below earlier with
  | nil => trivial
  | cons s rest ih => exact ⟨h.sources hm, ih (h.next hm)⟩

end LayerFrame
end LayeredRtp
