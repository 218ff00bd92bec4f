import LayeredRtp.Proofs.ControllerStages
import LayeredRtp.Proofs.RememberedFrames

/-! Pictures of which the codec coded only the lower spatial layers. Where layers are predicted
from below on every picture, all that later pictures take was coded. Where that is so on key
pictures only, a key picture without its upper layers is followed by a picture that takes what was
not coded since. -/
namespace LayeredRtp

open CodedFrame (Stored)

namespace AskedPicture

def Complete (p : AskedPicture) : Prop := p.coded.map (·.frame) = p.frames

/-- A buffer that a frame is predicted from was stored by a lower frame of the picture, or by a
frame coded since the last key frame before it. -/
def Grounded (p : AskedPicture) (older : List AskedPicture) : Prop :=
  ∀ lower f upper, p.frames = lower ++ f :: upper → ∀ b ∈ f.references,
    (∀ l ∈ lower, b ∉ l.updates) → Stored b (reported older)

def AllGrounded : List AskedPicture → Prop
  | [] => True
  | p :: older => p.Grounded older ∧ AllGrounded older

def KeysComplete : List AskedPicture → Prop
  | q :: p :: older => (p.isKey = true → q.isKey = false → p.Complete) ∧ KeysComplete (p :: older)
  | _ => True

theorem KeysComplete.older {p : AskedPicture} {older : List AskedPicture}
    (h : KeysComplete (p :: older)) : KeysComplete older := by
  cases older with
  | nil => trivial
  | cons q older => exact h.2

/-- Key pictures may follow one another. -/
theorem KeysComplete.key {p : AskedPicture} {older : List AskedPicture} (h : KeysComplete older)
    (hp : p.isKey = true) : KeysComplete (p :: older) := by
  cases older with
  | nil => trivial
  | cons q older => exact ⟨fun _ hdelta => by simp [hp] at hdelta, h⟩

end AskedPicture

namespace Controller

open AskedPicture

variable {c mid next : Controller} {restart : Bool} {frames taken : List LayerFrame}
  {coded log : List CodedFrame} {tid : Nat} {own : Nat → List Nat}
  {make : Option Nat → Nat → LayerFrame} {sids : List Nat} {asked older : List AskedPicture}

/-- Every reference of a key picture stays within the picture. -/
theorem KeyPlan.linked_below (hp : c.KeyPlan make mid) {lower upper : List LayerFrame}
    {f : LayerFrame}
    (hsplit : LayerFrame.linked make none (c.targets.activeAt 0) = lower ++ f :: upper) {b : Nat}
    (hb : b ∈ f.references) : ∃ l ∈ lower, b ∈ l.updates := by
  obtain ⟨k, hplaced⟩ := LayerFrame.linked_placed hp.makes (c.targets.sorted_activeAt 0) hsplit
  have hfits := hp.fits (f := f) (by simp [hsplit])
  rw [hplaced.made, hp.makes.references] at hb
  rcases hb with hb | ⟨-, l, rfl, hbl⟩
  · simp at hb
  · obtain ⟨-, j, rest, rfl, hstored⟩ := hplaced.stored_below hp.makes rfl hfits.spatial
    exact ⟨make j l, by simp, hbl ▸ hstored⟩

/-- With what a controller remembers to be there, its pictures are grounded. -/
theorem DeltaPlan.grounded (hf : c.Formed) (hb : c.Backed log)
    (hp : c.DeltaPlan tid own make sids mid) {lower upper : List LayerFrame} {f : LayerFrame}
    (hsplit : LayerFrame.linked make none sids = lower ++ f :: upper) {b : Nat}
    (href : b ∈ f.references) (hnew : ∀ l ∈ lower, b ∉ l.updates) : Stored b log := by
  obtain ⟨k, hplaced⟩ := LayerFrame.linked_placed hp.makes hp.sorted hsplit
  have hfits := hp.fits (f := f) (by simp [hsplit])
  rw [hplaced.made, hp.makes.references] at href
  rcases href with hown | ⟨hlinks, l, rfl, rfl⟩
  · exact (hp.stored hf hb hplaced.mem hown).1
  · obtain ⟨-, j, rest, rfl, hstored⟩ := hplaced.stored_below hp.makes hlinks hfits.spatial
    exact absurd hstored (hnew (make j l) (by simp))

/-- What a run has come to. As long as nothing is amiss, all that is remembered is there. After a
part of a key picture a layer is missing, and the picture that misses it gives the rest away. -/
inductive Standing (c : Controller) : List AskedPicture → Prop
  | backed {asked : List AskedPicture} (backed : c.Backed (reported asked))
      (latest : c.isFull = false → c.last ≠ .idle → ∀ p older, asked = p :: older →
        p.isKey = true → p.Complete)
      (grounded : AllGrounded asked) (complete : c.isFull = false → KeysComplete asked) :
      Standing c asked
  | torn {p : AskedPicture} {older : List AskedPicture} (kind : c.isFull = false)
      (isKey : p.isKey = true) (part : ¬p.Complete)
      (missing : ∃ s < c.targets.spatial,
        ¬Stored (c.targets.buffer s 0) (reported (p :: older)))
      (middle : ∀ s < 3, c.middleReady s = false)
      (grounded : AllGrounded (p :: older)) (complete : KeysComplete (p :: older)) :
      Standing c (p :: older)
  | lost {asked : List AskedPicture} (kind : c.isFull = false) (grounded : ¬AllGrounded asked)
      (complete : ¬KeysComplete asked) : Standing c asked

/-- Of a key picture that was coded in part, some layer was not. -/
theorem KeyPlan.missing (hp : c.KeyPlan make mid) (ht : mid.Took taken coded next)
    (htaken : taken <+: LayerFrame.linked make none (c.targets.activeAt 0)) (hsome : taken ≠ [])
    (hpart : taken ≠ LayerFrame.linked make none (c.targets.activeAt 0))
    (log : List CodedFrame) :
    ∃ s < c.targets.spatial, ¬Stored (c.targets.buffer s 0) (coded.reverse ++ log) := by
  have hsort := LayerFrame.sorted_linked hp.makes.spatial (c.targets.sorted_activeAt 0) none
  obtain ⟨first, after, hfirst, hkey⟩ := hp.lowest_key
  obtain ⟨rest, hrest⟩ := htaken
  cases rest with
  | nil => exact absurd (by simpa using hrest) hpart
  | cons f upper =>
    have hlt := (hp.fits (f := f) (by simp [← hrest])).spatial
    refine ⟨f.spatial, hlt, fun hstored => ?_⟩
    rcases hstored.cases with ⟨x, hx, hb⟩ | ⟨hnone, -⟩
    · -- Only frames of the layer itself are stored in its buffer, and they are not below it.
      have hmem := ht.mem.mpr ⟨x, hx, rfl⟩
      have hbase := (hp.fits (f := x.frame) (by simp [← hrest, hmem])).of_base hlt hb
      rw [← hrest] at hsort
      have := (List.pairwise_append.mp hsort).2.2 x.frame hmem f (by simp)
      omega
    · obtain ⟨g, lower, rfl⟩ := List.exists_cons_of_ne_nil hsome
      obtain ⟨x, hx, hxg⟩ := ht.mem.mp (List.mem_cons_self (a := g) (l := lower))
      rw [hfirst] at hrest
      obtain ⟨rfl, -⟩ := List.cons.inj hrest
      rw [hxg.symm, hnone x hx] at hkey
      cases hkey

/-- A key picture needs nothing from before it, and leaves a layer missing if only a part of it is
coded. -/
theorem KeyPlan.standing (hf : c.Formed) (hp : c.KeyPlan make mid)
    (ht : mid.Took taken coded next)
    (htaken : taken <+: LayerFrame.linked make none (c.targets.activeAt 0))
    (hgrounded : AllGrounded asked) (hcomplete : c.isFull = false → KeysComplete asked) :
    next.Standing (⟨LayerFrame.linked make none (c.targets.activeAt 0), coded⟩ :: asked) := by
  have hkept := ht.follows hp.kept
  have hkey := hp.isKey_asked coded
  have hall : AllGrounded
      (⟨LayerFrame.linked make none (c.targets.activeAt 0), coded⟩ :: asked) := by
    refine ⟨fun lower f upper hsplit b hb hnew => ?_, hgrounded⟩
    obtain ⟨l, hl, hstored⟩ := hp.linked_below hsplit hb
    exact absurd hstored (hnew l hl)
  by_cases hwhole : c.isFull = true ∨ taken = [] ∨
      taken = LayerFrame.linked make none (c.targets.activeAt 0)
  · refine .backed (hp.backed hf ht htaken hwhole _) ?_ hall fun hkind =>
      (hcomplete (hkept.isFull.symm.trans hkind)).key hkey
    rintro hkind hgoing p older ⟨rfl, rfl⟩ -
    rcases hwhole with hfull | rfl | rfl
    · rw [hkept.isFull, hfull] at hkind
      cases hkind
    · exact absurd (ht.last_idle.trans hp.last) hgoing
    · exact ht.frames
  · simp only [not_or, Bool.not_eq_true] at hwhole
    obtain ⟨hkind, hsome, hpart⟩ := hwhole
    refine .torn (hkept.isFull.trans hkind) hkey ?_ ?_ ?_ hall ((hcomplete hkind).key hkey)
    · exact fun hcomplete => hpart (ht.frames.symm.trans hcomplete)
    · rw [hkept.targets]
      exact hp.missing ht htaken hsome hpart _
    · intro s hs
      apply Bool.eq_false_iff.mpr
      intro hm
      rcases ht.middle s hs hm with hm | ⟨f, hmem, h1, -⟩
      · simp [hp.middle s hs] at hm
      · obtain ⟨below, x, -, rfl⟩ := LayerFrame.mem_linked (htaken.subset hmem)
        simp [hp.makes.temporal] at h1

theorem Standing.key (hf : c.Formed) (hst : c.Standing asked) (hp : c.KeyPlan make mid)
    (ht : mid.Took taken coded next)
    (htaken : taken <+: LayerFrame.linked make none (c.targets.activeAt 0)) :
    next.Standing (⟨LayerFrame.linked make none (c.targets.activeAt 0), coded⟩ :: asked) := by
  cases hst with
  | backed _ _ hgrounded hcomplete => exact hp.standing hf ht htaken hgrounded hcomplete
  | torn _ _ _ _ _ hgrounded hcomplete =>
    exact hp.standing hf ht htaken hgrounded fun _ => hcomplete
  | lost hkind hgrounded hcomplete =>
    exact .lost ((ht.follows hp.kept).isFull.trans hkind) (fun h => hgrounded h.2)
      fun h => hcomplete h.older

/-- A layer that is missing is called for by the next picture. -/
theorem DeltaPlan.ungrounded (hp : c.DeltaPlan tid own make sids mid) (hon : c.targets.Whole)
    (hkind : c.isFull = false) (hmiddle : ∀ s < 3, c.middleReady s = false) (hf : c.Formed)
    (hmissing : ∃ s < c.targets.spatial, ¬Stored (c.targets.buffer s 0) (reported asked))
    (coded : List CodedFrame) :
    ¬Grounded ⟨LayerFrame.linked make none sids, coded⟩ asked := by
  intro hgrounded
  obtain ⟨s, hs, hmissing⟩ := hmissing
  have hspatial := hf.spatial
  have hin : s ∈ sids := by
    obtain ⟨x, rest, hsids⟩ := List.exists_cons_of_ne_nil hp.chosen
    have hx := ((hp.mem x).mp (by simp [hsids])).1
    refine (hp.mem s).mpr ⟨hon s hs tid (LayerGrid.lt_of_isActive hx).2, fun hfull => ?_⟩
    rw [hkind] at hfull
    cases hfull
  obtain ⟨k, hk⟩ := LayerFrame.mem_linked_of_mem make none hin
  obtain ⟨lower, upper, hsplit⟩ := List.append_of_mem hk
  have hown : own s ≠ [] := fun hbare => by simp [(hp.bare s).mp hbare] at hkind
  obtain ⟨b, rest, hb⟩ := List.exists_cons_of_ne_nil hown
  have hbase : b = c.targets.buffer s 0 := by
    rcases hp.own s hin b (by simp [hb]) with ⟨hbase, -⟩ | ⟨-, hm, -⟩
    · exact hbase
    · simp [hmiddle s (by omega)] at hm
  apply hmissing
  rw [← hbase]
  refine hgrounded lower _ upper hsplit b
    ((hp.makes.references k s b).mpr (.inl (by simp [hb]))) fun l hl hstored => ?_
  have hlower := (List.pairwise_append.mp (hsplit ▸ LayerFrame.sorted_linked hp.makes.spatial hp.sorted none)).2.2 l hl
    (make k s) (by simp)
  have hlayer := (hp.fits (f := l) (by simp [hsplit, hl])).of_base hs (hbase ▸ hstored)
  rw [hp.makes.spatial] at hlower
  omega

theorem Standing.delta (hf : c.Formed) (hon : c.targets.Whole) (hst : c.Standing asked)
    (hp : c.DeltaPlan tid own make sids mid) (ht : mid.Took taken coded next)
    (htaken : taken <+: LayerFrame.linked make none sids) :
    next.Standing (⟨LayerFrame.linked make none sids, coded⟩ :: asked) := by
  have hkept := ht.follows hp.kept
  have hdelta := hp.isKey_asked coded
  cases hst with
  | backed hb hlatest hgrounded hcomplete =>
    refine .backed (hp.backed hf hb ht htaken) ?_ ⟨?_, hgrounded⟩ ?_
    · rintro - - p older ⟨rfl, rfl⟩ hkey
      rw [hdelta] at hkey
      cases hkey
    · exact fun lower f upper hsplit b => hp.grounded hf hb hsplit
    · rw [hkept.isFull]
      intro hkind
      cases asked with
      | nil => trivial
      | cons p older =>
        exact ⟨fun hkey _ => hlatest hkind hp.going p older rfl hkey, hcomplete hkind⟩
  | torn hkind hkey hpart hmissing hmiddle =>
    refine .lost (hkept.isFull.trans hkind) (fun h => ?_) fun h => hpart (h.1 hkey hdelta)
    exact hp.ungrounded hon hkind hmiddle hf hmissing coded h.1
  | lost hkind hgrounded hcomplete =>
    exact .lost (hkept.isFull.trans hkind) (fun h => hgrounded h.2) fun h => hcomplete h.older

end Controller
end LayeredRtp
