import LayeredRtp.Proofs.CheckedReferences
import LayeredRtp.Proofs.RememberedFrames

/-! The lists that a controller answers with. Whatever rates it was given and whichever frames it
was told of, the frames of a list are in order and within the limits of a picture, and there are
none only if nothing is sent. -/
namespace LayeredRtp

namespace LayerGrid

theorem any_eq_false_iff {g : LayerGrid} :
    g.any = false ↔ ∀ sid tid, g.isActive sid tid = false := by
  constructor
  · intro h sid tid
    cases ha : g.isActive sid tid with
    | false => rfl
    | true =>
      obtain ⟨hs, ht⟩ := lt_of_isActive ha
      have hany : g.any = true := List.any_eq_true.mpr ⟨sid, List.mem_range.mpr hs,
        List.any_eq_true.mpr ⟨tid, List.mem_range.mpr ht, ha⟩⟩
      rw [h] at hany
      cases hany
  · intro h
    simp [any, h]

theorem buffer_lt {g : LayerGrid} {sid : Nat} (hs : sid < g.spatial) (tid : Nat) :
    g.buffer sid tid < 2 * g.spatial := by
  unfold buffer
  split <;> omega

end LayerGrid

structure WellFormedPicture (g : LayerGrid) (frames : List LayerFrame) : Prop where
  ascending : frames.Pairwise fun f f' => f.spatial < f'.spatial
  together : ∃ tid tag, ∀ f ∈ frames, f.temporal = tid ∧ f.tag = tag
  sent : ∀ f ∈ frames, g.isActive f.spatial f.temporal = true
  keyFirst : ∀ f ∈ frames.tail, f.isKey = false
  few : ∀ f ∈ frames, f.buffers.length ≤ 3
  buffers : ∀ f ∈ frames, ∀ u ∈ f.buffers, u.buffer < 8
  apart : frames.Pairwise fun f f' => ∀ b ∈ f.updates, b ∉ f'.updates

namespace LayerFrame

structure Patterned (pattern : TemporalPhase) (f : LayerFrame) : Prop where
  tag : f.tag = pattern.tag
  used : ∀ u ∈ f.buffers, u.referenced = true ∨ u.updated = true

theorem Patterned.mem {pattern : TemporalPhase} {f : LayerFrame} (h : f.Patterned pattern)
    {u : BufferUse} (hu : u ∈ f.buffers) : u.buffer ∈ f.references ∨ u.buffer ∈ f.updates := by
  cases h.used u hu with
  | inl hread => exact .inl (List.mem_map_of_mem (List.mem_filter.mpr ⟨hu, hread⟩))
  | inr hwrite => exact .inr (List.mem_map_of_mem (List.mem_filter.mpr ⟨hu, hwrite⟩))

/-- Each frame is made from a layer of the same list, or from what there was before it. -/
theorem mem_linked_upon {make : Option Nat → Nat → LayerFrame} {below : Option Nat}
    {sids : List Nat} {f : LayerFrame} (h : f ∈ linked make below sids) :
    ∃ b, ∃ s ∈ sids, f = make b s ∧ ∀ l, b = some l → below = some l ∨ l ∈ sids := by
  induction sids generalizing below with
  | nil => simp [linked] at h
  | cons s rest ih =>
    cases List.mem_cons.mp h with
    | inl he => exact ⟨below, s, List.mem_cons_self, he, fun l hl => .inl hl⟩
    | inr hr =>
      obtain ⟨b, x, hx, he, hbelow⟩ := ih hr
      refine ⟨b, x, List.mem_cons_of_mem s hx, he, fun l hl => .inr ?_⟩
      cases hbelow l hl with
      | inl hs => exact Option.some.inj hs ▸ List.mem_cons_self
      | inr hl => exact List.mem_cons_of_mem s hl

theorem patterned_linked {make : Option Nat → Nat → LayerFrame} {pattern : TemporalPhase}
    (h : ∀ below s, (make below s).Patterned pattern) (sids : List Nat) :
    ∀ f ∈ linked make none sids, f.Patterned pattern := by
  intro f hf
  obtain ⟨below, s, -, rfl⟩ := mem_linked hf
  exact h below s

theorem used_of_readsIf {buffer : Option Nat} {u : BufferUse} (h : u ∈ readsIf buffer) :
    u.referenced = true := by
  cases buffer with
  | none => simp [readsIf] at h
  | some b => simp [List.mem_singleton.mp h, BufferUse.reads]

end LayerFrame

theorem Makes.buffer_lt {g : LayerGrid} {tid : Nat} {links : Bool} {own : Nat → List Nat}
    {make : Option Nat → Nat → LayerFrame} (hm : Makes g tid links own make) {below : Option Nat}
    {s : Nat} (hs : s < g.spatial) (hbelow : ∀ l, below = some l → l < g.spatial) {b : Nat}
    (hb : b ∈ (make below s).references ∨ b ∈ (make below s).updates) : b < 2 * g.spatial := by
  rcases hb with hread | hwrite
  · rcases (hm.references below s b).mp hread with hown | ⟨-, l, hl, rfl⟩
    · obtain ⟨t, rfl⟩ := hm.own s b hown
      exact g.buffer_lt hs t
    · exact g.buffer_lt (hbelow l hl) tid
  · exact hm.updates below s b hwrite ▸ g.buffer_lt hs tid

namespace FullController

theorem patterned_framesFor (c : FullController) (pattern : TemporalPhase) :
    ∀ f ∈ (c.framesFor pattern).1, f.Patterned pattern := by
  have hbase (pattern : TemporalPhase) (below : Option Nat) (s : Nat) :
      (c.baseFrame pattern below s).Patterned pattern := by
    refine ⟨rfl, fun u hu => ?_⟩
    cases List.mem_append.mp hu with
    | inl hu => exact .inl (LayerFrame.used_of_readsIf hu)
    | inr hu =>
      rw [List.mem_singleton.mp hu]
      cases c.baseReady.get s <;> simp [BufferUse.readsAndWrites, BufferUse.writes]
  have hupper {own : BufferUse} {below : Option Nat} {writes : Prop} [Decidable writes]
      {buffer : Nat} {u : BufferUse} (hown : own.referenced = true)
      (hu : u ∈ own :: LayerFrame.readsIf below ++ if writes then [.writes buffer] else []) :
      u.referenced = true ∨ u.updated = true := by
    rcases List.mem_append.mp hu with hu | hu
    · rcases List.mem_cons.mp hu with rfl | hu
      · exact .inl hown
      · exact .inl (LayerFrame.used_of_readsIf hu)
    · obtain ⟨-, rfl⟩ : writes ∧ u = .writes buffer := by simpa using hu
      exact .inr rfl
  cases pattern with
  | idle => simp [framesFor]
  | key => exact LayerFrame.patterned_linked (hbase .key) _
  | t0 => exact LayerFrame.patterned_linked (hbase .t0) _
  | t1 => exact LayerFrame.patterned_linked (fun _ _ => ⟨rfl, fun _ => hupper rfl⟩) _
  | earlyT2 => exact LayerFrame.patterned_linked (fun _ _ => ⟨rfl, fun _ => hupper rfl⟩) _
  | lateT2 => exact LayerFrame.patterned_linked (fun _ _ => ⟨rfl, fun _ => hupper rfl⟩) _

theorem exists_patterned (c : FullController) (restart : Bool) :
    ∃ pattern, ∀ f ∈ (c.next restart).1, f.Patterned pattern := by
  by_cases h : c.targets.any = true
  · rcases c.next_cases restart h with hkey | ⟨rfl, hlast, -, hgoing⟩
    · rw [hkey]
      exact ⟨.key, c.forgotten.patterned_framesFor .key⟩
    · rw [hgoing, plan_going hlast]
      exact ⟨_, c.patterned_framesFor _⟩
  · simp only [next, Bool.eq_false_iff.mpr h]
    exact ⟨.idle, by simp⟩

end FullController

namespace KeyController

theorem patterned_framesFor (c : KeyController) (pattern : TemporalPhase) :
    ∀ f ∈ (c.framesFor pattern).1, f.Patterned pattern := by
  have hkey (below : Option Nat) (s : Nat) : (c.keyFrame below s).Patterned .key := by
    refine ⟨rfl, fun u hu => ?_⟩
    cases List.mem_append.mp hu with
    | inl hu => exact .inl (LayerFrame.used_of_readsIf hu)
    | inr hu => exact .inr (List.mem_singleton.mp hu ▸ rfl)
  have hmiddle (s : Nat) : (c.middleFrame s).Patterned .t1 := by
    refine ⟨rfl, fun u hu => ?_⟩
    rcases List.mem_cons.mp hu with rfl | hu
    · exact .inl rfl
    · obtain ⟨-, rfl⟩ : 2 < c.targets.temporal ∧ u = .writes (c.targets.buffer s 1) := by
        simpa using hu
      exact .inr rfl
  have hbase (s : Nat) : (c.baseFrame s).Patterned .t0 :=
    ⟨rfl, fun u hu => .inl (List.mem_singleton.mp hu ▸ rfl)⟩
  have htop (pattern : TemporalPhase) (s : Nat) : (c.topFrame pattern s).Patterned pattern :=
    ⟨rfl, fun u hu => .inl (List.mem_singleton.mp hu ▸ rfl)⟩
  cases pattern with
  | idle => simp [framesFor]
  | key => exact LayerFrame.patterned_linked hkey _
  | t0 => exact List.forall_mem_map.mpr fun s _ => hbase s
  | t1 => exact List.forall_mem_map.mpr fun s _ => hmiddle s
  | earlyT2 => exact List.forall_mem_map.mpr fun s _ => htop .earlyT2 s
  | lateT2 => exact List.forall_mem_map.mpr fun s _ => htop .lateT2 s

theorem exists_patterned (c : KeyController) (restart : Bool) :
    ∃ pattern, ∀ f ∈ (c.next restart).1, f.Patterned pattern := by
  by_cases h : c.targets.any = true
  · rcases c.next_cases restart h with hkey | ⟨rfl, -, hgoing⟩
    · rw [hkey]
      exact ⟨.key, patterned_framesFor _ .key⟩
    · rw [hgoing]
      exact ⟨_, c.patterned_framesFor _⟩
  · simp only [next, Bool.eq_false_iff.mpr h]
    exact ⟨.idle, by simp⟩

end KeyController

namespace Controller

variable {start c mid : Controller} {restart : Bool} {frames latest : List LayerFrame}

theorem exists_patterned (c : Controller) (restart : Bool) :
    ∃ pattern, ∀ f ∈ (c.next restart).1, f.Patterned pattern := by
  cases c with
  | full c => exact c.exists_patterned restart
  | key c => exact c.exists_patterned restart

/-- A picture has frames of one temporal layer, made one upon the other, of layers that send it. -/
theorem Planned.frames_cases (hp : c.Planned restart frames mid) :
    c.targets.any = false ∧ frames = [] ∨
      ∃ tid links own make sids, Makes c.targets tid links own make ∧
        frames = LayerFrame.linked make none sids ∧ sids ≠ [] ∧ sids.Pairwise (· < ·) ∧
        ∀ s ∈ sids, c.targets.isActive s tid = true := by
  cases hp with
  | nothing hnone => exact .inl ⟨hnone, rfl⟩
  | @key make _ plan =>
    exact .inr ⟨0, true, _, make, _, plan.makes, rfl, plan.chosen, c.targets.sorted_activeAt 0,
      fun s hs => LayerGrid.mem_activeAt.mp hs⟩
  | @delta tid own make sids _ _ plan =>
    exact .inr ⟨tid, c.isFull, own, make, sids, plan.makes, rfl, plan.chosen, plan.sorted,
      fun s hs => ((plan.mem s).mp hs).1⟩

theorem Planned.eq_nil_iff (hp : c.Planned restart frames mid) :
    frames = [] ↔ ∀ sid tid, c.targets.isActive sid tid = false := by
  rw [← LayerGrid.any_eq_false_iff]
  rcases hp.frames_cases with ⟨hnone, rfl⟩ | ⟨tid, _, _, make, sids, _, rfl, hne, -, hsent⟩
  · simp [hnone]
  · obtain ⟨s, rest, rfl⟩ := List.exists_cons_of_ne_nil hne
    constructor
    · intro hnil
      cases hnil
    · intro hnone
      have hactive := hsent s List.mem_cons_self
      rw [LayerGrid.any_eq_false_iff.mp hnone s tid] at hactive
      cases hactive

/-- Frames of different layers are stored in different buffers. -/
theorem Planned.apart (hp : c.Planned restart frames mid)
    (ascending : frames.Pairwise fun f f' => f.spatial < f'.spatial) :
    frames.Pairwise fun f f' => ∀ b ∈ f.updates, b ∉ f'.updates := by
  refine ascending.imp_of_mem fun {f f'} hf hf' hlt b hb hb' => ?_
  have hsame : c.targets.buffer f.spatial f.temporal = c.targets.buffer f'.spatial f'.temporal :=
    ((hp.fits hf).updates b hb).symm.trans ((hp.fits hf').updates b hb')
  have := c.targets.buffer_inj (hp.fits hf).spatial (hp.fits hf').spatial hsame
  omega

theorem Planned.wellFormed (hp : c.Planned restart frames mid) (hf : c.Formed)
    (hpattern : ∃ pattern, ∀ f ∈ frames, f.Patterned pattern) :
    WellFormedPicture c.targets frames := by
  obtain ⟨pattern, hpattern⟩ := hpattern
  rcases hp.frames_cases with ⟨-, rfl⟩ | ⟨tid, links, own, make, sids, hm, hlinked, -, hsort, hsent⟩
  · constructor <;> simp
  · have hascending : frames.Pairwise fun f f' => f.spatial < f'.spatial :=
      hlinked ▸ LayerFrame.sorted_linked hm.spatial hsort none
    have hmade : ∀ f ∈ frames, ∃ below s, f = make below s ∧ c.targets.isActive s tid = true ∧
        ∀ l, below = some l → l < c.targets.spatial := by
      intro f hmem
      obtain ⟨below, s, hs, rfl, hbelow⟩ := LayerFrame.mem_linked_upon (hlinked ▸ hmem)
      refine ⟨below, s, rfl, hsent s hs, fun l hl => ?_⟩
      exact (LayerGrid.lt_of_isActive (hsent l ((hbelow l hl).resolve_left (by simp)))).1
    constructor
    case ascending => exact hascending
    case together =>
      refine ⟨tid, pattern.tag, fun f hmem => ?_⟩
      obtain ⟨below, s, rfl, -⟩ := hmade f hmem
      exact ⟨hm.temporal below s, (hpattern _ hmem).tag⟩
    case sent =>
      intro f hmem
      obtain ⟨below, s, rfl, hactive, -⟩ := hmade f hmem
      rwa [hm.spatial, hm.temporal]
    case keyFirst => exact hp.keyFirst
    case few =>
      intro f hmem
      obtain ⟨below, s, rfl, -⟩ := hmade f hmem
      exact hm.short below s
    case buffers =>
      intro f hmem u hu
      obtain ⟨below, s, rfl, hactive, hbelow⟩ := hmade f hmem
      have hlt := hm.buffer_lt (LayerGrid.lt_of_isActive hactive).1 hbelow
        ((hpattern _ hmem).mem hu)
      have hspatial := hf.spatial
      omega
    case apart => exact hp.apart hascending

/-- What a controller goes through, with the list it answered with last. It is told of any frames
of that list, in any order and as often as one likes, and rates may change in between. -/
inductive Driven (start : Controller) : Controller → List LayerFrame → Prop
  | start : Driven start start []
  | setRates {c : Controller} {latest : List LayerFrame} (r : LayerRates) :
      Driven start c latest → Driven start (c.setRates r) latest
  | next {c : Controller} {latest : List LayerFrame} (restart : Bool) :
      Driven start c latest → Driven start (c.next restart).2 (c.next restart).1
  | done {c next : Controller} {latest : List LayerFrame} {f : LayerFrame} {report : FrameReport} :
      Driven start c latest → f ∈ latest → c.done f = .ok (report, next) →
      Driven start next latest

/-- No step leaves the layers that there are, in the targets or in the latest list. -/
theorem Driven.formed (h : start.Driven c latest) (hstart : start.Formed) :
    c.Formed ∧ ∀ f ∈ latest, f.spatial < 3 := by
  induction h with
  | start => exact ⟨hstart, by simp⟩
  | setRates r _ ih => exact ⟨ih.1.setRates r, ih.2⟩
  | @next c _ restart _ ih =>
    have hp := c.next_planned restart ih.1.layered
    exact ⟨ih.1.follows hp.follows, fun f hf =>
      Nat.lt_of_lt_of_le (hp.fits hf).spatial ih.1.spatial⟩
  | @done c _ _ f _ _ hmem hdone ih =>
    obtain ⟨_, _, hok, -, -, -, hkept, -⟩ := c.done_ok (ih.2 f hmem)
    rw [hdone] at hok
    cases hok
    exact ⟨ih.1.follows hkept, ih.2⟩

theorem exists_new (keyOnly : Bool) {spatial temporal : Nat} (hs : 1 ≤ spatial ∧ spatial ≤ 3)
    (ht : 1 ≤ temporal ∧ temporal ≤ 3) :
    ∃ start, Controller.new keyOnly spatial temporal = .ok start := by
  cases keyOnly <;>
    simp [Controller.new, FullController.new, KeyController.new, LayerGrid.new, hs, ht,
      Except.map, bind, Except.bind, pure, Except.pure]

/-- Whatever a controller of one to three layers either way goes through, the list that it answers
with next is well formed, all its frames can be built, and it has none only if nothing is sent. The
controller can be told of every frame of the latest list. -/
theorem plans_wellFormed (keyOnly : Bool) {spatial temporal : Nat}
    (hs : 1 ≤ spatial ∧ spatial ≤ 3) (ht : 1 ≤ temporal ∧ temporal ≤ 3) :
    ∃ start, Controller.new keyOnly spatial temporal = .ok start ∧
      ∀ c latest, start.Driven c latest →
        (∀ restart, WellFormedPicture c.targets (c.next restart).1 ∧
          (∀ f ∈ (c.next restart).1, f.Built) ∧
          ((c.next restart).1 = [] ↔ ∀ sid tid, c.targets.isActive sid tid = false)) ∧
        ∀ f ∈ latest, ∃ report next, c.done f = .ok (report, next) := by
  obtain ⟨start, hnew⟩ := exists_new keyOnly hs ht
  refine ⟨start, hnew, fun c latest hdriven => ?_⟩
  obtain ⟨hformed, hlatest⟩ := hdriven.formed (formed_new hnew)
  refine ⟨fun restart => ?_, fun f hf => ?_⟩
  · have hp := c.next_planned restart hformed.layered
    have hwell := hp.wellFormed hformed (c.exists_patterned restart)
    refine ⟨hwell, fun f hf => ?_, hp.eq_nil_iff⟩
    exact LayerFrame.built_iff.mpr ⟨hwell.few f hf, hwell.buffers f hf⟩
  · obtain ⟨report, next, hok, -⟩ := c.done_ok (hlatest f hf)
    exact ⟨report, next, hok⟩

/-- The only layer that sends a second temporal layer was not coded yet, so the pattern leaves
nothing to code, and the structure starts over. -/
theorem plans_wellFormed_restarted : ∃ start c latest,
    Controller.new false 2 2 = .ok start ∧ start.Driven c latest ∧
      latest.map (·.spatial) = [0] ∧ c.targets.nextPhase c.last = .t1 ∧
      (c.next false).1.map (fun f => (f.spatial, f.temporal, f.isKey)) =
        [(0, 0, true), (1, 0, false)] ∧
      WellFormedPicture c.targets (c.next false).1 := by
  let lower : LayerRates := (LayerRates.set {} 0 0 ⟨100⟩).set 0 1 ⟨50⟩
  let upper : LayerRates := ((LayerRates.set {} 0 0 ⟨100⟩).set 1 0 ⟨200⟩).set 1 1 ⟨100⟩
  have htwo : 1 ≤ 2 ∧ 2 ≤ 3 := by decide
  obtain ⟨start, hnew, hall⟩ := plans_wellFormed false htwo htwo
  cases hnew
  obtain ⟨c, latest, hdriven, hlatest, hphase, hnext⟩ : ∃ c latest,
      (ofMode { spatial := 2, temporal := 2 }).Driven c latest ∧ latest.map (·.spatial) = [0] ∧
        c.targets.nextPhase c.last = .t1 ∧
        (c.next false).1.map (fun f => (f.spatial, f.temporal, f.isKey)) =
          [(0, 0, true), (1, 0, false)] :=
    ⟨_, _, .setRates upper (.done (.next false (.setRates lower .start)) List.mem_cons_self rfl),
      rfl, rfl, rfl⟩
  exact ⟨_, c, latest, rfl, hdriven, hlatest, hphase, hnext, ((hall c latest hdriven).1 false).1⟩

end Controller
end LayeredRtp
