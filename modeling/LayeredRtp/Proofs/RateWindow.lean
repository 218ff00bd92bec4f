import LayeredRtp.Repair
import Mathlib.Algebra.BigOperators.Ring.Finset
import Mathlib.Data.List.TakeDrop
import Mathlib.Data.List.TakeWhile

/-! What a rate counts. As long as time does not go back, the window has the total of what was
allowed less than its length ago, and bytes are allowed exactly if they and that total stay within
the rate. -/
namespace LayeredRtp

def sampledBytes (samples : List (Time × ByteCount)) : Nat := (samples.map (·.2.bytes)).sum

def usedWithin (length : Time) (uses : List (Time × ByteCount)) (now : Time) : Nat :=
  sampledBytes (uses.filter fun u => now - u.1 < length)

variable {length now later : Time} {uses more : List (Time × ByteCount)}

theorem sampledBytes_append (uses more : List (Time × ByteCount)) :
    sampledBytes (uses ++ more) = sampledBytes uses + sampledBytes more := by
  simp [sampledBytes]

theorem usedWithin_append (length : Time) (uses more : List (Time × ByteCount)) (now : Time) :
    usedWithin length (uses ++ more) now =
      usedWithin length uses now + usedWithin length more now := by
  simp [usedWithin, sampledBytes_append]

theorem usedWithin_of_gone (h : ∀ u ∈ uses, length ≤ now - u.1) :
    usedWithin length uses now = 0 := by
  have hnone : uses.filter (fun u => now - u.1 < length) = [] := by
    simpa using h
  simp [usedWithin, hnone, sampledBytes]

theorem usedWithin_of_kept (h : ∀ u ∈ uses, now - u.1 < length) :
    usedWithin length uses now = sampledBytes uses := by
  have hall : uses.filter (fun u => now - u.1 < length) = uses := by
    simpa using h
  rw [usedWithin, hall]

namespace UsageWindow

variable {w : UsageWindow}

theorem expire_eq (w : UsageWindow) (now : Time) : w.expire now =
    { w with
      samples := w.samples.dropWhile fun s => w.length ≤ now - s.1
      total := (w.samples.takeWhile fun s => w.length ≤ now - s.1).foldl
        (fun total s => total - s.2) w.total } := by
  simp [expire, List.span_eq_takeWhile_dropWhile]

theorem bytes_foldl_sub (gone : List (Time × ByteCount)) (total : ByteCount) :
    (gone.foldl (fun total s => total - s.2) total).bytes = total.bytes - sampledBytes gone := by
  induction gone generalizing total with
  | nil => simp [sampledBytes]
  | cons s rest ih =>
    have hsub : (total - s.2).bytes = total.bytes - s.2.bytes := rfl
    rw [List.foldl_cons, ih, hsub, Nat.sub_sub]
    simp [sampledBytes]

/-- To forget what has left the window and then more of it is to forget it at once. -/
theorem expire_expire (w : UsageWindow) (h : now ≤ later) :
    (w.expire now).expire later = w.expire later := by
  have hsplit (samples : List (Time × ByteCount)) (total : ByteCount) :
      ((samples.dropWhile fun s => w.length ≤ now - s.1).dropWhile fun s => w.length ≤ later - s.1)
          = samples.dropWhile (fun s => w.length ≤ later - s.1) ∧
        ((samples.dropWhile fun s => w.length ≤ now - s.1).takeWhile fun s =>
            w.length ≤ later - s.1).foldl (fun total s => total - s.2)
          ((samples.takeWhile fun s => w.length ≤ now - s.1).foldl
            (fun total s => total - s.2) total)
          = (samples.takeWhile fun s => w.length ≤ later - s.1).foldl
            (fun total s => total - s.2) total := by
    induction samples generalizing total with
    | nil => exact ⟨rfl, rfl⟩
    | cons s rest ih =>
      by_cases hgone : w.length ≤ now - s.1
      · have hlater : w.length ≤ later - s.1 := Nat.le_trans hgone (Nat.sub_le_sub_right h _)
        simpa [hgone, hlater] using ih (total - s.2)
      · simp [hgone]
  obtain ⟨hsamples, htotal⟩ := hsplit w.samples w.total
  simp only [expire_eq, hsamples, htotal]

/-- The window has the total of the latest uses, and those before them have left it. -/
structure Records (w : UsageWindow) (uses : List (Time × ByteCount)) (now : Time) : Prop where
  ordered : uses.Pairwise fun u v => u.1 ≤ v.1
  past : ∀ u ∈ uses, u.1 ≤ now
  held : ∃ gone, uses = gone ++ w.samples ∧ ∀ u ∈ gone, w.length ≤ now - u.1
  total : w.total.bytes = sampledBytes w.samples

namespace Records

theorem new (length now : Time) : Records { length } [] now where
  ordered := .nil
  past := nofun
  held := ⟨[], rfl, nofun⟩
  total := rfl

/-- Time passes without a use. -/
theorem wait (h : w.Records uses now) (hlater : now ≤ later) : w.Records uses later := by
  obtain ⟨hordered, hpast, ⟨gone, huses, hgone⟩, htotal⟩ := h
  exact ⟨hordered, fun u hu => Nat.le_trans (hpast u hu) hlater,
    ⟨gone, huses, fun u hu => Nat.le_trans (hgone u hu) (Nat.sub_le_sub_right hlater _)⟩, htotal⟩

theorem expire (h : w.Records uses now) (hlater : now ≤ later) :
    (w.expire later).Records uses later := by
  obtain ⟨hordered, hpast, ⟨gone, huses, hgone⟩, htotal⟩ := h.wait hlater
  have hsplit := List.takeWhile_append_dropWhile
    (p := fun s : Time × ByteCount => w.length ≤ later - s.1) (l := w.samples)
  rw [expire_eq]
  refine ⟨hordered, hpast,
    ⟨gone ++ w.samples.takeWhile fun s => w.length ≤ later - s.1, ?_, ?_⟩, ?_⟩
  · rw [huses, List.append_assoc, hsplit]
  · intro u hu
    cases List.mem_append.mp hu with
    | inl hu => exact hgone u hu
    | inr hu => simpa using List.mem_takeWhile_imp hu
  · have hsum := congrArg sampledBytes hsplit
    rw [sampledBytes_append] at hsum
    simp only [bytes_foldl_sub, htotal]
    omega

/-- Something is used now, and the total has room for it. -/
theorem add (h : w.Records uses now) {size : ByteCount}
    (hroom : w.total.bytes + size.bytes ≤ ByteCount.limit) :
    (w.add now size).Records (uses ++ [(now, size)]) now := by
  obtain ⟨hordered, hpast, ⟨gone, huses, hgone⟩, htotal⟩ := h
  refine ⟨?_, ?_, ⟨gone, by simp [huses, UsageWindow.add], hgone⟩, ?_⟩
  · refine List.pairwise_append.mpr ⟨hordered, List.pairwise_singleton _ _, fun u hu v hv => ?_⟩
    exact List.mem_singleton.mp hv ▸ hpast u hu
  · intro u hu
    cases List.mem_append.mp hu with
    | inl hu => exact hpast u hu
    | inr hu => exact Nat.le_of_eq (congrArg Prod.fst (List.mem_singleton.mp hu))
  · have hsum : (w.add now size).total.bytes =
        min (w.total.bytes + size.bytes) ByteCount.limit := rfl
    rw [hsum, Nat.min_eq_left hroom, htotal]
    simp [UsageWindow.add, sampledBytes]

/-- The uses in the window follow those that have left it. -/
theorem kept_of_dropWhile {samples : List (Time × ByteCount)}
    (h : samples.Pairwise fun u v => u.1 ≤ v.1) :
    ∀ u ∈ samples.dropWhile (fun s => length ≤ now - s.1), now - u.1 < length := by
  induction samples with
  | nil => simp
  | cons s rest ih =>
    obtain ⟨hfirst, hrest⟩ := List.pairwise_cons.mp h
    by_cases hgone : length ≤ now - s.1
    · simpa [hgone] using ih hrest
    · have hkept : now - s.1 < length := Nat.not_le.mp hgone
      simp only [hgone, decide_false, Bool.false_eq_true, not_false_eq_true,
        List.dropWhile_cons_of_neg]
      refine List.forall_mem_cons.mpr ⟨hkept, fun u hu => ?_⟩
      exact Nat.lt_of_le_of_lt (Nat.sub_le_sub_left (hfirst u hu) now) hkept

/-- After the rest was forgotten, the total is what was used within the window. -/
theorem total_expire (h : w.Records uses now) (hlater : now ≤ later) :
    (w.expire later).total.bytes = usedWithin w.length uses later := by
  have hexpired := h.expire hlater
  obtain ⟨gone, huses, hgone⟩ := hexpired.held
  have hsamples : w.samples.Pairwise fun u v => u.1 ≤ v.1 := by
    obtain ⟨_, hall, -⟩ := h.held
    exact (List.pairwise_append.mp (hall ▸ h.ordered)).2.1
  have hkept : ∀ u ∈ (w.expire later).samples, later - u.1 < w.length := by
    rw [expire_eq]
    exact kept_of_dropWhile hsamples
  have hlength : (w.expire later).length = w.length := by rw [expire_eq]
  rw [hlength] at hgone
  rw [hexpired.total, huses, usedWithin_append, usedWithin_of_gone hgone,
    usedWithin_of_kept hkept, Nat.zero_add]

end Records
end UsageWindow

namespace RateCap

variable {l : RateCap} {bytes : Nat}

structure Ordinary (l : RateCap) : Prop where
  window : l.usage.length = defaultWindow
  rate : l.rate.bps < 2 ^ 64

theorem Ordinary.allowance_lt (h : l.Ordinary) : l.allowance.bytes < ByteCount.limit := by
  have hrate := h.rate
  simp only [allowance, BitRate.during, h.window, defaultWindow, ByteCount.limit]
  omega

/-- What the rate allows more, at a time and after what was used before it. -/
theorem spend_allows (hallowance : l.allowance.bytes < ByteCount.limit)
    (h : l.usage.Records uses now) (hlater : now ≤ later) (bytes : Nat) :
    (l.spend bytes later).1 = true ↔
      usedWithin l.usage.length uses later + bytes ≤ l.allowance.bytes := by
  have htotal := h.total_expire hlater
  have hsum : ((l.usage.expire later).total + ⟨bytes⟩ : ByteCount).bytes =
      min (usedWithin l.usage.length uses later + bytes) ByteCount.limit := by
    rw [← htotal]
    rfl
  simp only [spend, hsum]
  split
  · simp only [Bool.false_eq_true, false_iff]
    omega
  · simp only [true_iff]
    omega

theorem spend_cases (l : RateCap) (bytes : Nat) (now : Time) :
    l.spend bytes now = (false, { l with usage := l.usage.expire now }) ∨
      l.spend bytes now = (true, { l with usage := (l.usage.expire now).add now ⟨bytes⟩ }) := by
  by_cases hover : l.allowance.bytes < ((l.usage.expire now).total + ⟨bytes⟩ : ByteCount).bytes
  · exact .inl (if_pos hover)
  · exact .inr (if_neg hover)

theorem eq_of_refused (h : (l.spend bytes now).1 = false) :
    (l.spend bytes now).2 = { l with usage := l.usage.expire now } := by
  cases l.spend_cases bytes now with
  | inl heq => rw [heq]
  | inr heq => simp [heq] at h

/-- Forgetting what has left the window makes no difference for what is allowed later. -/
theorem spend_expire (l : RateCap) (h : now ≤ later) (bytes : Nat) :
    { l with usage := l.usage.expire now }.spend bytes later = l.spend bytes later := by
  have hallowance : ({ l with usage := l.usage.expire now } : RateCap).allowance = l.allowance := by
    simp only [allowance, UsageWindow.expire_eq]
  simp only [spend, hallowance, UsageWindow.expire_expire l.usage h]

theorem Ordinary.expire (h : l.Ordinary) (now : Time) :
    Ordinary { l with usage := l.usage.expire now } where
  window := h.window
  rate := h.rate

theorem Ordinary.spend (h : l.Ordinary) (bytes : Nat) (now : Time) :
    (l.spend bytes now).2.Ordinary ∧ (l.spend bytes now).2.allowance = l.allowance := by
  obtain ⟨hwindow, hrate⟩ := h
  cases l.spend_cases bytes now with
  | inl heq => exact heq ▸ ⟨⟨hwindow, hrate⟩, rfl⟩
  | inr heq => exact heq ▸ ⟨⟨hwindow, hrate⟩, rfl⟩

/-- A use is recorded if it is allowed and leaves no trace if not. -/
theorem records_spend (hallowance : l.allowance.bytes < ByteCount.limit)
    (h : l.usage.Records uses now) (hlater : now ≤ later) (bytes : Nat) :
    (l.spend bytes later).2.usage.Records
      (if (l.spend bytes later).1 then uses ++ [(later, ⟨bytes⟩)] else uses) later := by
  have hexpired := h.expire hlater
  cases l.spend_cases bytes later with
  | inl heq => exact heq ▸ hexpired
  | inr heq =>
    have hallowed := (spend_allows hallowance h hlater bytes).mp (by rw [heq])
    have htotal := h.total_expire hlater
    rw [heq]
    exact hexpired.add (Nat.le_of_lt (htotal ▸ Nat.lt_of_le_of_lt hallowed hallowance))

/-- After some bytes were allowed, the rate has less room than before them. -/
theorem exists_crowded_out (hl : l.Ordinary) (h : l.usage.Records uses now) (hlater : now ≤ later)
    (hpos : 0 < bytes) (hallowed : (l.spend bytes later).1 = true) :
    ∃ rest, (l.spend rest later).1 = true ∧
      ((l.spend bytes later).2.spend rest later).1 = false := by
  have hallowance := hl.allowance_lt
  have hroom := (spend_allows hallowance h hlater bytes).mp hallowed
  have hafter := records_spend hallowance h hlater bytes
  rw [hallowed, if_pos rfl] at hafter
  obtain ⟨hordinary, hsame⟩ := hl.spend bytes later
  -- All that there was room for, to the last byte.
  let rest := l.allowance.bytes - usedWithin l.usage.length uses later
  refine ⟨rest, (spend_allows hallowance h hlater rest).mpr (by omega), ?_⟩
  rw [Bool.eq_false_iff, ne_eq, spend_allows hordinary.allowance_lt hafter (Nat.le_refl later) rest,
    hsame, hordinary.window, ← hl.window, usedWithin_append]
  have hlast : usedWithin l.usage.length [(later, ⟨bytes⟩)] later = bytes := by
    simp [usedWithin, sampledBytes, hl.window, defaultWindow]
  rw [hlast]
  omega

end RateCap
end LayeredRtp
