import LayeredRtp.Proofs.RateWindow
import Mathlib.Algebra.Order.BigOperators.Group.List
import Mathlib.Algebra.Order.Group.Nat

/-! Runs of a rate that may be changed on the way. As long as time does not go back, bytes are allowed
exactly if they and all that was allowed less than a window ago stay within the rate of the time. What
was refused makes no difference later, and under one rate no window of time ever has more than the
rate allows. -/
namespace LayeredRtp

inductive RateRequest where
  | setRate (rate : BitRate)
  | spend (bytes : Nat) (now : Time)
deriving DecidableEq, Repr

namespace RateRequest

def time? : RateRequest → Option Time
  | .setRate _ => none
  | .spend _ now => some now

def rate? : RateRequest → Option BitRate
  | .setRate rate => some rate
  | .spend _ _ => none

def rates (rate : BitRate) (requests : List RateRequest) : List BitRate :=
  rate :: requests.filterMap rate?

def lastRate (rate : BitRate) (requests : List RateRequest) : BitRate :=
  requests.foldl (fun rate r => r.rate?.getD rate) rate

end RateRequest

def BitRate.bytesIn (r : BitRate) (micros : Nat) : Nat := r.bps * micros / 1000000 / 8

def usedUpTo (length : Time) (uses : List (Time × ByteCount)) (time : Time) : Nat :=
  sampledBytes (uses.filter fun u => u.1 ≤ time ∧ time < u.1 + length)

namespace RateCap

variable (l : RateCap)

def perform : RateRequest → RateCap
  | .setRate rate => l.setRate rate
  | .spend bytes now => (l.spend bytes now).2

def performAll (requests : List RateRequest) : RateCap := requests.foldl perform l

def answers (l : RateCap) : List RateRequest → List Bool
  | [] => []
  | .setRate rate :: rest => answers (l.setRate rate) rest
  | .spend bytes now :: rest => (l.spend bytes now).1 :: answers (l.spend bytes now).2 rest

def uses : RateRequest → List (Time × ByteCount)
  | .setRate _ => []
  | .spend bytes now => if (l.spend bytes now).1 then [(now, ⟨bytes⟩)] else []

def usesOfAll (l : RateCap) : List RateRequest → List (Time × ByteCount)
  | [] => []
  | r :: rest => l.uses r ++ usesOfAll (l.perform r) rest

/-- A run in which time does not go back and every rate allows fewer bytes than can be counted. -/
structure Timely (rate : BitRate) (window : Time) (requests : List RateRequest) : Prop where
  ordered : (requests.filterMap RateRequest.time?).Pairwise (· ≤ ·)
  counted : ∀ r ∈ RateRequest.rates rate requests, r.bytesIn window < 2 ^ 64 - 1

variable {l : RateCap} {rate : BitRate} {window now later : Time} {requests before : List RateRequest}

theorem performAll_append_one (l : RateCap) (before : List RateRequest) (r : RateRequest) :
    l.performAll (before ++ [r]) = (l.performAll before).perform r := by
  simp [performAll]

theorem usesOfAll_append_one (l : RateCap) (before : List RateRequest) (r : RateRequest) :
    l.usesOfAll (before ++ [r]) = l.usesOfAll before ++ (l.performAll before).uses r := by
  induction before generalizing l with
  | nil => simp [usesOfAll, performAll]
  | cons first rest ih =>
    have hperform : l.performAll (first :: rest) = (l.perform first).performAll rest := rfl
    rw [List.cons_append, usesOfAll, usesOfAll, ih, hperform, List.append_assoc]

theorem lastRate_append_one (rate : BitRate) (before : List RateRequest) (r : RateRequest) :
    RateRequest.lastRate rate (before ++ [r]) =
      r.rate?.getD (RateRequest.lastRate rate before) := by
  simp [RateRequest.lastRate]

theorem mem_rates_append {r : BitRate} (hr : r ∈ RateRequest.rates rate before)
    (after : List RateRequest) : r ∈ RateRequest.rates rate (before ++ after) := by
  simp only [RateRequest.rates, List.filterMap_append, List.mem_cons, List.mem_append] at hr ⊢
  exact hr.imp_right .inl

theorem lastRate_mem (rate : BitRate) (requests : List RateRequest) :
    RateRequest.lastRate rate requests ∈ RateRequest.rates rate requests := by
  induction requests using List.reverseRecOn with
  | nil => exact List.mem_singleton_self rate
  | append_singleton before r ih =>
    rw [lastRate_append_one]
    cases r with
    | setRate next => simp [RateRequest.rates, RateRequest.rate?]
    | spend bytes now => exact mem_rates_append ih _

theorem allowance_eq (hcounted : l.rate.bytesIn l.usage.length < 2 ^ 64 - 1) :
    l.allowance.bytes = l.rate.bytesIn l.usage.length := by
  simp only [BitRate.bytesIn] at hcounted
  simp only [allowance, BitRate.during, BitRate.bytesIn, ByteCount.limit]
  omega

namespace Timely

theorem of_append {after : List RateRequest} (h : Timely rate window (before ++ after)) :
    Timely rate window before := by
  obtain ⟨hordered, hcounted⟩ := h
  rw [List.filterMap_append] at hordered
  exact ⟨(List.pairwise_append.mp hordered).1, fun r hr => hcounted r (mem_rates_append hr after)⟩

/-- The requests before one to spend some bytes are no later than it, and those after it no sooner. -/
theorem le_of_append {bytes : Nat} {after : List RateRequest}
    (h : Timely rate window (before ++ .spend bytes now :: after)) :
    (∀ t ∈ before.filterMap RateRequest.time?, t ≤ now) ∧
      ∀ t ∈ after.filterMap RateRequest.time?, now ≤ t := by
  have hordered := h.ordered
  rw [List.filterMap_append] at hordered
  obtain ⟨-, hafter, hbefore⟩ := List.pairwise_append.mp hordered
  exact ⟨fun t ht => hbefore t ht now List.mem_cons_self, (List.pairwise_cons.mp hafter).1⟩

end Timely

structure Follows (l : RateCap) (rate : BitRate) (window : Time) (requests : List RateRequest)
    (now : Time) : Prop where
  last : l.rate = RateRequest.lastRate rate requests
  length : l.usage.length = window
  records : l.usage.Records ((new rate window).usesOfAll requests) now

namespace Follows

theorem wait (h : l.Follows rate window requests now) (hlater : now ≤ later) :
    l.Follows rate window requests later :=
  ⟨h.last, h.length, h.records.wait hlater⟩

theorem allowance (h : l.Follows rate window requests now)
    (htimely : Timely rate window requests) :
    l.allowance.bytes = (RateRequest.lastRate rate requests).bytesIn window ∧
      l.allowance.bytes < ByteCount.limit := by
  have hcounted := htimely.counted _ (lastRate_mem rate requests)
  have hallowance := l.allowance_eq (by rw [h.last, h.length]; exact hcounted)
  rw [h.last, h.length] at hallowance
  exact ⟨hallowance, hallowance ▸ hcounted⟩

theorem setRate (h : ((new rate window).performAll before).Follows rate window before now)
    (next : BitRate) :
    ((new rate window).performAll (before ++ [.setRate next])).Follows rate window
      (before ++ [.setRate next]) now := by
  rw [performAll_append_one]
  refine ⟨(lastRate_append_one rate before (.setRate next)).symm, h.length, ?_⟩
  rw [usesOfAll_append_one, uses, List.append_nil]
  exact h.records

theorem spend (h : ((new rate window).performAll before).Follows rate window before now)
    (htimely : Timely rate window before) (bytes : Nat) :
    ((new rate window).performAll (before ++ [.spend bytes now])).Follows rate window
      (before ++ [.spend bytes now]) now := by
  have hspend := records_spend (h.allowance htimely).2 h.records (Nat.le_refl now) bytes
  rw [performAll_append_one]
  generalize hl : (new rate window).performAll before = l at *
  have hsame : (l.spend bytes now).2.rate = l.rate ∧
      (l.spend bytes now).2.usage.length = l.usage.length := by
    cases l.spend_cases bytes now with
    | inl heq => exact heq ▸ ⟨rfl, rfl⟩
    | inr heq => exact heq ▸ ⟨rfl, rfl⟩
  refine ⟨hsame.1.trans ?_, hsame.2.trans h.length, ?_⟩
  · rw [lastRate_append_one]
    exact h.last
  · rw [usesOfAll_append_one, hl, uses]
    cases hallowed : (l.spend bytes now).1 with
    | false => simpa [perform, hallowed] using hspend
    | true => simpa [perform, hallowed] using hspend

end Follows

/-- At the end of every run, and at any time after it. -/
theorem Timely.follows (h : Timely rate window requests)
    (hnow : ∀ t ∈ requests.filterMap RateRequest.time?, t ≤ now) :
    ((new rate window).performAll requests).Follows rate window requests now := by
  induction requests using List.reverseRecOn generalizing now with
  | nil => exact ⟨rfl, rfl, .new window now⟩
  | append_singleton before r ih =>
    have hbefore := h.of_append
    cases r with
    | setRate next => exact (ih hbefore fun t ht => hnow t (by simp [ht])).setRate next
    | spend bytes time =>
      have htime : time ≤ now := hnow time (by simp [RateRequest.time?])
      exact ((ih hbefore h.le_of_append.1).spend hbefore bytes).wait htime

/-- What was forgotten already would be forgotten by any later time. -/
theorem answers_expire (l : RateCap) {after : List RateRequest}
    (hafter : ∀ t ∈ after.filterMap RateRequest.time?, now ≤ t) :
    { l with usage := l.usage.expire now }.answers after = l.answers after := by
  induction after generalizing l with
  | nil => rfl
  | cons r rest ih =>
    cases r with
    | setRate rate => exact ih (l.setRate rate) hafter
    | spend bytes time =>
      have htime : now ≤ time := hafter time (by simp [RateRequest.time?])
      rw [answers, answers, l.spend_expire htime bytes]

/-- A window that ends later reaches back no further. -/
theorem usedUpTo_le (length : Time) (uses : List (Time × ByteCount)) (hlater : now ≤ later) :
    usedUpTo length uses later ≤ usedWithin length uses now := by
  have hwindow : (uses.filter fun u => u.1 ≤ later ∧ later < u.1 + length).Sublist
      (uses.filter fun u => now - u.1 < length) := by
    refine List.monotone_filter_right uses fun u hu => ?_
    obtain ⟨hpast, hless⟩ : u.1 ≤ later ∧ later < u.1 + length := of_decide_eq_true hu
    have hkept : later - u.1 < length := Nat.sub_lt_left_of_lt_add hpast hless
    exact decide_eq_true (Nat.lt_of_le_of_lt (Nat.sub_le_sub_right hlater _) hkept)
  exact (hwindow.map _).sum_le_sum (by simp)

/-- Under one rate no window of time has more than the rate allows, wherever it ends. -/
theorem Timely.usedUpTo_le (h : Timely rate window requests)
    (hrate : ∀ r ∈ RateRequest.rates rate requests, r = rate) (time : Time) :
    usedUpTo window ((new rate window).usesOfAll requests) time ≤ rate.bytesIn window := by
  induction requests using List.reverseRecOn with
  | nil => exact Nat.zero_le _
  | append_singleton before r ih =>
    have hbefore := h.of_append
    have hsame : ∀ r ∈ RateRequest.rates rate before, r = rate :=
      fun r hr => hrate r (mem_rates_append hr _)
    have hearlier := ih hbefore hsame
    rw [usesOfAll_append_one]
    cases r with
    | setRate next => simpa [uses] using hearlier
    | spend bytes now =>
      have hfollows := hbefore.follows h.le_of_append.1
      obtain ⟨hallowance, hcounts⟩ := hfollows.allowance hbefore
      rw [hsame _ (lastRate_mem rate before)] at hallowance
      cases hallowed : (((new rate window).performAll before).spend bytes now).1 with
      | false => simpa [uses, hallowed] using hearlier
      | true =>
        have hroom := (spend_allows hcounts hfollows.records (Nat.le_refl now) bytes).mp hallowed
        rw [hfollows.length, hallowance] at hroom
        simp only [uses, hallowed, if_true]
        by_cases hin : now ≤ time ∧ time < now + window
        · -- What the window has beside the last use was within the window then.
          have hrest := RateCap.usedUpTo_le window ((new rate window).usesOfAll before) hin.1
          simp only [usedUpTo, List.filter_append, sampledBytes_append] at hrest ⊢
          simp [hin, sampledBytes] at hrest ⊢
          omega
        · simpa [usedUpTo, List.filter_append, hin] using hearlier

/-- Bytes are allowed exactly if they and all that was allowed less than a window ago are within the
rate of the time, exactly a window ago being too long. Later answers are as if what was refused had
not been asked for. And as long as the rate is not changed, what is used within a window of time,
wherever it ends, is never more than the rate allows. -/
theorem spends_exact (h : Timely rate window requests) :
    (∀ before bytes now after, requests = before ++ .spend bytes now :: after →
      let l := (new rate window).performAll before
      let used := (new rate window).usesOfAll before
      ((l.spend bytes now).1 = true ↔ bytes + usedWithin window used now ≤
          (RateRequest.lastRate rate before).bytesIn window) ∧
        ((l.spend bytes now).1 = false → (l.spend bytes now).2.answers after = l.answers after)) ∧
      ((∀ r ∈ RateRequest.rates rate requests, r = rate) → ∀ time,
        usedUpTo window ((new rate window).usesOfAll requests) time ≤ rate.bytesIn window) := by
  refine ⟨?_, h.usedUpTo_le⟩
  rintro before bytes now after rfl l used
  obtain ⟨hearlier, hlater⟩ := h.le_of_append
  have hfollows : l.Follows rate window before now := h.of_append.follows hearlier
  obtain ⟨hallowance, hcounts⟩ := hfollows.allowance h.of_append
  constructor
  · rw [spend_allows hcounts hfollows.records (Nat.le_refl now) bytes, hfollows.length, hallowance,
      Nat.add_comm]
  · intro hrefused
    rw [eq_of_refused hrefused]
    exact l.answers_expire hlater

/-- A thousand bytes in a second and then half of that. What was allowed first counts until the
second is over, and a refused request does not. -/
theorem spends_exact_slower :
    let requests : List RateRequest :=
      [.spend 600 0, .spend 401 7, .setRate ⟨4000⟩, .spend 0 999999, .spend 500 1000000]
    let l := (new ⟨8000⟩ 1000000).performAll (requests.take 4)
    Timely ⟨8000⟩ 1000000 requests ∧
      (new ⟨8000⟩ 1000000).answers requests = [true, false, false, true] ∧
      500 + usedWithin 1000000 ((new ⟨8000⟩ 1000000).usesOfAll (requests.take 4)) 1000000 ≤ 500 ∧
      (l.spend 500 1000000).1 = true := by
  intro requests l
  have htimely : Timely ⟨8000⟩ 1000000 requests := ⟨by decide, by decide⟩
  obtain ⟨hspends, -⟩ := spends_exact htimely
  obtain ⟨hallowed, -⟩ := hspends (requests.take 4) 500 1000000 [] rfl
  exact ⟨htimely, by decide, by decide, hallowed.mpr (by decide)⟩

end RateCap
end LayeredRtp
