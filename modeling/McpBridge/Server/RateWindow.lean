import McpBridge.Lib.SlidingWindow
import McpBridge.Server.Session
import Mathlib.Algebra.Order.Group.Int
/-!
# The rate limiter is a sliding window

A bucket keeps the times of the allowed calls that were in the window of the
last call under its key, and the garbage collection drops whole buckets.
`Tracks` relates the buckets to the history: at every later time, the part of a
bucket that is in the window is the part of the history that is.
-/

open McpBridge.Lib

namespace McpBridge.Server

/-- The calls, the last one first, with the answers they got. -/
def RateLimiter.serve (rl : RateLimiter) : List (Str × Int) → RateLimiter × List (Answered Str Int)
  | [] => (rl, [])
  | (key, now) :: calls =>
    let (rl, past) := rl.serve calls
    let (ok, rl) := rl.allow key now
    (rl, ⟨key, now, ok⟩ :: past)

/-- The times of the allowed calls under a key, from `a` on. -/
def allowedFrom (past : List (Answered Str Int)) (key : Str) (a : Int) : List Int :=
  ((past.filter fun c => c.key = key && c.ok && decide (a ≤ c.time)).map (·.time)).reverse

/-- The times of a bucket; there is none before the first call. -/
def RateLimiter.bucket (rl : RateLimiter) (key : Str) : List Int := (rl.requests.lookup key).getD []

/-- The buckets have what the window at any time from `now` on needs. -/
structure Tracks (bucket : Str → List Int) (past : List (Answered Str Int)) (now : Int) : Prop where
  window : ∀ key t, now ≤ t →
    (bucket key).filter (fun x => decide (t - minutes 1 ≤ x)) = allowedFrom past key (t - minutes 1)
  sorted : ∀ key, (bucket key).Pairwise (· ≤ ·)
  before : ∀ key, ∀ x ∈ bucket key, x ≤ now

theorem Tracks.later {bucket : Str → List Int} {past : List (Answered Str Int)} {last now : Int} (h : Tracks bucket past last)
    (hle : last ≤ now) : Tracks bucket past now :=
  ⟨fun key t ht => h.window key t (hle.trans ht), h.sorted, fun key x hx => (h.before key x hx).trans hle⟩

theorem length_allowedFrom {past : List (Answered Str Int)} {now : Int} (h : ∀ c ∈ past, c.time ≤ now) (key : Str) (a : Int) :
    (allowedFrom past key a).length = admitted past key a now := by
  unfold allowedFrom admitted
  rw [List.length_reverse, List.length_map, ← List.countP_eq_length_filter]
  apply List.countP_congr
  intro c hc
  simp [h c hc]

theorem allowedFrom_cons (c : Answered Str Int) (past : List (Answered Str Int)) (key : Str) (a : Int) :
    allowedFrom (c :: past) key a =
      allowedFrom past key a ++ if c.key = key ∧ c.ok = true ∧ a ≤ c.time then [c.time] else [] := by
  unfold allowedFrom
  rw [List.filter_cons]
  by_cases hin : c.key = key ∧ c.ok = true ∧ a ≤ c.time
  · simp [hin]
  · rw [if_neg, if_neg hin, List.append_nil]
    simpa [and_assoc] using hin

/-- The last time of a sorted bucket bounds the others. -/
theorem le_getLast {l : List Int} (h : l.Pairwise (· ≤ ·)) {z : Int} (hz : l.getLast? = some z) : ∀ x ∈ l, x ≤ z := by
  obtain ⟨l, rfl⟩ := List.getLast?_eq_some_iff.1 hz
  intro x hx
  rcases List.mem_append.1 hx with hx | hx
  · exact (List.pairwise_append.1 h).2.2 x hx z (List.mem_singleton_self z)
  · exact le_of_eq (List.mem_singleton.1 hx)

section
variable {rl : RateLimiter} {past : List (Answered Str Int)} {last now : Int}

/-- The times the call counts. -/
def RateLimiter.counted (rl : RateLimiter) (key : Str) (now : Int) : List Int :=
  (rl.bucket key).filter fun t => !decide (t < now - minutes 1)

/-- What the call leaves in its own bucket, before the garbage collection. -/
def RateLimiter.noted (rl : RateLimiter) (key : Str) (now : Int) : List Int :=
  if decide (((rl.counted key now).length : Int) < rl.maxRpm) then rl.counted key now ++ [now] else rl.counted key now

/-- A bucket the garbage collection keeps. -/
def isFresh (now : Int) (_ : Str) (ts : List Int) : Bool :=
  match ts.getLast? with
  | none => false
  | some t => !decide (t < now - minutes 5)

theorem allow_eq (rl : RateLimiter) (key : Str) (now : Int) :
    rl.allow key now = (decide (((rl.counted key now).length : Int) < rl.maxRpm),
      if minutes 5 < now - rl.lastGc then
        { rl with requests := Map.keep (isFresh now) (rl.requests.insert key (rl.noted key now)), lastGc := now }
      else { rl with requests := rl.requests.insert key (rl.noted key now) }) := by
  unfold RateLimiter.allow
  by_cases hgc : minutes 5 < now - rl.lastGc
  · simp only [if_pos hgc]
    rfl
  · simp only [if_neg hgc]
    rfl

theorem allow_maxRpm (rl : RateLimiter) (key : Str) (now : Int) : (rl.allow key now).2.maxRpm = rl.maxRpm := by
  rw [allow_eq]
  simp only
  split
  · rfl
  · rfl

/-- The buckets after a call: its own as noted, the others as they were, and a
bucket may be gone whose last time is more than five minutes old. -/
theorem allow_bucket (rl : RateLimiter) (key : Str) (now : Int) (k : Str) {full : List Int}
    (hfull : full = if k = key then rl.noted key now else rl.bucket k) :
    (rl.allow key now).2.bucket k = full ∨
      (rl.allow key now).2.bucket k = [] ∧ ∀ z, full.getLast? = some z → z < now - minutes 5 := by
  have hlookup : ((rl.requests.insert key (rl.noted key now)).lookup k).getD [] = full := by
    rw [Map.lookup_insert_if, hfull]
    by_cases hk : k = key
    · simp [hk]
    · simp [hk, RateLimiter.bucket]
  rw [allow_eq]
  generalize rl.requests.insert key (rl.noted key now) = m at hlookup ⊢
  by_cases hgc : minutes 5 < now - rl.lastGc
  · have hkept := Map.lookup_keep (isFresh now) m k
    rcases hl : m.lookup k with _ | ts
    · rw [hl] at hlookup hkept
      left
      simpa only [if_pos hgc, RateLimiter.bucket, hkept, Option.filter_none] using hlookup
    · rw [hl] at hlookup hkept
      obtain rfl : ts = full := hlookup
      simp only [if_pos hgc, RateLimiter.bucket, hkept, Option.filter_some]
      by_cases hfresh : isFresh now k ts = true
      · left
        simp [hfresh]
      · right
        refine ⟨by simp [hfresh], fun z hz => ?_⟩
        simp only [isFresh, hz, Bool.not_eq_true, Bool.not_eq_false', decide_eq_true_eq] at hfresh
        exact hfresh
  · simp only [if_neg hgc]
    exact .inl hlookup

/-- Old buckets can go: nothing in them is in the window any more. -/
theorem Tracks.drop {bucket bucket' : Str → List Int} (h : Tracks bucket past now)
    (hb : ∀ k, bucket' k = bucket k ∨ bucket' k = [] ∧ ∀ z, (bucket k).getLast? = some z → z < now - minutes 5) :
    Tracks bucket' past now := by
  refine ⟨fun k t ht => ?_, fun k => ?_, fun k => ?_⟩
  · rw [← h.window k t ht]
    rcases hb k with he | ⟨he, hold⟩
    · rw [he]
    · rw [he, List.filter_nil, eq_comm, List.filter_eq_nil_iff]
      intro x hx
      obtain ⟨z, hz⟩ := Option.ne_none_iff_exists'.1 (mt List.getLast?_eq_none_iff.1 (List.ne_nil_of_mem hx))
      have hxz := le_getLast (h.sorted k) hz x hx
      have hzold := hold z hz
      have hwindow : ¬ t - minutes 1 ≤ x := by
        simp only [minutes] at hzold ⊢
        omega
      simpa only [decide_eq_true_eq] using hwindow
  · rcases hb k with he | ⟨he, -⟩
    · rw [he]
      exact h.sorted k
    · rw [he]
      exact List.Pairwise.nil
  · rcases hb k with he | ⟨he, -⟩
    · rw [he]
      exact h.before k
    · simp [he]

theorem counted_eq (h : Tracks rl.bucket past now) (key : Str) :
    rl.counted key now = allowedFrom past key (now - minutes 1) := by
  rw [← h.window key now le_rfl]
  unfold RateLimiter.counted
  apply List.filter_congr
  intro x _
  by_cases hx : x < now - minutes 1
  · simp [hx, Int.not_le.2 hx]
  · simp [hx, Int.not_lt.1 hx]

/-- Pruning the bucket of the call to the window takes nothing a later window needs. -/
theorem counted_window (h : Tracks rl.bucket past now) (key : Str) {t : Int} (ht : now ≤ t) :
    (rl.counted key now).filter (fun x => decide (t - minutes 1 ≤ x)) = allowedFrom past key (t - minutes 1) := by
  rw [← h.window key t ht, RateLimiter.counted, List.filter_filter]
  apply List.filter_congr
  intro x _
  by_cases hx : t - minutes 1 ≤ x
  · have hold : ¬ x < now - minutes 1 := by omega
    simp [hx, hold]
  · simp [hx]

/-- The buckets with the call noted track the history with the call in it. -/
theorem Tracks.note (h : Tracks rl.bucket past now) (key : Str) :
    Tracks (fun k => if k = key then rl.noted key now else rl.bucket k)
      (⟨key, now, decide (((rl.counted key now).length : Int) < rl.maxRpm)⟩ :: past) now := by
  have hsub : ∀ x ∈ rl.counted key now, x ≤ now := fun x hx => h.before key x (List.mem_of_mem_filter hx)
  refine ⟨fun k t ht => ?_, fun k => ?_, fun k => ?_⟩
  · rw [allowedFrom_cons]
    by_cases hk : k = key
    · subst hk
      rw [if_pos rfl, ← counted_window h k ht]
      by_cases hok : ((rl.counted k now).length : Int) < rl.maxRpm
      · by_cases hnow : t - minutes 1 ≤ now
        · simp [RateLimiter.noted, hok, hnow, -tsub_le_iff_right]
        · simp [RateLimiter.noted, hok, hnow, -tsub_le_iff_right]
      · simp [RateLimiter.noted, hok]
    · simp only [if_neg hk, Ne.symm hk, false_and, if_false, List.append_nil]
      exact h.window k t ht
  · by_cases hk : k = key
    · simp only [if_pos hk]
      have hcounted : (rl.counted key now).Pairwise (· ≤ ·) := (h.sorted key).filter _
      unfold RateLimiter.noted
      split
      · exact List.pairwise_append.2 ⟨hcounted, List.pairwise_singleton _ _, by simpa using hsub⟩
      · exact hcounted
    · simp only [if_neg hk]
      exact h.sorted k
  · by_cases hk : k = key
    · simp only [if_pos hk]
      unfold RateLimiter.noted
      split
      · intro x hx
        rcases List.mem_append.1 hx with hx | hx
        · exact hsub x hx
        · exact le_of_eq (List.mem_singleton.1 hx)
      · exact hsub
    · simp only [if_neg hk]
      exact h.before k

/-- One call: the answer is that of the window, and the buckets go on tracking the history. -/
theorem Tracks.allow (h : Tracks rl.bucket past now) (hpast : ∀ c ∈ past, c.time ≤ now) (key : Str) :
    (rl.allow key now).1 = admits rl.maxRpm (minutes 1) past key now ∧
      Tracks (rl.allow key now).2.bucket (⟨key, now, (rl.allow key now).1⟩ :: past) now := by
  constructor
  · rw [allow_eq, counted_eq h, length_allowedFrom hpast]
    rfl
  · refine Tracks.drop ?_ fun k => allow_bucket rl key now k rfl
    rw [allow_eq]
    exact h.note key

/-- After any calls the buckets track the history, which is that of the sliding window. -/
theorem serve_tracks (maxRpm lastGc : Int) {calls : List (Str × Int)} (hc : calls.Pairwise fun c d => d.2 ≤ c.2) :
    (RateLimiter.serve ⟨maxRpm, ∅, lastGc⟩ calls).2 = exactHistory maxRpm (minutes 1) calls ∧
    (RateLimiter.serve ⟨maxRpm, ∅, lastGc⟩ calls).1.maxRpm = maxRpm ∧
    ∀ now, (∀ c ∈ calls, c.2 ≤ now) →
      Tracks (RateLimiter.serve ⟨maxRpm, ∅, lastGc⟩ calls).1.bucket (exactHistory maxRpm (minutes 1) calls) now := by
  induction calls with
  | nil =>
    refine ⟨rfl, rfl, fun now _ => ⟨fun key t _ => ?_, fun key => ?_, fun key => ?_⟩⟩
    · simp [RateLimiter.serve, RateLimiter.bucket, exactHistory, allowedFrom]
    · simp [RateLimiter.serve, RateLimiter.bucket]
    · simp [RateLimiter.serve, RateLimiter.bucket]
  | cons c calls ih =>
    obtain ⟨key, t⟩ := c
    obtain ⟨hlast, hc⟩ := List.pairwise_cons.1 hc
    obtain ⟨hpast, hmax, htracks⟩ := ih hc
    have hbefore : ∀ c ∈ exactHistory maxRpm (minutes 1) calls, c.time ≤ t :=
      fun c hc => hlast _ (mem_exactHistory _ _ hc)
    obtain ⟨hok, hnext⟩ := (htracks t hlast).allow hbefore key
    rw [hmax] at hok
    rw [hok] at hnext
    simp only [RateLimiter.serve, exactHistory, hpast, hok, allow_maxRpm, hmax, true_and]
    intro now hnow
    exact hnext.later (hnow (key, t) List.mem_cons_self)

end

/-- After any calls at non-decreasing times, wherever the garbage collection ran
between them: a call is allowed iff fewer than `maxRpm` calls under its key were
in the minute that ends with it; so no closed minute has more than `maxRpm` of
them; and the answer is that of the calls under its key alone. -/
theorem allow_iff_window (maxRpm lastGc : Int) (hmax : 0 ≤ maxRpm) (calls : List (Str × Int))
    (hc : calls.Pairwise fun c d => d.2 ≤ c.2) (rl : RateLimiter) (past : List (Answered Str Int))
    (hs : RateLimiter.serve ⟨maxRpm, ∅, lastGc⟩ calls = (rl, past)) :
    (∀ key t, (∀ c ∈ calls, c.2 ≤ t) →
      ((rl.allow key t).1 = true ↔ (admitted past key (t - minutes 1) t : Int) < maxRpm) ∧
      (rl.allow key t).1 =
        ((RateLimiter.serve ⟨maxRpm, ∅, lastGc⟩ (calls.filter (·.1 = key))).1.allow key t).1) ∧
    ∀ key a, (admitted past key a (a + minutes 1) : Int) ≤ maxRpm := by
  obtain ⟨hpast, hrpm, htracks⟩ := serve_tracks maxRpm lastGc hc
  rw [hs] at hpast hrpm htracks
  simp only at hpast hrpm htracks
  subst hpast
  refine ⟨fun key t ht => ⟨?_, ?_⟩, fun key a => ?_⟩
  · obtain ⟨hok, -⟩ := (htracks t ht).allow (fun c hc => ht _ (mem_exactHistory _ _ hc)) key
    rw [hok, hrpm]
    simp only [admits, decide_eq_true_eq]
  · obtain ⟨-, hrpm', htracks'⟩ := serve_tracks maxRpm lastGc (hc.filter (·.1 = key))
    have ht' : ∀ c ∈ calls.filter (·.1 = key), c.2 ≤ t := fun c hc => ht c (List.mem_of_mem_filter hc)
    obtain ⟨hok, -⟩ := (htracks t ht).allow (fun c hc => ht _ (mem_exactHistory _ _ hc)) key
    obtain ⟨hok', -⟩ := (htracks' t ht').allow (fun c hc => ht' _ (mem_exactHistory _ _ hc)) key
    rw [hok, hok', hrpm, hrpm', ← exactHistory_filter]
    simp only [admits, admitted_filter]
  · exact admitted_le maxRpm (minutes 1) hmax (chronological_exactHistory _ _ hc) (exact_exactHistory _ _ _) key a

/-- One call a minute, under two keys; the garbage collection drops the first bucket. -/
theorem allow_iff_window_twice :
    let calls := [(lit "a", minutes 7), (lit "b", minutes 6), (lit "a", 0)]
    let rl := (RateLimiter.serve ⟨1, ∅, 0⟩ calls).1
    ((rl.allow (lit "a") (minutes 8)).1 = true ↔ (1 : Int) < 1) ∧
    ((rl.allow (lit "a") (minutes 8 + 1)).1 = true ↔ (0 : Int) < 1) := by
  intro calls rl
  have hwindow := (allow_iff_window 1 0 (by decide) calls (by decide) rl _ rfl).1
  exact ⟨(hwindow (lit "a") (minutes 8) (by decide)).1, (hwindow (lit "a") (minutes 8 + 1) (by decide)).1⟩

end McpBridge.Server
