import Mathlib.Data.Rat.Defs
import Mathlib.Algebra.Order.Ring.Rat
import Mathlib.Data.List.Induction
import Mathlib.Tactic.Linarith
import OdooSemantic.Lib.SlidingWindow
import OdooSemantic.Mcp.AuthMiddleware

/-!
# What the rate limiter admits

`_check_rate_limit` keeps for every key the times at which it has let the key in, oldest first, and
drops from the front what is more than a minute old. The clock only goes on, so what is left is
what lies in the minute before (`bucket_recent`), and the count that decides about a request is the
number of requests of the same key that were let in during that minute.

The minute is closed at both ends: a request exactly sixty seconds ago still counts.
-/

namespace OdooSemantic

open KeyedStore SlidingWindow

/-- A request that has come as far as the limiter, in seconds of `time.monotonic()`. -/
structure RateRequest where
  apiKeyId : Nat
  now : ℚ
deriving DecidableEq

/-- What `_check_rate_limit` has returned for it. -/
structure RateDecision extends RateRequest where
  allowed : Bool
  remaining : Nat
deriving DecidableEq

/-- `_rate_buckets`, and what was decided so far, newest first. -/
structure RateLimiter where
  buckets : Store Nat (List ℚ) := ∅
  log : List RateDecision := []

namespace RateLimiter

/-- `_rate_buckets.setdefault(api_key_id, deque())` -/
def bucket (s : RateLimiter) (apiKeyId : Nat) : List ℚ := (s.buckets.lookup apiKeyId).getD []

/-- `_check_rate_limit(api_key_id, limit_rpm)` -/
def serve (limitRpm : Int) (s : RateLimiter) (r : RateRequest) : RateLimiter :=
  let (remaining, bucket) := checkRpm r.now limitRpm (s.bucket r.apiKeyId)
  { buckets := s.buckets.insert r.apiKeyId bucket
    log := { r with allowed := remaining.isSome, remaining := remaining.getD 0 } :: s.log }

def serveAll (limitRpm : Int) (requests : List RateRequest) : RateLimiter :=
  requests.foldl (serve limitRpm) {}

end RateLimiter

/-- The requests of the key that were let in. -/
def allowedOf (apiKeyId : Nat) (log : List RateDecision) : List RateDecision :=
  log.filter fun d => d.apiKeyId = apiKeyId && d.allowed

/-- Those of them that are no more than a minute old. -/
def inLastMinute (apiKeyId : Nat) (now : ℚ) (log : List RateDecision) : List RateDecision :=
  (allowedOf apiKeyId log).filter fun d => now - d.now ≤ 60

/-- Those of them in the minute that begins at `start`. -/
def inMinute (apiKeyId : Nat) (start : ℚ) (log : List RateDecision) : List RateDecision :=
  (allowedOf apiKeyId log).filter fun d => start ≤ d.now && d.now ≤ start + 60

section Serve

variable {limitRpm : Int} {s : RateLimiter} {r : RateRequest} {d : RateDecision} {k : Nat}

/-! ## One request -/

theorem allowedOf_cons (d : RateDecision) (log : List RateDecision) (k : Nat) :
    allowedOf k (d :: log) =
      if d.apiKeyId = k ∧ d.allowed = true then d :: allowedOf k log else allowedOf k log := by
  rw [allowedOf, List.filter_cons]
  simp [allowedOf]

theorem inLastMinute_cons (d : RateDecision) (log : List RateDecision) (k : Nat) (now : ℚ) :
    inLastMinute k now (d :: log) =
      if (d.apiKeyId = k ∧ d.allowed = true) ∧ now - d.now ≤ 60 then d :: inLastMinute k now log
      else inLastMinute k now log := by
  rw [inLastMinute, allowedOf_cons]
  by_cases hd : d.apiKeyId = k ∧ d.allowed = true
  · rw [if_pos hd, List.filter_cons]
    simp only [hd, decide_eq_true_eq, true_and]
    rfl
  · rw [if_neg hd, if_neg fun h => hd h.1]
    rfl

namespace RateLimiter

/-- What is left of the bucket at the time of a request. -/
def recent (s : RateLimiter) (k : Nat) (now : ℚ) : List ℚ :=
  (s.bucket k).filter fun t => now - t ≤ 60

/-- The buckets are sorted, none is ahead of the clock, and seen from now on each holds the
    requests of its key that were let in. -/
structure Agrees (s : RateLimiter) (clock : ℚ) : Prop where
  sorted : ∀ k, (s.bucket k).Pairwise (· ≤ ·)
  le_clock : ∀ k, ∀ t ∈ s.bucket k, t ≤ clock
  recent : ∀ k now, clock ≤ now →
    s.recent k now = ((inLastMinute k now s.log).map (·.now)).reverse

theorem agrees_start (clock : ℚ) : ({} : RateLimiter).Agrees clock where
  sorted _ := .nil
  le_clock _ t ht := absurd ht (by simp [bucket])
  recent _ _ _ := rfl

/-- **The front of the bucket is all that is too old.** -/
theorem dropWhile_eq_recent (hsorted : (s.bucket k).Pairwise (· ≤ ·)) (now : ℚ) :
    ((s.bucket k).dropWhile fun t => 60 < now - t) = s.recent k now := by
  rw [dropWhile_eq_filter (hsorted.imp fun {t u} htu hu => ?_)]
  · simp only [RateLimiter.recent, ← decide_not, not_lt]
  · simp only [decide_eq_true_eq] at hu ⊢
    linarith

theorem recent_recent {now later : ℚ} (h : now ≤ later) :
    (s.recent k now).filter (fun t => later - t ≤ 60) = s.recent k later := by
  rw [RateLimiter.recent, List.filter_filter]
  refine List.filter_congr fun t _ => ?_
  by_cases ht : later - t ≤ 60
  · simp [ht, show now - t ≤ 60 by linarith]
  · simp [ht]

/-- The decision: whether there is room, and how much is left behind it. -/
theorem serve_log (hsorted : (s.bucket r.apiKeyId).Pairwise (· ≤ ·)) :
    (s.serve limitRpm r).log =
      { r with
        allowed := decide (((s.recent r.apiKeyId r.now).length : Int) < limitRpm)
        remaining := (limitRpm - (s.recent r.apiKeyId r.now).length - 1).toNat } :: s.log := by
  rw [serve, checkRpm]
  simp only [dropWhile_eq_recent hsorted]
  by_cases hfull : limitRpm ≤ (s.recent r.apiKeyId r.now).length
  · simp only [hfull, if_true, Option.isSome_none, Option.getD_none, not_lt.mpr hfull,
      decide_false]
    rw [Int.toNat_of_nonpos (by omega)]
  · simp only [hfull, if_false, Option.isSome_some, Option.getD_some, not_le.mp hfull,
      decide_true]

theorem bucket_serve (hsorted : (s.bucket r.apiKeyId).Pairwise (· ≤ ·)) (k : Nat) :
    (s.serve limitRpm r).bucket k =
      if k = r.apiKeyId then
        if ((s.recent k r.now).length : Int) < limitRpm then s.recent k r.now ++ [r.now]
        else s.recent k r.now
      else s.bucket k := by
  rw [bucket, serve, checkRpm]
  simp only [dropWhile_eq_recent hsorted]
  by_cases hk : k = r.apiKeyId
  · subst hk
    by_cases hfull : limitRpm ≤ (s.recent r.apiKeyId r.now).length
    · simp [hfull, not_lt.mpr hfull]
    · simp [hfull, not_le.mp hfull]
  · rw [AList.lookup_insert_ne hk, if_neg hk]
    rfl

/-! ## Every sequence of requests -/

/-- What the log says: each decision is one about the requests of the same key in the minute
    before. -/
def Decides (limitRpm : Int) (d : RateDecision) (older : List RateDecision) : Prop :=
  (d.allowed = true ↔ ((inLastMinute d.apiKeyId d.now older).length : Int) < limitRpm) ∧
  d.remaining = (limitRpm - (inLastMinute d.apiKeyId d.now older).length - 1).toNat

theorem Agrees.length_recent {clock : ℚ} (h : s.Agrees clock) {now : ℚ} (hnow : clock ≤ now)
    (k : Nat) : (s.recent k now).length = (inLastMinute k now s.log).length := by
  rw [h.recent k now hnow, List.length_reverse, List.length_map]

theorem Agrees.serve {clock : ℚ} (h : s.Agrees clock) (hnow : clock ≤ r.now) :
    (s.serve limitRpm r).Agrees r.now := by
  have hsorted := h.sorted r.apiKeyId
  have hrecent : ∀ k, (s.recent k r.now).Sublist (s.bucket k) := fun k => List.filter_sublist
  refine ⟨fun k => ?_, fun k t ht => ?_, fun k now hlater => ?_⟩
  · rw [bucket_serve hsorted]
    split
    · split
      · refine List.pairwise_append.mpr ⟨(h.sorted k).sublist (hrecent k), by simp, ?_⟩
        intro t ht u hu
        obtain rfl := List.mem_singleton.mp hu
        exact (h.le_clock k t ((hrecent k).mem ht)).trans hnow
      · exact (h.sorted k).sublist (hrecent k)
    · exact h.sorted k
  · rw [bucket_serve hsorted] at ht
    have hold : ∀ t ∈ s.bucket k, t ≤ r.now := fun t ht => (h.le_clock k t ht).trans hnow
    split at ht
    · split at ht
      · cases List.mem_append.mp ht with
        | inl hmem => exact hold t ((hrecent k).mem hmem)
        | inr hnew => exact (List.mem_singleton.mp hnew).le
      · exact hold t ((hrecent k).mem ht)
    · exact hold t ht
  · have hprev := h.recent k now (hnow.trans hlater)
    rw [RateLimiter.recent, bucket_serve hsorted, serve_log hsorted, inLastMinute_cons]
    by_cases hk : k = r.apiKeyId
    · subst hk
      rw [if_pos rfl]
      by_cases hroom : ((s.recent r.apiKeyId r.now).length : Int) < limitRpm
      · rw [if_pos hroom, List.filter_append, recent_recent hlater, hprev, List.filter_singleton]
        by_cases hold : now - r.now ≤ 60
        · rw [if_pos ⟨⟨rfl, decide_eq_true hroom⟩, hold⟩, List.map_cons, List.reverse_cons]
          simp only [hold, decide_true, cond_true]
        · rw [if_neg fun hd => hold hd.2]
          simp only [hold, decide_false, cond_false, List.append_nil]
      · rw [if_neg hroom, if_neg fun hd => hroom (of_decide_eq_true hd.1.2), recent_recent hlater,
          hprev]
    · rw [if_neg hk, if_neg fun hd => hk hd.1.1.symm]
      exact hprev

theorem decides_serve {clock : ℚ} (h : s.Agrees clock) (hnow : clock ≤ r.now) :
    ∃ d, (s.serve limitRpm r).log = d :: s.log ∧ Decides limitRpm d s.log ∧ d.toRateRequest = r := by
  refine ⟨_, serve_log (h.sorted _), ⟨?_, ?_⟩, rfl⟩
  · rw [decide_eq_true_iff, h.length_recent hnow]
  · rw [h.length_recent hnow]

theorem serveAll_concat (limitRpm : Int) (requests : List RateRequest) (r : RateRequest) :
    serveAll limitRpm (requests ++ [r]) = (serveAll limitRpm requests).serve limitRpm r := by
  rw [serveAll, List.foldl_append]
  rfl

/-- What a sequence of requests in the order of the clock leaves. -/
structure Served (limitRpm : Int) (requests : List RateRequest) (s : RateLimiter) : Prop where
  answered : s.log.map (·.toRateRequest) = requests.reverse
  decides : ∀ newer d older, s.log = newer ++ d :: older → Decides limitRpm d older
  agrees : ∀ clock, (∀ r ∈ requests, r.now ≤ clock) → s.Agrees clock

theorem Agrees.mono {clock later : ℚ} (h : s.Agrees clock) (hle : clock ≤ later) :
    s.Agrees later where
  sorted := h.sorted
  le_clock k t ht := (h.le_clock k t ht).trans hle
  recent k now hnow := h.recent k now (hle.trans hnow)

theorem served_serveAll (limitRpm : Int) {requests : List RateRequest}
    (hclock : requests.Pairwise (·.now ≤ ·.now)) :
    Served limitRpm requests (serveAll limitRpm requests) := by
  induction requests using List.reverseRecOn with
  | nil => exact ⟨rfl, fun newer d older h => absurd h (by simp [serveAll]),
      fun clock _ => agrees_start clock⟩
  | append_singleton requests r ih =>
    obtain ⟨hrequests, -, hlast⟩ := List.pairwise_append.mp hclock
    have ih := ih hrequests
    have hagrees := ih.agrees r.now fun q hq => hlast q hq r (by simp)
    obtain ⟨d, hlog, hdecides, hd⟩ := @decides_serve limitRpm _ _ _ hagrees le_rfl
    rw [serveAll_concat]
    refine ⟨?_, fun newer d' older heq => ?_, fun clock hle => ?_⟩
    · rw [hlog, List.map_cons, ih.answered, hd, List.reverse_append, List.reverse_singleton]
      rfl
    · rw [hlog] at heq
      cases newer with
      | nil =>
        obtain ⟨rfl, rfl⟩ := List.cons.inj heq
        exact hdecides
      | cons e newer => exact ih.decides newer d' older (List.cons.inj heq).2
    · exact (hagrees.serve le_rfl).mono (hle r (by simp))

/-- **No minute has more than the limit.** -/
theorem length_inMinute_le {log : List RateDecision} (hlimit : 0 ≤ limitRpm)
    (hdecides : ∀ newer d older, log = newer ++ d :: older → Decides limitRpm d older)
    (k : Nat) (start : ℚ) : ((inMinute k start log).length : Int) ≤ limitRpm := by
  have hcounted : Counted (fun d e : RateDecision => d.now - e.now ≤ 60) limitRpm.toNat
      (allowedOf k log) := by
    induction log with
    | nil => exact .nil
    | cons d older ih =>
      have ih := ih fun newer e rest heq => hdecides (d :: newer) e rest (by rw [heq]; rfl)
      rw [allowedOf_cons]
      split
      · rename_i hd
        have hroom := (hdecides [] d older rfl).1.mp hd.2
        rw [hd.1, inLastMinute] at hroom
        exact .cons (by omega) ih
      · exact ih
  have hle := hcounted.length_filter_le (p := fun d => start ≤ d.now && d.now ≤ start + 60)
    fun d e hd he => by
      simp only [Bool.and_eq_true, decide_eq_true_eq] at hd he ⊢
      linarith
  rw [inMinute]
  omega

/-- **Only the requests of its own key decide about a request.** -/
theorem serveAll_own (limitRpm : Int) (requests : List RateRequest) (k : Nat) :
    (serveAll limitRpm requests).log.filter (·.apiKeyId = k) =
        (serveAll limitRpm (requests.filter (·.apiKeyId = k))).log ∧
    (serveAll limitRpm requests).bucket k =
        (serveAll limitRpm (requests.filter (·.apiKeyId = k))).bucket k := by
  induction requests using List.reverseRecOn with
  | nil => exact ⟨rfl, rfl⟩
  | append_singleton requests r ih =>
    obtain ⟨hlog, hbucket⟩ := ih
    rw [serveAll_concat, List.filter_append]
    by_cases hk : r.apiKeyId = k
    · subst hk
      rw [List.filter_cons_of_pos (by simp), List.filter_nil, serveAll_concat]
      refine ⟨?_, ?_⟩
      · rw [serve, serve, hbucket, List.filter_cons_of_pos (by simp), hlog]
      · rw [serve, serve, hbucket]
        simp only [bucket, AList.lookup_insert]
    · rw [List.filter_cons_of_neg (by simp [hk]), List.filter_nil, List.append_nil]
      refine ⟨?_, ?_⟩
      · rw [serve, List.filter_cons_of_neg (by simp [hk]), hlog]
      · rw [← hbucket, bucket, serve, AList.lookup_insert_ne (Ne.symm hk), bucket]

end RateLimiter
end Serve

/-- **The limiter is exact.** Whatever requests come, in the order of the clock, each of them is
    answered, and:

    no minute has more than the limit;
    a request is refused where as many requests of its key were let in during the minute before,
    and only there;
    what is said to remain is the limit less the requests in the minute, this one among them;
    and to each key it is as if there were no other. -/
theorem rate_limit_exact {limitRpm : Int} (hlimit : 1 ≤ limitRpm) {requests : List RateRequest}
    (hclock : requests.Pairwise (·.now ≤ ·.now)) :
    let log := (RateLimiter.serveAll limitRpm requests).log
    log.map (·.toRateRequest) = requests.reverse ∧
    (∀ k start, ((inMinute k start log).length : Int) ≤ limitRpm) ∧
    (∀ newer d older, log = newer ++ d :: older →
      (d.allowed = false ↔ ((inLastMinute d.apiKeyId d.now older).length : Int) = limitRpm) ∧
      (d.remaining : Int) = limitRpm - (inLastMinute d.apiKeyId d.now (d :: older)).length) ∧
    ∀ k, log.filter (·.apiKeyId = k) =
      (RateLimiter.serveAll limitRpm (requests.filter (·.apiKeyId = k))).log := by
  have hserved := RateLimiter.served_serveAll limitRpm hclock
  refine ⟨hserved.answered, RateLimiter.length_inMinute_le (by omega) hserved.decides,
    fun newer d older heq => ?_, fun k => (RateLimiter.serveAll_own limitRpm requests k).1⟩
  have hsorted : (newer ++ d :: older).Pairwise fun d e => e.now ≤ d.now := by
    rw [← heq, ← List.pairwise_map (f := RateDecision.toRateRequest) (R := fun q r => r.now ≤ q.now),
      hserved.answered, List.pairwise_reverse]
    exact hclock
  have holder := (List.pairwise_cons.mp (List.pairwise_append.mp hsorted).2.1).1
  have hfew : ((inLastMinute d.apiKeyId d.now older).length : Int) ≤ limitRpm := by
    have hminute : inLastMinute d.apiKeyId d.now older = inMinute d.apiKeyId (d.now - 60) older := by
      refine List.filter_congr fun e he => ?_
      have := holder e (List.mem_of_mem_filter he)
      simp [this, add_comm]
    rw [hminute]
    refine RateLimiter.length_inMinute_le (by omega) (fun newer' e rest h => ?_) _ _
    exact hserved.decides (newer ++ d :: newer') e rest (by rw [heq, h]; simp)
  obtain ⟨hallowed, hremaining⟩ := hserved.decides newer d older heq
  refine ⟨?_, ?_⟩
  · rw [← Bool.not_eq_true, hallowed]
    omega
  · rw [hremaining, inLastMinute_cons]
    by_cases h : d.allowed = true
    · have := hallowed.mp h
      rw [if_pos ⟨⟨rfl, h⟩, by simp⟩, List.length_cons]
      omega
    · have := mt hallowed.mpr h
      rw [if_neg fun hd => h hd.1.2]
      omega

namespace AtTheEdge

/-- Two requests a minute, and the third comes when the first one is exactly a minute old. -/
def requests : List RateRequest := [⟨1, 0⟩, ⟨1, 1/2⟩, ⟨2, 30⟩, ⟨1, 60⟩, ⟨1, 121/2⟩, ⟨1, 61⟩]

/-- The first one still counts at sixty seconds, and no more half a second later. -/
theorem rate_limit_exact_edge :
    (RateLimiter.serveAll 2 requests).log.map (fun d => (d.apiKeyId, d.allowed, d.remaining)) =
      [(1, true, 0), (1, true, 0), (1, false, 0), (2, true, 1), (1, true, 0), (1, true, 1)] ∧
    ∀ k start, ((inMinute k start (RateLimiter.serveAll 2 requests).log).length : Int) ≤ 2 :=
  ⟨by decide +kernel, (@rate_limit_exact 2 (by decide) requests (by decide +kernel)).2.1⟩

end AtTheEdge

end OdooSemantic
