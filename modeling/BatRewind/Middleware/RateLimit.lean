import Mathlib.Tactic.IntervalCases
import Mathlib.Tactic.NormNum
import BatRewind.Lib.TokenBucket
import BatRewind.Session.Model

/-!
# The rate limiter

`internal/middleware/middleware.go` keeps a token bucket for each caller. The clock is read before
the lock is taken, so in the order of the lock the readings need not increase. Arithmetic is exact.

* `RateLimiter.allow`: one call; `RateLimiter.middleware`: the key of a request.
* `RateLimiter.run`: calls in the order of the lock; `history`: those of one key, with the answers.
* `run_bucket`: the bucket of a key is that of its own calls alone.
* **`allow_iff`**: a call is allowed exactly if, since each of the past calls for its key, the
  allowed calls and itself are within `burst + rate * elapsed`; calls for other keys do not matter.
-/

namespace BatRewind

open Buckets

/-! ## The limiter -/

/-- A single rate-limited identity. -/
structure TokenBucket where
  tokens : ℚ
  last : Time

/-- The buckets by key, the tokens per second and the most that a bucket holds. -/
structure RateLimiter where
  buckets : String → Option TokenBucket
  rate : ℚ
  burst : ℚ

/-- `NewRateLimiter`. -/
def newRateLimiter (rate : ℚ) (burst : ℤ) : RateLimiter := ⟨fun _ => none, rate, burst⟩

/-- `Duration.Seconds`. -/
def seconds (d : ℤ) : ℚ := d / 1000000000

namespace RateLimiter

/-- Store the bucket of a key. -/
def put (rl : RateLimiter) (key : String) (b : TokenBucket) : RateLimiter :=
  { rl with buckets := fun k => if k = key then some b else rl.buckets k }

/-- **Consume one token for `key`**, at the reading `now`. -/
def allow (rl : RateLimiter) (key : String) (now : Time) : Bool × RateLimiter :=
  if rl.rate ≤ 0 then (true, rl)
  else
    match rl.buckets key with
    | none => (true, rl.put key ⟨rl.burst - 1, now⟩)
    | some b =>
      let elapsed := seconds (now - b.last)
      let tokens := min rl.burst (b.tokens + elapsed * rl.rate)
      if 1 ≤ tokens then (true, rl.put key ⟨tokens - 1, now⟩)
      else (false, rl.put key ⟨tokens, now⟩)

/-- The middleware: the key is the id of the API key, or else the client's address. -/
def middleware (rl : RateLimiter) (apiKeyID clientIP : String) (now : Time) :
    Except String Unit × RateLimiter :=
  let key := if apiKeyID = "" then clientIP else apiKeyID
  if (rl.allow key now).1 then (.ok (), (rl.allow key now).2)
  else (.error "rate limit exceeded", (rl.allow key now).2)

/-- Serve a call and record its answer. -/
def serveCall (s : RateLimiter × List (String × Time × Bool)) (c : String × Time) :
    RateLimiter × List (String × Time × Bool) :=
  ((s.1.allow c.1 c.2).2, s.2 ++ [(c.1, c.2, (s.1.allow c.1 c.2).1)])

/-- **A run**: calls of any keys in the order of the lock, and their answers. -/
def run (rl : RateLimiter) (calls : List (String × Time)) :
    RateLimiter × List (String × Time × Bool) :=
  calls.foldl serveCall (rl, [])

end RateLimiter

/-- The readings of the calls for a key. -/
def readings (key : String) (calls : List (String × Time)) : List Time :=
  (calls.filter fun c => c.1 = key).map Prod.snd

/-- The calls for a key, with their answers. -/
def history (key : String) (trace : List (String × Time × Bool)) : List (Time × Bool) :=
  (trace.filter fun c => c.1 = key).map Prod.snd

/-! ## One key -/

/-- A bucket with its reading in seconds. -/
def TokenBucket.inSeconds (b : TokenBucket) : Bucket ℚ := ⟨b.tokens, seconds b.last⟩

/-- An entry of a history with its reading in seconds. -/
def inSeconds (e : Time × Bool) : ℚ × Bool := (seconds e.1, e.2)

theorem inSeconds_injective : Function.Injective inSeconds := by
  intro e e' h
  have hsec : seconds e.1 = seconds e'.1 := (Prod.mk.inj h).1
  have hans : e.2 = e'.2 := (Prod.mk.inj h).2
  rw [seconds, seconds, div_left_inj' (by norm_num)] at hsec
  exact Prod.ext (by exact_mod_cast hsec) hans

theorem seconds_sub (t t' : Time) : seconds (t - t') = seconds t - seconds t' := by
  simp only [seconds]
  push_cast
  exact sub_div _ _ _

namespace RateLimiter

variable {rl : RateLimiter} {key k : String} {now : Time}

theorem put_buckets (b : TokenBucket) :
    (rl.put key b).buckets k = if k = key then some b else rl.buckets k := rfl

/-- **A call is one call of the bucket of its key.** -/
theorem allow_eq_take (hrate : 0 < rl.rate) (hburst : 1 ≤ rl.burst) (key : String) (now : Time) :
    (rl.allow key now).1 =
        (take rl.rate rl.burst ((rl.buckets key).map TokenBucket.inSeconds) (seconds now)).1 ∧
      ((rl.allow key now).2.buckets key).map TokenBucket.inSeconds =
        some (take rl.rate rl.burst ((rl.buckets key).map TokenBucket.inSeconds)
          (seconds now)).2 := by
  unfold allow
  rw [if_neg (not_le.2 hrate)]
  cases hb : rl.buckets key with
  | none => simp [take, level, hburst, put_buckets, TokenBucket.inSeconds]
  | some b =>
    have hlevel : level rl.rate rl.burst (some b.inSeconds) (seconds now) =
        min rl.burst (b.tokens + seconds (now - b.last) * rl.rate) := by
      rw [seconds_sub]
      rfl
    rw [Option.map_some, take, hlevel]
    dsimp only
    split_ifs
    · exact ⟨rfl, by rw [put_buckets, if_pos rfl]; rfl⟩
    · exact ⟨rfl, by rw [put_buckets, if_pos rfl]; rfl⟩

/-- Other buckets and the parameters are left alone. -/
theorem allow_frame (rl : RateLimiter) (key : String) (now : Time) :
    (rl.allow key now).2.rate = rl.rate ∧ (rl.allow key now).2.burst = rl.burst ∧
      ∀ k, k ≠ key → (rl.allow key now).2.buckets k = rl.buckets k := by
  unfold allow
  split_ifs
  · exact ⟨rfl, rfl, fun _ _ => rfl⟩
  · split
    · exact ⟨rfl, rfl, fun k hk => if_neg hk⟩
    · dsimp only
      split_ifs
      · exact ⟨rfl, rfl, fun k hk => if_neg hk⟩
      · exact ⟨rfl, rfl, fun k hk => if_neg hk⟩

/-! ## Runs -/

theorem run_concat (calls : List (String × Time)) (c : String × Time) :
    rl.run (calls ++ [c]) = serveCall (rl.run calls) c :=
  List.foldl_concat serveCall _ c calls

theorem readings_concat (calls : List (String × Time)) (c : String × Time) :
    readings k (calls ++ [c]) = readings k calls ++ if c.1 = k then [c.2] else [] := by
  by_cases h : c.1 = k <;> simp [readings, h]

theorem history_concat (trace : List (String × Time × Bool)) (c : String × Time × Bool) :
    history k (trace ++ [c]) = history k trace ++ if c.1 = k then [c.2] else [] := by
  by_cases h : c.1 = k <;> simp [history, h]

/-- A run does not change the parameters. -/
theorem run_frame (rl : RateLimiter) (calls : List (String × Time)) :
    (rl.run calls).1.rate = rl.rate ∧ (rl.run calls).1.burst = rl.burst := by
  induction calls using List.reverseRecOn with
  | nil => exact ⟨rfl, rfl⟩
  | append_singleton calls c ih =>
    have hcall := allow_frame (rl.run calls).1 c.1 c.2
    rw [run_concat]
    exact ⟨hcall.1.trans ih.1, hcall.2.1.trans ih.2⟩

/-- **The bucket and the history of a key are those of its own calls alone.** -/
theorem run_bucket {rate : ℚ} (hrate : 0 < rate) {burst : ℤ} (hburst : 1 ≤ burst)
    (calls : List (String × Time)) (key : String) :
    ((((newRateLimiter rate burst).run calls).1.buckets key).map TokenBucket.inSeconds,
        (history key ((newRateLimiter rate burst).run calls).2).map inSeconds) =
      serveAll rate (burst : ℚ) ((readings key calls).map seconds) := by
  induction calls using List.reverseRecOn with
  | nil => rfl
  | append_singleton calls c ih =>
    obtain ⟨hr, hb⟩ := run_frame (newRateLimiter rate burst) calls
    rw [run_concat, readings_concat, serveCall, history_concat]
    by_cases hk : c.1 = key
    · have hburst' : 1 ≤ ((newRateLimiter rate burst).run calls).1.burst := by
        rw [hb]
        change (1 : ℚ) ≤ burst
        exact_mod_cast hburst
      have htake := allow_eq_take (hr ▸ hrate) hburst' c.1 c.2
      rw [hr, hb, hk] at htake
      dsimp only
      rw [hk, if_pos rfl, if_pos rfl, List.map_append, List.map_append, List.map_singleton,
        List.map_singleton, serveAll_concat, ← ih, serve, htake.2]
      simp only [inSeconds, htake.1]
      rfl
    · have hother := (allow_frame ((newRateLimiter rate burst).run calls).1 c.1 c.2).2.2 key
        (Ne.symm hk)
      rw [if_neg hk, if_neg hk, List.append_nil, List.append_nil, ← ih, hother]

/-! ## Main theorem -/

theorem allowed_inSeconds (h : List (Time × Bool)) (i : ℕ) :
    allowed ((h.map inSeconds).drop i) = allowed (h.drop i) := by
  rw [← List.map_drop, allowed, List.countP_map]
  rfl

theorem readingAt_inSeconds (h : List (Time × Bool)) (now : Time) (i : ℕ) :
    readingAt (h.map inSeconds) (seconds now) i = seconds (readingAt h now i) := by
  have hmap : (h.map inSeconds).map Prod.fst = (h.map Prod.fst).map seconds := by
    rw [List.map_map, List.map_map]
    rfl
  rw [readingAt, readingAt, hmap, List.getD_map]

/-- What the limiter answers depends on the calls for the key only. -/
theorem allow_run_eq_take {rate : ℚ} (hrate : 0 < rate) {burst : ℤ} (hburst : 1 ≤ burst)
    (calls : List (String × Time)) (key : String) (now : Time) :
    (((newRateLimiter rate burst).run calls).1.allow key now).1 =
      (take rate (burst : ℚ) (serveAll rate (burst : ℚ) ((readings key calls).map seconds)).1
        (seconds now)).1 := by
  obtain ⟨hr, hb⟩ := run_frame (newRateLimiter rate burst) calls
  have hburst' : 1 ≤ ((newRateLimiter rate burst).run calls).1.burst := by
    rw [hb]
    change (1 : ℚ) ≤ burst
    exact_mod_cast hburst
  rw [(allow_eq_take (hr ▸ hrate) hburst' key now).1, hr, hb, ← run_bucket hrate hburst]
  rfl

/-- **The limiter is the greedy filter.** After any calls for any keys, in the order of the lock and
with any readings, a call for `key` at the reading `now` is allowed exactly if for each `i` the
allowed calls from the `i`-th for `key` on and this one are at most `burst + rate * elapsed`. Other
calls with the same readings for `key` do not change the answers. -/
theorem allow_iff {rate : ℚ} (hrate : 0 < rate) {burst : ℤ} (hburst : 1 ≤ burst)
    (calls : List (String × Time)) (key : String) (now : Time) {past : List (Time × Bool)}
    (hpast : past = history key ((newRateLimiter rate burst).run calls).2) :
    ((((newRateLimiter rate burst).run calls).1.allow key now).1 = true ↔ ∀ i ≤ past.length,
        (allowed (past.drop i) : ℚ) + 1 ≤ burst + rate * seconds (now - readingAt past now i)) ∧
      ∀ calls', readings key calls' = readings key calls →
        history key ((newRateLimiter rate burst).run calls').2 = past ∧
        (((newRateLimiter rate burst).run calls').1.allow key now).1 =
          (((newRateLimiter rate burst).run calls).1.allow key now).1 := by
  subst hpast
  have hbucket := run_bucket hrate hburst calls key
  refine ⟨?_, fun calls' hcalls => ⟨?_, ?_⟩⟩
  · have hd := describes_serveAll rate (burst : ℚ) ((readings key calls).map seconds)
    have hiff := hd.take_iff (seconds now)
    rw [allow_run_eq_take hrate hburst, hiff, ← hbucket]
    simp only [List.length_map, allowed_inSeconds, readingAt_inSeconds, seconds_sub]
  · have hbucket' := run_bucket hrate hburst calls' key
    rw [hcalls, ← hbucket] at hbucket'
    exact inSeconds_injective.list_map (congrArg Prod.snd hbucket')
  · rw [allow_run_eq_take hrate hburst, allow_run_eq_take hrate hburst, hcalls]

/-- Three calls at once and a fourth, with a burst of three. -/
def burstCalls : List (String × Time) := [("k", 0), ("k", 0), ("other", 5), ("k", 0)]

/-- The fourth is refused, and one second later there is a token again. -/
theorem allow_burst : (((newRateLimiter 1 3).run burstCalls).1.allow "k" 0).1 ≠ true ∧
    (((newRateLimiter 1 3).run burstCalls).1.allow "k" 1000000000).1 = true := by
  have hpast : history "k" ((newRateLimiter 1 3).run burstCalls).2 =
      [(0, true), (0, true), (0, true)] := by decide +kernel
  constructor
  · intro hallowed
    have hfits := (allow_iff (by norm_num) (by norm_num) burstCalls "k" 0 rfl).1.1 hallowed
    have hzero := hfits 0 (Nat.zero_le _)
    rw [hpast] at hzero
    norm_num [allowed, readingAt, seconds] at hzero
  · refine (allow_iff (by norm_num) (by norm_num) burstCalls "k" 1000000000 rfl).1.2 ?_
    rw [hpast]
    intro i hi
    have hi' : i ≤ 3 := hi
    interval_cases i <;> norm_num [allowed, readingAt, seconds]

end RateLimiter

end BatRewind
