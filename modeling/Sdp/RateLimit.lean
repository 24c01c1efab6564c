import Sdp.Amount
import Sdp.Code.RateLimit
import Sdp.Lib.SlidingWindow
import Mathlib.Data.List.Induction

/-!
# What the rate limit lets through

The counters of Redis are the numbers of requests let through, for as long as a request can read them. With that, the
limiter is the one that counts over a sliding window.
-/

namespace Sdp.RateLimit

open Sdp.Amount (digitsValue isDigit_of_mem_toDigits digitsValue_toDigits)
open Sdp.Lib.SlidingWindow

/-! ## Keys -/

theorem natRepr_injective : Function.Injective Nat.repr := by
  intro m n h
  have hdigits := congrArg (fun text => digitsValue text.toList) h
  simpa only [Nat.toList_repr, digitsValue_toDigits] using hdigits

theorem natRepr_ne_neg (m n : Nat) : m.repr ≠ "-" ++ n.repr := by
  intro h
  have hmem : '-' ∈ m.repr.toList := by
    rw [h, String.toList_append]
    exact List.mem_append_left _ List.mem_cons_self
  rw [Nat.toList_repr] at hmem
  exact absurd (isDigit_of_mem_toDigits hmem) (by decide)

theorem intRepr_injective : Function.Injective Int.repr := by
  intro a b h
  rw [Int.repr_eq_if, Int.repr_eq_if] at h
  split at h
  · split at h
    · have := natRepr_injective h
      omega
    · exact absurd h (natRepr_ne_neg _ _)
  · split at h
    · exact absurd h.symm (natRepr_ne_neg _ _)
    · have := natRepr_injective ((String.append_right_inj _).mp h)
      omega

/-- The key of a counter in Redis. -/
def counterKey (store identifier : String) (windowStart : ℤ) : String :=
  namespaced store (getWindowKey identifier windowStart)

theorem counterKey_injective (store identifier : String) : Function.Injective (counterKey store identifier) := by
  intro start start' h
  unfold counterKey namespaced getWindowKey at h
  exact intRepr_injective ((String.append_right_inj _).mp ((String.append_right_inj _).mp h))

/-! ## Counters -/

/-- A counter is the number of requests let through in its window, and lasts until two windows later. -/
def Tracks (windowMs : Nat) (store identifier : String) (redis : Redis) (admitted : List ℤ) : Prop :=
  ∀ start,
    (redis (counterKey store identifier start) = none ∧ countIn windowMs admitted start = 0) ∨
    ∃ expiresAt, redis (counterKey store identifier start) =
        some ⟨countIn windowMs admitted start, some expiresAt⟩ ∧ start + 2 * windowMs ≤ expiresAt

section

variable {windowMs : Nat} {store identifier : String} {redis : Redis} {admitted : List ℤ}

theorem Tracks.live (h : Tracks windowMs store identifier redis admitted) {now start : ℤ}
    (hnow : now < start + 2 * windowMs) :
    redis.live now (counterKey store identifier start) = redis (counterKey store identifier start) := by
  unfold Redis.live
  rcases h start with ⟨hnone, _⟩ | ⟨expiresAt, hsome, hexpires⟩
  · rw [hnone]
    rfl
  · rw [hsome]
    simp [lt_of_lt_of_le hnow hexpires]

theorem Tracks.count (h : Tracks windowMs store identifier redis admitted) {now start : ℤ}
    (hnow : now < start + 2 * windowMs) :
    redis.count now (counterKey store identifier start) = countIn windowMs admitted start := by
  unfold Redis.count
  rw [h.live hnow]
  rcases h start with ⟨hnone, hcount⟩ | ⟨expiresAt, hsome, _⟩
  · rw [hnone, hcount]
    rfl
  · rw [hsome]
    rfl

theorem incr_live (redis : Redis) (now : ℤ) (key : String) :
    (redis.incr now key).live now key =
      some ⟨redis.count now key + 1, (redis.live now key).bind Entry.expiresAt⟩ := by
  have hnow : (((redis.live now key).bind Entry.expiresAt).all (now < ·)) = true := by
    unfold Redis.live
    cases hentry : (redis key).filter fun entry => entry.expiresAt.all (now < ·) with
    | none => rfl
    | some entry => exact (Option.filter_eq_some_iff.mp hentry).2
  rw [Redis.live, Redis.incr, Function.update_self, Option.filter_some, if_pos hnow]

theorem incr_pexpire (redis : Redis) (now : ℤ) (key : String) (ttl : ℤ) :
    (redis.incr now key).pexpire now key ttl =
      Function.update redis key (some ⟨redis.count now key + 1, some (now + ttl)⟩) := by
  rw [Redis.pexpire, incr_live, Redis.incr, Function.update_idem]
  rfl

theorem Tracks.admit (hsize : 0 < windowMs) (h : Tracks windowMs store identifier redis admitted) {now ttl : ℤ}
    (httl : 2 * (windowMs : ℤ) ≤ ttl) :
    Tracks windowMs store identifier
      (Function.update redis (counterKey store identifier (windowStart windowMs now))
        (some ⟨countIn windowMs admitted (windowStart windowMs now) + 1, some (now + ttl)⟩)) (now :: admitted) := by
  intro start
  by_cases hstart : start = windowStart windowMs now
  · subst hstart
    have hcount : countIn windowMs (now :: admitted) (windowStart windowMs now) =
        countIn windowMs admitted (windowStart windowMs now) + 1 := List.countP_cons_of_pos (decide_eq_true rfl)
    have := windowStart_le hsize now
    exact .inr ⟨now + ttl, by rw [hcount, Function.update_self], by linarith⟩
  · have hcount : countIn windowMs (now :: admitted) start = countIn windowMs admitted start :=
      List.countP_cons_of_neg (by simpa using Ne.symm hstart)
    rw [hcount, Function.update_of_ne fun hkey => hstart (counterKey_injective store identifier hkey)]
    exact h start

/-! ## One request -/

/-- The expiry in milliseconds, rounded up twice, covers two windows. -/
theorem two_windows_le_ttl (windowMs : Nat) :
    2 * (windowMs : ℤ) ≤ ⌈((⌈((windowMs * 2 : Nat) : ℚ) / 1000⌉ : ℤ) : ℚ) * 1000⌉ := by
  have hseconds := Int.le_ceil (((windowMs * 2 : Nat) : ℚ) / 1000)
  have hmillis := Int.le_ceil (((⌈((windowMs * 2 : Nat) : ℚ) / 1000⌉ : ℤ) : ℚ) * 1000)
  have hbound : ((windowMs * 2 : Nat) : ℚ) ≤ (⌈((⌈((windowMs * 2 : Nat) : ℚ) / 1000⌉ : ℤ) : ℚ) * 1000⌉ : ℤ) := by
    linarith
  have : ((windowMs * 2 : Nat) : ℤ) ≤ ⌈((⌈((windowMs * 2 : Nat) : ℚ) / 1000⌉ : ℤ) : ℚ) * 1000⌉ := by
    exact_mod_cast hbound
  omega

variable {maxRequests : Nat} {failClosed : Bool}

/-- A request is let through if and only if the estimate is below the limit, and counted if it is. -/
theorem enforceRateLimit_spec (hsize : 0 < windowMs) (h : Tracks windowMs store identifier redis admitted) (now : ℤ) :
    (estimate windowMs admitted now < maxRequests ∧ ∃ headers redis',
      enforceRateLimit windowMs store identifier maxRequests failClosed (.redis redis) now =
        (⟨.ok (), headers⟩, .redis redis') ∧ Tracks windowMs store identifier redis' (now :: admitted)) ∨
    (maxRequests ≤ estimate windowMs admitted now ∧ ∃ error headers,
      enforceRateLimit windowMs store identifier maxRequests failClosed (.redis redis) now =
        (⟨.error error, headers⟩, .redis redis)) := by
  have hstart : ⌊(now : ℚ) / windowMs⌋ * windowMs = windowStart windowMs now :=
    congrArg (· * (windowMs : ℤ)) (Rat.floor_intCast_div_natCast now windowMs)
  have hafter := lt_windowStart_add hsize now
  have hcurrent := h.count (by linarith : now < windowStart windowMs now + 2 * windowMs)
  have hprevious := h.count (by linarith : now < windowStart windowMs now - windowMs + 2 * windowMs)
  have hweight : max 0 (1 - ((now - windowStart windowMs now : ℤ) : ℚ) / windowMs) = weight windowMs now :=
    max_eq_right (weight_pos hsize now).le
  unfold counterKey at hcurrent hprevious
  unfold enforceRateLimit admitSlidingWindow admitScript
  simp only [hstart, hweight, hcurrent, hprevious]
  by_cases hfull : (maxRequests : ℚ) ≤ estimate windowMs admitted now
  · refine .inr ⟨hfull, ?_⟩
    unfold estimate at hfull
    rw [if_pos hfull]
    exact ⟨_, _, rfl⟩
  · refine .inl ⟨not_le.mp hfull, ?_⟩
    unfold estimate at hfull
    rw [if_neg hfull]
    refine ⟨_, _, rfl, ?_⟩
    rw [incr_pexpire, hcurrent]
    exact h.admit hsize (two_windows_le_ttl windowMs)

end

theorem rejected_unchanged {windowMs : Nat} {store identifier : String} {maxRequests : Nat} {failClosed : Bool}
    {kv : Kv} {now : ℤ} {error : AppError}
    (h : (enforceRateLimit windowMs store identifier maxRequests failClosed kv now).1.result = .error error) :
    (enforceRateLimit windowMs store identifier maxRequests failClosed kv now).2 = kv := by
  cases kv with
  | missing => rfl
  | failing => rfl
  | redis redis =>
    unfold enforceRateLimit admitSlidingWindow admitScript at h ⊢
    dsimp only at h ⊢
    split at h
    · next hfull => rw [if_pos hfull]
    · cases h

/-! ## Requests one after the other -/

/-- The times of the requests let through, the newest first, and the store. -/
def serve (windowMs : Nat) (store identifier : String) (maxRequests : Nat) (failClosed : Bool)
    (state : List ℤ × Kv) (now : ℤ) : List ℤ × Kv :=
  match enforceRateLimit windowMs store identifier maxRequests failClosed state.2 now with
  | (⟨.ok (), _⟩, kv) => (now :: state.1, kv)
  | (⟨.error _, _⟩, kv) => (state.1, kv)

def serveAll (windowMs : Nat) (store identifier : String) (maxRequests : Nat) (failClosed : Bool) (redis : Redis)
    (requests : List ℤ) : List ℤ × Kv :=
  requests.foldl (serve windowMs store identifier maxRequests failClosed) ([], .redis redis)

section

variable {windowMs : Nat} {store identifier : String} {maxRequests : Nat} {failClosed : Bool} {redis : Redis}

theorem serveAll_tracks (hsize : 0 < windowMs) (hfresh : ∀ start, redis (counterKey store identifier start) = none)
    {requests : List ℤ} (hordered : requests.Pairwise (· ≤ ·)) :
    ∃ admitted redis', serveAll windowMs store identifier maxRequests failClosed redis requests =
        (admitted, .redis redis') ∧
      Tracks windowMs store identifier redis' admitted ∧ Admitted windowMs maxRequests admitted ∧
      ∀ t ∈ admitted, t ∈ requests := by
  induction requests using List.reverseRecOn with
  | nil => exact ⟨[], redis, rfl, fun start => .inl ⟨hfresh start, rfl⟩, .nil, fun t h => absurd h List.not_mem_nil⟩
  | append_singleton requests now ih =>
    rw [List.pairwise_append] at hordered
    obtain ⟨hearlier, -, hlatest⟩ := hordered
    obtain ⟨admitted, redis', hstate, htracks, hadmitted, hmem⟩ := ih hearlier
    have hnewest : ∀ t ∈ admitted, t ≤ now := fun t ht => hlatest t (hmem t ht) now List.mem_cons_self
    have hlater : ∀ t ∈ admitted, t ∈ requests ++ [now] := fun t ht => List.mem_append_left _ (hmem t ht)
    rw [serveAll, List.foldl_append, ← serveAll, hstate, List.foldl_cons, List.foldl_nil, serve]
    rcases @enforceRateLimit_spec windowMs store identifier redis' admitted maxRequests failClosed hsize htracks now with
      ⟨hbelow, headers, redis'', hok, htracks'⟩ | ⟨_, error, headers, hrejected⟩
    · refine ⟨now :: admitted, redis'', by rw [hok], htracks', .cons hadmitted hnewest hbelow, ?_⟩
      exact List.forall_mem_cons.mpr ⟨List.mem_append_right _ List.mem_cons_self, hlater⟩
    · exact ⟨admitted, redis', by rw [hrejected], htracks, hadmitted, hlater⟩

/-- Bursts are bounded, in an aligned window and in any other, and no counter is lost that is still read. -/
theorem slidingWindow_bounded (hsize : 0 < windowMs)
    (hfresh : ∀ start, redis (counterKey store identifier start) = none) {requests : List ℤ}
    (hordered : requests.Pairwise (· ≤ ·)) :
    ∃ admitted redis', serveAll windowMs store identifier maxRequests failClosed redis requests =
        (admitted, .redis redis') ∧
      (∀ start, countIn windowMs admitted start ≤ maxRequests) ∧
      (∀ t : ℚ, (admitted.countP (fun s : ℤ => t - windowMs < s ∧ s ≤ t) : ℚ) <
        maxRequests * (1 + (t - windowStart windowMs ⌊t⌋) / windowMs) + 1) ∧
      (∀ now error, (enforceRateLimit windowMs store identifier maxRequests failClosed (.redis redis') now).1.result =
          .error error →
        (enforceRateLimit windowMs store identifier maxRequests failClosed (.redis redis') now).2 = .redis redis') ∧
      ∀ now start, start = windowStart windowMs now ∨ start = windowStart windowMs now - windowMs →
        redis'.count now (counterKey store identifier start) = countIn windowMs admitted start := by
  obtain ⟨admitted, redis', hstate, htracks, hadmitted, -⟩ := serveAll_tracks hsize hfresh hordered
  refine ⟨admitted, redis', hstate, hadmitted.countIn_le hsize, hadmitted.bound hsize,
    fun now error => rejected_unchanged, fun now start hstart => htracks.count ?_⟩
  have := lt_windowStart_add hsize now
  rcases hstart with rfl | rfl <;> linarith

end

theorem minute_admits_one :
    ∃ admitted redis', serveAll RATE_LIMIT_WINDOW_MS "rateLimits" "ip" 1 true (fun _ => none) [5, 6] =
        (admitted, .redis redis') ∧ countIn RATE_LIMIT_WINDOW_MS admitted 0 ≤ 1 := by
  obtain ⟨admitted, redis', hstate, haligned, -⟩ :=
    @slidingWindow_bounded RATE_LIMIT_WINDOW_MS "rateLimits" "ip" 1 true (fun _ => none) (by decide) (fun _ => rfl)
      [5, 6] (by decide)
  exact ⟨admitted, redis', hstate, haligned 0⟩

end Sdp.RateLimit
