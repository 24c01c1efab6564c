import Mathlib.Algebra.Order.Floor.Ring
import Mathlib.Data.Rat.Floor
import Mathlib.Logic.Function.Basic

/-!
# Rate limiting

From `middleware/rate-limit.ts` and `runtime/kv-redis.ts`. Times are milliseconds, weights exact. A script runs at the
time that the middleware computed with, and nothing comes between its commands.
-/

namespace Sdp.RateLimit

/-! ## Redis -/

structure Entry where
  value : Nat
  expiresAt : Option ℤ

abbrev Redis := String → Option Entry

/-- A key is gone once its time has come. -/
def Redis.live (redis : Redis) (now : ℤ) (key : String) : Option Entry :=
  (redis key).filter fun entry => entry.expiresAt.all (now < ·)

/-- `GET` of a counter, `'0'` where there is none. -/
def Redis.count (redis : Redis) (now : ℤ) (key : String) : Nat := ((redis.live now key).map Entry.value).getD 0

/-- `INCR` keeps the expiry of a key. -/
def Redis.incr (redis : Redis) (now : ℤ) (key : String) : Redis :=
  Function.update redis key (some ⟨redis.count now key + 1, (redis.live now key).bind Entry.expiresAt⟩)

def Redis.pexpire (redis : Redis) (now : ℤ) (key : String) (ttl : ℤ) : Redis :=
  Function.update redis key ((redis.live now key).map fun entry => { entry with expiresAt := some (now + ttl) })

structure SlidingWindowAdmission where
  admitted : Bool
  current : Nat
  previous : Nat

/-- `ADMIT_SLIDING_WINDOW_LUA` -/
def admitScript (redis : Redis) (now : ℤ) (currentKey previousKey : String) (max : Nat) (weight : ℚ) (ttl : ℤ) :
    SlidingWindowAdmission × Redis :=
  let current := redis.count now currentKey
  let previous := redis.count now previousKey
  if (max : ℚ) ≤ current + previous * weight then (⟨false, current, previous⟩, redis)
  else
    let redis := redis.incr now currentKey
    (⟨true, redis.count now currentKey, previous⟩, redis.pexpire now currentKey ttl)

structure SlidingWindowOptions where
  maxRequests : Nat
  previousWeight : ℚ
  expirationTtl : ℤ

def namespaced (store key : String) : String := store ++ ":" ++ key

def admitSlidingWindow (store : String) (redis : Redis) (now : ℤ) (currentKey previousKey : String)
    (options : SlidingWindowOptions) : SlidingWindowAdmission × Redis :=
  admitScript redis now (namespaced store currentKey) (namespaced store previousKey) options.maxRequests
    options.previousWeight ⌈(options.expirationTtl : ℚ) * 1000⌉

/-! ## The middleware -/

def getWindowKey (identifier : String) (windowStart : ℤ) : String :=
  "ratelimit:" ++ identifier ++ ":" ++ windowStart.repr

/-- The counter store of a request: not bound, out of order, or Redis. -/
inductive Kv where
  | missing
  | failing
  | redis (redis : Redis)

inductive AppError where
  | rateLimited (message : String)
  | serviceUnavailable (message : String)

structure Headers where
  limit : Int
  remaining : Int
  reset : Int
  retryAfter : Option Int

structure Response where
  result : Except AppError Unit
  headers : Option Headers

def unavailable (failClosed : Bool) : Response :=
  if failClosed then ⟨.error (.serviceUnavailable "Rate limiting is unavailable; request refused"), none⟩
  else ⟨.ok (), none⟩

/-- What the handler makes of an answer of the store. -/
def answer (windowMs maxRequests : Nat) (now windowStart : ℤ) (previousWeight : ℚ)
    (admission : SlidingWindowAdmission) : Response :=
  let estimatedCount : ℚ := admission.current + admission.previous * previousWeight
  let windowEndMs := windowStart + windowMs
  let retryAfter := max 1 ⌈((windowEndMs - now : ℤ) : ℚ) / 1000⌉
  let headers : Headers :=
    { limit := maxRequests
      remaining := max 0 ⌊(maxRequests : ℚ) - estimatedCount⌋
      reset := ⌈(windowEndMs : ℚ) / 1000⌉
      retryAfter := if admission.admitted then none else some retryAfter }
  if admission.admitted then ⟨.ok (), some headers⟩
  else
    ⟨.error (.rateLimited ("Rate limit exceeded. Retry after " ++ retryAfter.repr ++ " seconds.")), some headers⟩

/-- The limiter with windows of `windowMs`, which the source fixes as `RATE_LIMIT_WINDOW_MS`. -/
def enforceRateLimit (windowMs : Nat) (store identifier : String) (maxRequests : Nat) (failClosed : Bool) (kv : Kv)
    (now : ℤ) : Response × Kv :=
  match kv with
  | .missing => (unavailable failClosed, .missing)
  | .failing => (unavailable failClosed, .failing)
  | .redis redis =>
    let windowStart := ⌊(now : ℚ) / windowMs⌋ * windowMs
    let previousWindowStart := windowStart - windowMs
    let windowKey := getWindowKey identifier windowStart
    let previousWindowKey := getWindowKey identifier previousWindowStart
    let elapsed := now - windowStart
    let previousWeight : ℚ := max 0 (1 - elapsed / windowMs)
    let (admission, redis) := admitSlidingWindow store redis now windowKey previousWindowKey
      { maxRequests, previousWeight, expirationTtl := ⌈((windowMs * 2 : Nat) : ℚ) / 1000⌉ }
    (answer windowMs maxRequests now windowStart previousWeight admission, .redis redis)

def RATE_LIMIT_WINDOW_MS : Nat := 60000

end Sdp.RateLimit
