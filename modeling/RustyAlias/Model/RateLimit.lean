import Mathlib.Data.List.AList

/-! # The rate limiter

`rate_limit.rs`: fixed windows per client address behind one mutex. An `Instant` is a number of ticks and
`duration_since` saturates; a count never exceeds `max_requests`, so its 32 bits do not matter. The
map is an association list without duplicate keys. Addresses are any type with decidable equality.
-/

namespace RustyAlias

structure Bucket where
  windowStart : ℕ
  count : ℕ
deriving DecidableEq

variable {α : Type} [DecidableEq α]

/-- `HashMap::retain`. -/
def retain (kept : Bucket → Bool) (state : AList fun _ : α => Bucket) : AList fun _ : α => Bucket :=
  ⟨state.entries.filter fun entry => kept entry.2, state.nodupKeys.sublist List.filter_sublist⟩

structure RateLimiter (α : Type) where
  window : ℕ
  maxRequests : ℕ
  state : AList fun _ : α => Bucket

namespace RateLimiter

def new (window maxRequests : ℕ) : RateLimiter α := ⟨window, maxRequests, ∅⟩

def isEnabled (limiter : RateLimiter α) : Bool := decide (0 < limiter.maxRequests) && !decide (limiter.window = 0)

/-- Opportunistic pruning above 1024 entries. -/
def prune (limiter : RateLimiter α) (now : ℕ) : AList fun _ : α => Bucket :=
  if 1024 < limiter.state.entries.length then
    retain (fun bucket => decide (now - bucket.windowStart < limiter.window)) limiter.state
  else limiter.state

/-- The decision for `ip` on a clock reading, and the limiter afterwards. -/
def check (limiter : RateLimiter α) (now : ℕ) (ip : α) : Bool × RateLimiter α :=
  if !limiter.isEnabled then (true, limiter)
  else
    let state := limiter.prune now
    let bucket := (state.lookup ip).getD ⟨now, 0⟩
    if limiter.window ≤ now - bucket.windowStart then (true, { limiter with state := state.insert ip ⟨now, 1⟩ })
    else if limiter.maxRequests ≤ bucket.count then (false, { limiter with state := state.insert ip bucket })
    else (true, { limiter with state := state.insert ip ⟨bucket.windowStart, bucket.count + 1⟩ })

end RateLimiter

/-- The threads that share the limiter. -/
inductive Thread
  | udp
  | tcp
deriving DecidableEq

/-- The clock, the limiter, the request for which a thread has read the clock but not yet taken the lock, and the
requests that were allowed. -/
structure System (α : Type) where
  clock : ℕ
  limiter : RateLimiter α
  pending : Thread → Option (α × ℕ)
  allowed : List (α × ℕ)

inductive Event (α : Type)
  | tick (later : ℕ)
  | read (thread : Thread) (ip : α)
  | update (thread : Thread)

namespace System

def start (window maxRequests : ℕ) : System α := ⟨0, .new window maxRequests, fun _ => none, []⟩

/-- One atomic step: the clock advances, a thread reads it for a request, or a thread updates the limiter under the
lock. -/
def step (s : System α) : Event α → Option (System α)
  | .tick later => if s.clock ≤ later then some { s with clock := later } else none
  | .read thread ip =>
    match s.pending thread with
    | none => some { s with pending := Function.update s.pending thread (some (ip, s.clock)) }
    | some _ => none
  | .update thread =>
    match s.pending thread with
    | none => none
    | some (ip, now) =>
      let (allowed, limiter) := s.limiter.check now ip
      some { s with
        limiter := limiter
        pending := Function.update s.pending thread none
        allowed := if allowed then (ip, now) :: s.allowed else s.allowed }

def run (s : System α) (events : List (Event α)) : Option (System α) := events.foldlM step s

end System

end RustyAlias
