import Mathlib.Data.Rat.Floor
import TensorWasm.Lib.Run

/-!
# The gateway's rate limiter

`RateLimiter` of `tensor-wasm-api/src/rate_limit.rs`: two layers of token buckets, one for each pair of a
token and a tenant and one for each token. Balances are exact rationals and instants are nanoseconds of a
clock that never goes back. A call of `try_admit` reads the clock first and enters the critical section
later: the map entries and the mutexes it takes there are held until it has decided, so what it does there
is one step. Eviction and the idle sweep are left out.
-/

namespace TensorWasm.Api

open Lib

abbrev TokenId := UInt64

abbrev TenantId := UInt64

structure PerTenantRateLimitConfig where
  burst : UInt32
  qps : ℚ

def PerTenantRateLimitConfig.isDisabled (cfg : PerTenantRateLimitConfig) : Bool := cfg.burst == 0

structure RateLimitConfig where
  qps : UInt32
  burst : UInt32
  perTenantDefault : PerTenantRateLimitConfig

def RateLimitConfig.isTokenLayerDisabled (cfg : RateLimitConfig) : Bool := cfg.qps == 0 || cfg.burst == 0

def RateLimitConfig.isDisabled (cfg : RateLimitConfig) : Bool :=
  cfg.isTokenLayerDisabled && cfg.perTenantDefault.isDisabled

/-! ## One bucket -/

structure BucketState where
  tokens : ℚ
  lastRefill : Nat
  lastAccess : Nat

/-- The bucket `or_insert_with` puts in. -/
def BucketState.full (burst : ℚ) (now : Nat) : BucketState := ⟨burst, now, now⟩

/-- `as_secs_f64`. -/
def asSecs (nanos : Nat) : ℚ := nanos / 1000000000

structure BucketDecision where
  admittable : Bool
  /-- In seconds. -/
  retryAfter : ℚ

/-- The refill of `refill_and_decide`: a time stamp before the anchor adds nothing, and becomes the anchor
all the same. -/
def BucketState.refill (burst qps : ℚ) (s : BucketState) (now : Nat) : BucketState :=
  let elapsed := now - s.lastRefill
  let tokens :=
    if elapsed > 0 ∧ qps > 0 then min (s.tokens + asSecs elapsed * qps) burst else min s.tokens burst
  ⟨tokens, now, now⟩

def BucketState.decision (qps : ℚ) (s : BucketState) : BucketDecision :=
  if s.tokens ≥ 1 then ⟨true, 0⟩
  else ⟨false, if qps > 0 then max ((1 - s.tokens) / qps) 0 else 3600⟩

/-- The caller deducts a permit when both layers agree. -/
def BucketState.deduct (s : BucketState) : BucketState := { s with tokens := s.tokens - 1 }

/-! ## The two layers -/

inductive AdmitResult
  | admitted
  | reject (retryAfterSecs : Nat)
  deriving DecidableEq

structure RateLimiter where
  buckets : TokenId → Option BucketState
  perTenantBuckets : TokenId × TenantId → Option BucketState

def RateLimiter.empty : RateLimiter := ⟨fun _ => none, fun _ => none⟩

/-- A layer that is switched off has no bucket to show. -/
def refilled (disabled : Bool) (burst qps : ℚ) (entry : Option BucketState) (now : Nat) : Option BucketState :=
  if disabled then none else some ((entry.getD (.full burst now)).refill burst qps now)

def put {κ : Type} [DecidableEq κ] (m : κ → Option BucketState) (k : κ) :
    Option BucketState → κ → Option BucketState
  | none => m
  | some b => Function.update m k (some b)

/-- The smaller of the retry hints of the layers that reject. -/
def retryHint (decisions : List BucketDecision) : Nat :=
  let hints := (decisions.filter fun d => !d.admittable).map BucketDecision.retryAfter
  let retry := match hints with
    | [] => 1
    | d :: ds => ds.foldl min d
  max ⌈retry⌉.toNat 1

/-- `try_admit` from the time stamp on. -/
def RateLimiter.tryAdmit (cfg : RateLimitConfig) (l : RateLimiter) (token : TokenId) (tenant : TenantId)
    (now : Nat) : RateLimiter × AdmitResult :=
  let perTenant := refilled cfg.perTenantDefault.isDisabled cfg.perTenantDefault.burst.toNat
    cfg.perTenantDefault.qps (l.perTenantBuckets (token, tenant)) now
  let perToken := refilled cfg.isTokenLayerDisabled cfg.burst.toNat cfg.qps.toNat (l.buckets token) now
  let store (perTenant perToken : Option BucketState) : RateLimiter :=
    ⟨put l.buckets token perToken, put l.perTenantBuckets (token, tenant) perTenant⟩
  let perTenantDecision := perTenant.map (BucketState.decision cfg.perTenantDefault.qps)
  let tokenDecision := perToken.map (BucketState.decision cfg.qps.toNat)
  let decisions := perTenantDecision.toList ++ tokenDecision.toList
  if decisions.all BucketDecision.admittable then
    (store (perTenant.map BucketState.deduct) (perToken.map BucketState.deduct), .admitted)
  else (store perTenant perToken, .reject (retryHint decisions))

/-! ## Concurrent calls -/

/-- A call that has read the clock and not entered its critical section. -/
structure PendingCall where
  token : TokenId
  tenant : TenantId
  now : Nat

/-- A decided call: the time it had read, and the time the clock showed when it was decided. -/
structure Outcome where
  token : TokenId
  tenant : TenantId
  stamp : Nat
  decidedAt : Nat
  result : AdmitResult

structure Gate where
  clock : Nat
  limiter : RateLimiter
  pending : List PendingCall
  log : List Outcome

def Gate.init : Gate := ⟨0, .empty, [], []⟩

inductive GateAction
  | tick (nanos : Nat)
  | arrive (token : TokenId) (tenant : TenantId)
  | enter (i : Nat)

/-- A call that enters its critical section and decides. -/
def Gate.settle (cfg : RateLimitConfig) (g : Gate) (i : Nat) (c : PendingCall) : Gate :=
  let out := g.limiter.tryAdmit cfg c.token c.tenant c.now
  { clock := g.clock
    limiter := out.1
    pending := g.pending.eraseIdx i
    log := ⟨c.token, c.tenant, c.now, g.clock, out.2⟩ :: g.log }

/-- One step of an interleaving. With both layers switched off a call is admitted without reading the
clock. -/
def Gate.step (cfg : RateLimitConfig) (g : Gate) : GateAction → Gate
  | .tick nanos => { g with clock := g.clock + nanos }
  | .arrive token tenant =>
    if cfg.isDisabled then { g with log := ⟨token, tenant, g.clock, g.clock, .admitted⟩ :: g.log }
    else { g with pending := ⟨token, tenant, g.clock⟩ :: g.pending }
  | .enter i =>
    match g.pending[i]? with
    | none => g
    | some c => g.settle cfg i c

def Gate.run (cfg : RateLimitConfig) (g : Gate) (actions : List GateAction) : Gate :=
  Lib.run (Gate.step cfg) g actions

end TensorWasm.Api
